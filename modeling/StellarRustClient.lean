import StellarRustClient.Interaction.Prog
import StellarRustClient.Interaction.Runs
import StellarRustClient.Interaction.Fallible
import StellarRustClient.Xdr.Bounded
import StellarRustClient.Xdr.ScVal
import StellarRustClient.Config
import StellarRustClient.Error
import StellarRustClient.Sdk.Transaction
import StellarRustClient.Sdk.Hex
import StellarRustClient.Sdk.Server
import StellarRustClient.Poll
import StellarRustClient.TxBuilder
import StellarRustClient.Deploy
import StellarRustClient.Invoke
import StellarRustClient.Utils.Basic
import StellarRustClient.Client
import StellarRustClient.Submission.Poll
import StellarRustClient.Submission.Leg
import StellarRustClient.Interaction.Trace
import StellarRustClient.Submission.Paths
import StellarRustClient.Sdk.Sample
import StellarRustClient.Submission.SendStatus
import StellarRustClient.Submission.HashKept
import StellarRustClient.Ttl.Runs
import StellarRustClient.Ttl.RestoreThenExtend
import StellarRustClient.Invoke.Report
import StellarRustClient.Client.Scope
import StellarRustClient.Deploy.Runs
import StellarRustClient.Deploy.TwoStep
import StellarRustClient.Interaction.Determinism
import StellarRustClient.Deploy.Agreement
import StellarRustClient.Interaction.World
import StellarRustClient.Client.WriteOp
import StellarRustClient.Client.Discipline
import StellarRustClient.Client.SignerContract
import StellarRustClient.Ledger
import StellarRustClient.Client.SequenceHonesty
import StellarRustClient.Interaction.Interleave
import StellarRustClient.Submission.Concurrent
import StellarRustClient.Ttl.ExtendCall
import StellarRustClient.Ttl.LiveEntry
import StellarRustClient.Ttl.AbsoluteTarget
import StellarRustClient.Utils.PartialInverse
import StellarRustClient.Utils.Scalar
import StellarRustClient.Utils.Traversal
import StellarRustClient.Utils.Vec
import StellarRustClient.Utils.Nested
import StellarRustClient.Read
import StellarRustClient.Utils.Parts
import StellarRustClient.Ttl.WasmHash
import StellarRustClient.Ttl.Keys
import StellarRustClient.Invoke.Simulation
import StellarRustClient.Ttl.RestoreFee
import StellarRustClient.Fee.Bidding
import StellarRustClient.Submission.Deadline
import StellarRustClient.Interaction.Productive
import StellarRustClient.Submission.Timely
import StellarRustClient.Interaction.Budget
import StellarRustClient.Client.Termination
import StellarRustClient.Client.ReadOp
import StellarRustClient.Client.AccountSequence
import StellarRustClient.Interaction.Threads
import StellarRustClient.Client.Overlap
import StellarRustClient.Client.Faults
import StellarRustClient.Client.Timeouts
import StellarRustClient.Interaction.Link
import StellarRustClient.Signer.Local
import StellarRustClient.Signer
import StellarRustClient.Signer.Custody
import StellarRustClient.Signer.Session
import StellarRustClient.Network
import StellarRustClient.Submission.Landed
import StellarRustClient.Ttl.Entries
import StellarRustClient.Ttl.ReadBack
import StellarRustClient.Ttl.Revival
import StellarRustClient.Deploy.Contracts
import StellarRustClient.Deploy.ReadBack
import StellarRustClient.Invoke.ReadBack
import StellarRustClient.Client.ReadOnly
