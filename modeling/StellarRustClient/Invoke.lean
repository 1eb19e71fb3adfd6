import StellarRustClient.Fee
import StellarRustClient.TxBuilder

/-!
# Invoking a contract

`invoke_contract`: simulate first, stop at a simulation error or at an empty set of state changes,
and only then bid a fee and submit.
-/

namespace StellarRustClient

open Interaction

/-- `InvokeOutcome`. -/
inductive InvokeOutcome
  | executed (txHash : String)
  | skippedNoStateChange (msg : String)
  deriving DecidableEq

variable (sdk : Sdk)

/-- `invoke_contract`. -/
def invokeContract (networkPassphrase : String) (signer : Signer)
    (contractAddress functionName : String) (args : List ScVal) (pollCfg : PollConfig) :
    Async InvokeOutcome := do
  let op ← Prog.lift ((sdk.invokeContract contractAddress functionName args).mapError .xdr)
  -- The simulation bids the floor; a fee is asked for only where there is something to submit.
  let simulation ← buildAndSimulate sdk networkPassphrase signer.publicKey op minBaseFee
  match simulation.error with
  | some err =>
    throw (.simulation
      s!"invoke_contract({functionName}) on {contractAddress}: {sdk.debugString err}")
  | none =>
    if simulation.toStateChanges.isEmpty then
      pure (.skippedNoStateChange s!"invoke_contract({functionName}) on {contractAddress}: simulation reported no state changes, transaction not submitted")
    else do
      let fee ← inclusionFee sdk
      let (txHash, _) ←
        prepareAndSend sdk networkPassphrase signer.publicKey op fee signer pollCfg
      pure (.executed txHash)

end StellarRustClient
