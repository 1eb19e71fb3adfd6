import StellarRustClient.Config
import StellarRustClient.Error
import StellarRustClient.Interaction.Fallible
import StellarRustClient.Sdk.Hex
import StellarRustClient.Sdk.Transaction

/-!
# The world outside the crate

What the crate calls and does not define: the RPC node, the signer and its factory, the clock, and
the pure functions of `soroban-client`. The first three are the environment of an interactive
program: a `Call` is issued and any `Reply` may come back. The pure functions are the fields of
`Sdk`, an argument of every definition that uses them; `Sdk.Lawful` states what is documented of
them and used by the results below.

A failure of a pure function of the SDK is carried by the text the crate puts into its own error.
-/

namespace StellarRustClient

open Interaction

/-! ## Replies of the RPC node -/

/-- `soroban_client::error::Error`: the variants the crate looks at, and the text of the others. -/
inductive RpcError
  | restorationRequired (resourceFee : Int64) (restoreData : SorobanTransactionData)
  | contractDataNotFound
  | other (text : String)

/-- `SendTransactionStatus`. -/
inductive SendTransactionStatus
  | pending
  | duplicate
  | tryAgainLater
  | error
  deriving DecidableEq

/-- `SendTransactionResponse`. -/
structure SendTransactionResponse where
  status : SendTransactionStatus
  hash : String
  deriving DecidableEq

/-- `TransactionStatus`. -/
inductive TransactionStatus
  | success
  | notFound
  | failed
  deriving DecidableEq

/-- The `Debug` text of a status. -/
def TransactionStatus.debug : TransactionStatus → String
  | success => "Success"
  | notFound => "NotFound"
  | failed => "Failed"

/-- `GetTransactionResponse`: its status and what `to_result_meta` reads off it, less the meta
itself, which no caller uses. -/
structure GetTransactionResponse where
  status : TransactionStatus
  toResultMeta : Option (Option ScVal)

/-- A state change of a simulation: the key of the entry it writes. -/
structure StateChange where
  key : LedgerKey

/-- `SimulateTransactionResponse`: its `error` field, `to_state_changes` and the value of
`to_result`, three independent parts of the response. -/
structure SimulateTransactionResponse where
  error : Option String
  toStateChanges : List StateChange
  toResult : Option ScVal

/-- `GetFeeStatsResponse`, the Soroban inclusion fee market. -/
structure FeeStats where
  p90 : String

/-- `LedgerEntryResult`: the data `to_data` decodes, for contract data the value stored, and the
ledger until which the entry is live. -/
structure LedgerEntryResult where
  toData : Option ScVal
  liveUntilLedgerSeq : Option UInt32

/-! ## Calls -/

/-- A `Box<dyn Signer>`: which one it is, and its `public_key`. -/
structure Signer where
  id : ℕ
  publicKey : String
  deriving DecidableEq

/-- Everything the crate asks its environment. -/
inductive Call
  | getAccount (address : String)
  | simulateTransaction (tx : Transaction)
  | prepareTransaction (tx : Transaction)
  | sendTransaction (tx : Transaction)
  | getTransaction (hash : String)
  | getFeeStats
  | getContractData (contract : String) (key : ScVal) (durability : ContractDataDurability)
  | getLedgerEntries (keys : List LedgerKey)
  | getLatestLedger
  /-- `SignerFactory::public_key`. -/
  | factoryPublicKey
  /-- `SignerFactory::build_signer`: the signer it returns is alive from here. -/
  | buildSigner
  /-- The end of the scope that owns the signer. -/
  | dropSigner (signer : Signer)
  | sign (signer : Signer) (tx : Transaction) (networkPassphrase : String)
  | now
  | sleep (duration : Duration)
  /-- The salt that the SDK picks for a contract created with none given. -/
  | salt

/-- The replies to a call. -/
@[reducible] def Reply : Call → Type
  | .getAccount _ => Except RpcError Account
  | .simulateTransaction _ => Except RpcError SimulateTransactionResponse
  | .prepareTransaction _ => Except RpcError Transaction
  | .sendTransaction _ => Except RpcError SendTransactionResponse
  | .getTransaction _ => Except RpcError GetTransactionResponse
  | .getFeeStats => Except RpcError FeeStats
  | .getContractData _ _ _ => Except RpcError LedgerEntryResult
  | .getLedgerEntries _ => Except RpcError (Option (List LedgerEntryResult))
  | .getLatestLedger => Except RpcError UInt32
  | .factoryPublicKey => Except SorobanUtilsError String
  | .buildSigner => Except SorobanUtilsError Signer
  | .dropSigner _ => Unit
  | .sign _ _ _ => Except SorobanUtilsError Transaction
  | .now => Instant
  | .sleep _ => Unit
  | .salt => Hash

/-- An exchange with the environment. -/
abbrev Exchange := Event Call Reply

/-- An `async fn` that returns `Result<α>`. -/
abbrev Async (α : Type) := ExceptT SorobanUtilsError (Prog Call Reply) α

/-! ## Pure functions of the SDK -/

/-- The error of `Address::new`, with its `Display` and its `Debug` text. -/
structure AddressError where
  display : String
  debug : String

/-- The pure functions of `soroban-client` and the range of the clock. -/
structure Sdk where
  /-- `Transaction::hash`: signatures are not hashed. -/
  hash : TransactionContents → Hash
  /-- `Operation::upload_wasm(wasm, None)`. -/
  uploadWasm : ByteArray → Except String Operation
  /-- `Operation::create_contract(deployer, hash, None, None, args)`, for the salt picked. -/
  createContract : String → Hash → Hash → List ScVal → Except String Operation
  /-- `Operation::invoke_contract(contract, function, args, None)`. -/
  invokeContract : String → String → List ScVal → Except String Operation
  /-- `Operation::extend_footprint_ttl(extend_to)`. -/
  extendFootprintTtl : UInt32 → Except String Operation
  /-- `Operation::restore_footprint()`. -/
  restoreFootprint : Except String Operation
  /-- A parsed `Address`. -/
  Address : Type
  /-- `Address::new`. -/
  addressNew : String → Except AddressError Address
  /-- `Address::to_sc_address`. -/
  toScAddress : Address → Except String ScAddress
  /-- `Address::to_sc_val`. -/
  toScVal : Address → Except String ScVal
  /-- `ScAddress::to_string`. -/
  displayScAddress : ScAddress → String
  displayRpcError : RpcError → String
  debugScVal : ScVal → String
  debugString : String → String
  /-- The `Debug` text of the error of `String::from_utf8` on these bytes. -/
  debugFromUtf8Error : ByteArray → String
  /-- The last instant that the clock can represent. -/
  instantMax : Instant

/-- What the SDK documents of the operations it builds. -/
structure Sdk.Lawful (sdk : Sdk) : Prop where
  extendFootprintTtl : ∀ {n op}, sdk.extendFootprintTtl n = .ok op → op = .extendFootprintTtl n
  extendFootprintTtl_isOk : ∀ n : UInt32, 0 < n → ∃ op, sdk.extendFootprintTtl n = .ok op
  restoreFootprint : sdk.restoreFootprint = .ok .restoreFootprint
  createContract : ∀ {deployer wasmHash salt args op},
    sdk.createContract deployer wasmHash salt args = .ok op →
      ∃ address, op = .createContract address salt wasmHash args
  uploadWasm : ∀ {wasm op}, sdk.uploadWasm wasm = .ok op → op = .uploadContractWasm wasm

/-! ## Calls as the crate writes them

The `?` after an RPC call goes through `From<Error>`, which keeps only the text of the error; where
the source maps the error by hand, so does the caller below. -/

variable (sdk : Sdk)

/-- `From<soroban_client::error::Error>`. -/
def rpcError (e : RpcError) : SorobanUtilsError :=
  .rpc (sdk.displayRpcError e)

/-- `map_err(|e| SorobanUtilsError::Simulation(e.to_string()))`. -/
def simulationError (e : RpcError) : SorobanUtilsError :=
  .simulation (sdk.displayRpcError e)

/-- `server.get_account(address).await?`. -/
def getAccount (address : String) : Async Account :=
  Prog.ask (.getAccount address) (Except.mapError (rpcError sdk))

/-- `server.send_transaction(tx).await?`. -/
def sendTransaction (tx : Transaction) : Async SendTransactionResponse :=
  Prog.ask (.sendTransaction tx) (Except.mapError (rpcError sdk))

/-- `server.get_transaction(hash).await?`. -/
def getTransaction (hash : String) : Async GetTransactionResponse :=
  Prog.ask (.getTransaction hash) (Except.mapError (rpcError sdk))

/-- `signer.sign(tx, network_passphrase).await?`. -/
def Signer.sign (signer : Signer) (tx : Transaction) (networkPassphrase : String) :
    Async Transaction :=
  Prog.ask (.sign signer tx networkPassphrase) fun r ↦ r

/-- `hex::encode(Transaction::hash(&tx))`. -/
def Transaction.hexHash (tx : Transaction) : String :=
  hexEncode (sdk.hash tx.contents).toList

end StellarRustClient
