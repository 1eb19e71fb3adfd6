import StellarRustClient.Fee
import StellarRustClient.TxBuilder

/-!
# Deploying a contract

`upload_wasm`, `create_contract_instance` and their composition. Each submits one transaction and
decodes the return value the node reports for it.
-/

namespace StellarRustClient

open Interaction

/-- `<[u8; 32]>::try_from(bytes)`. -/
def Hash.tryFrom (bytes : ByteArray) : Option Hash :=
  if h : bytes.data.size = 32 then some ⟨bytes.data, h⟩ else none

/-- `to_result_meta().ok_or(MissingReturnValue)?` and then `return_value.ok_or(..)?`. -/
def GetTransactionResponse.returnValue (response : GetTransactionResponse) :
    Except SorobanUtilsError ScVal :=
  match response.toResultMeta with
  | none => .error .missingReturnValue
  | some none => .error .missingReturnValue
  | some (some v) => .ok v

variable (sdk : Sdk)

/-- How `upload_wasm` reads the return value. -/
def wasmHashOfReturnValue : ScVal → Except SorobanUtilsError Hash
  | .bytes b =>
    match Hash.tryFrom b.data with
    | some h => .ok h
    | none => .error (.xdr "wasm hash was not 32 bytes")
  | other => .error (.xdr s!"unexpected return value for upload_wasm: {sdk.debugScVal other}")

/-- How `create_contract_instance` reads the return value. -/
def addressOfReturnValue : ScVal → Except SorobanUtilsError String
  | .address addr => .ok (sdk.displayScAddress addr)
  | other => .error (.xdr s!"unexpected return value for create_contract: {sdk.debugScVal other}")

/-- `upload_wasm`. -/
def uploadWasm (networkPassphrase : String) (signer : Signer) (wasm : ByteArray)
    (pollCfg : PollConfig) : Async Hash := do
  let op ← Prog.lift ((sdk.uploadWasm wasm).mapError .xdr)
  let fee ← inclusionFee sdk
  let (_, response) ← prepareAndSend sdk networkPassphrase signer.publicKey op fee signer pollCfg
  let returnValue ← Prog.lift response.returnValue
  Prog.lift (wasmHashOfReturnValue sdk returnValue)

/-- `create_contract_instance`. -/
def createContractInstance (networkPassphrase : String) (signer : Signer) (wasmHash : Hash)
    (constructorArgs : List ScVal) (pollCfg : PollConfig) : Async String := do
  let deployer := signer.publicKey
  let salt ← Prog.ask .salt .ok
  let op ← Prog.lift ((sdk.createContract deployer wasmHash salt constructorArgs).mapError .xdr)
  let fee ← inclusionFee sdk
  let (_, response) ← prepareAndSend sdk networkPassphrase deployer op fee signer pollCfg
  let returnValue ← Prog.lift response.returnValue
  Prog.lift (addressOfReturnValue sdk returnValue)

/-- `deploy::deploy_contract`, with one signer for both transactions. -/
def deployContract (networkPassphrase : String) (signer : Signer) (wasm : ByteArray)
    (constructorArgs : List ScVal) (pollCfg : PollConfig) : Async (String × Hash) := do
  let wasmHash ← uploadWasm sdk networkPassphrase signer wasm pollCfg
  let contractAddress ←
    createContractInstance sdk networkPassphrase signer wasmHash constructorArgs pollCfg
  pure (contractAddress, wasmHash)

end StellarRustClient
