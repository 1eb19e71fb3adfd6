import StellarRustClient.Client

/-!
# The write methods

The methods of the client that submit transactions, as one type, so that a statement about all of
them, or about a sequence of them, can be made.
-/

namespace StellarRustClient

open Interaction

/-- A write method of the client, with its arguments. -/
inductive WriteOp
  | uploadWasm (wasm : ByteArray)
  | createContractInstance (wasmHash : Hash) (constructorArgs : List ScVal)
  | deployContract (wasm : ByteArray) (constructorArgs : List ScVal)
  | invokeContract (contractAddress functionName : String) (args : List ScVal)
  | extendTtl (contractAddress mappingName : String) (details : List ScVal)
      (durability : ContractDataDurability) (extendTo : UInt32)
  | extendInstanceTtl (contractAddress : String) (extendTo : UInt32)
  | extendWasmTtl (wasmHash : Hash) (extendTo : UInt32)

/-- A call of a write method, whose result is looked at no further than whether it is an error. -/
def Client.perform (sdk : Sdk) (client : Client) : WriteOp → Async Unit
  | .uploadWasm wasm => (fun _ ↦ ()) <$> client.uploadWasm sdk wasm
  | .createContractInstance wasmHash constructorArgs =>
    (fun _ ↦ ()) <$> client.createContractInstance sdk wasmHash constructorArgs
  | .deployContract wasm constructorArgs =>
    (fun _ ↦ ()) <$> client.deployContract sdk wasm constructorArgs
  | .invokeContract contractAddress functionName args =>
    (fun _ ↦ ()) <$> client.invokeContract sdk contractAddress functionName args
  | .extendTtl contractAddress mappingName details durability extendTo =>
    (fun _ ↦ ()) <$> client.extendTtl sdk contractAddress mappingName details durability extendTo
  | .extendInstanceTtl contractAddress extendTo =>
    (fun _ ↦ ()) <$> client.extendInstanceTtl sdk contractAddress extendTo
  | .extendWasmTtl wasmHash extendTo => (fun _ ↦ ()) <$> client.extendWasmTtl sdk wasmHash extendTo

end StellarRustClient
