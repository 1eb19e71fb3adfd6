import StellarRustClient.Fee
import StellarRustClient.TxBuilder

/-!
# Reading from a contract

`read_contract`: simulate an invocation and hand out the value that it results in.
-/

namespace StellarRustClient

open Interaction

variable (sdk : Sdk)

/-- `read_contract`. -/
def readContract (networkPassphrase callerAddress contractAddress functionName : String)
    (args : List ScVal) : Async ScVal := do
  let op ← Prog.lift ((sdk.invokeContract contractAddress functionName args).mapError .xdr)
  let simulation ← buildAndSimulate sdk networkPassphrase callerAddress op minBaseFee
  -- The `error` field of the response is not looked at.
  match simulation.toResult with
  | some v => pure v
  | none => throw .missingReturnValue

end StellarRustClient
