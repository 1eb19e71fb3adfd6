import StellarRustClient.Poll

/-!
# The shared submission path

`prepare_and_send`: build, prepare, sign, send, poll; and `build_and_simulate`, the read-only path.
-/

namespace StellarRustClient

open Interaction

variable (sdk : Sdk)

/-- `prepare_and_send`. -/
def prepareAndSend (networkPassphrase callerAddress : String) (operation : Operation)
    (fee : UInt32) (signer : Signer) (pollCfg : PollConfig) :
    Async (String × GetTransactionResponse) := do
  let sourceAccount ← getAccount sdk callerAddress
  let transaction := (TransactionBuilder.build sourceAccount networkPassphrase fee operation none).1
  let prepared ← Prog.ask (.prepareTransaction transaction) (Except.mapError (simulationError sdk))
  let signed ← signer.sign prepared networkPassphrase
  let hash := signed.hexHash sdk
  -- Only a failure of the call itself is looked at; the status in the reply is not.
  let _ ← sendTransaction sdk signed
  let response ← pollTransactionStatus sdk hash pollCfg
  pure (hash, response)

/-- `build_and_simulate`. -/
def buildAndSimulate (networkPassphrase callerAddress : String) (operation : Operation)
    (fee : UInt32) : Async SimulateTransactionResponse := do
  let sourceAccount ← getAccount sdk callerAddress
  let transaction := (TransactionBuilder.build sourceAccount networkPassphrase fee operation none).1
  Prog.ask (.simulateTransaction transaction) (Except.mapError (simulationError sdk))

end StellarRustClient
