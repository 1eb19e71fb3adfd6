/-!
# Errors

`SorobanUtilsError`, the single error type of the crate.
-/

namespace StellarRustClient

/-- `SorobanUtilsError`. -/
inductive SorobanUtilsError
  | rpc (msg : String)
  | simulation (msg : String)
  | transactionFailed (hash status : String)
  | timeout (hash : String)
  | signer (msg : String)
  | wasmRead (path source : String)
  | missingReturnValue
  | xdr (msg : String)
  | invalidAddress (msg : String)
  deriving DecidableEq

end StellarRustClient
