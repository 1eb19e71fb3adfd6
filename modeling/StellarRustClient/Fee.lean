import StellarRustClient.Sdk.Server

/-!
# Inclusion fees

`recommended_inclusion_fee`: bid what the network reports as the 90th percentile, and never less
than the protocol's minimum. The report is a string; `u32::from_str` reads it.
-/

namespace StellarRustClient

open Interaction

/-- `MIN_BASE_FEE`. -/
def minBaseFee : UInt32 := 100

/-- `std::num::ParseIntError`, the kinds that an unsigned type can produce. -/
inductive ParseIntError
  | empty
  | invalidDigit
  | posOverflow
  deriving DecidableEq

/-- The `Display` text of a parse error. -/
def ParseIntError.display : ParseIntError → String
  | empty => "cannot parse integer from empty string"
  | invalidDigit => "invalid digit found in string"
  | posOverflow => "number too large to fit in target type"

/-- The digits of a `u32`, most significant first, onto what was read so far. A character is
checked to be a digit before the value is checked to fit. -/
def parseDigits (acc : ℕ) : List Char → Except ParseIntError ℕ
  | [] => .ok acc
  | c :: cs =>
    if c.isDigit then
      if 10 * acc + (c.toNat - '0'.toNat) ≤ u32Max then
        parseDigits (10 * acc + (c.toNat - '0'.toNat)) cs
      else .error .posOverflow
    else .error .invalidDigit

/-- `u32::from_str`: decimal digits after an optional `+`. -/
def parseU32 (s : String) : Except ParseIntError UInt32 :=
  match s.toList with
  | [] => .error .empty
  | ['+'] => .error .invalidDigit
  | '+' :: digits => (parseDigits 0 digits).map .ofNat
  | digits => (parseDigits 0 digits).map .ofNat

variable (sdk : Sdk)

/-- `recommended_inclusion_fee`. -/
def recommendedInclusionFee : Async UInt32 := do
  let stats ← Prog.ask .getFeeStats (Except.mapError (rpcError sdk))
  let p90 ← Prog.lift ((parseU32 stats.p90).mapError fun e ↦
    .rpc s!"failed to parse fee stats p90: {e.display}")
  pure (max p90 minBaseFee)

/-- `recommended_inclusion_fee(server).await.unwrap_or(MIN_BASE_FEE)`, as every call site has
it. -/
def inclusionFee : Async UInt32 :=
  Prog.unwrapOr (recommendedInclusionFee sdk) minBaseFee

end StellarRustClient
