import StellarRustClient.Sdk.Server
import StellarRustClient.Utils.BigEndian

/-!
# Construction and extraction of contract values

`utils`: one encoder and one decoder for each primitive type, and the raw vec in both directions.
The native 128-bit integers are bit vectors, read as two's complement for `i128`; they are split and
joined through their big-endian bytes, as the source does it.
-/

namespace StellarRustClient

/-- `i128`, in two's complement. -/
abbrev I128 := BitVec 128

/-- `u128`. -/
abbrev U128 := BitVec 128

namespace Utils

variable (sdk : Sdk)

/-- `xdr_err`, for an error with this `Debug` text. -/
def xdrErr (context e : String) : SorobanUtilsError :=
  .xdr s!"{context}: {e}"

/-- `type_mismatch`. -/
def typeMismatch (expected : String) (got : ScVal) : SorobanUtilsError :=
  .xdr s!"expected ScVal::{expected}, got {sdk.debugScVal got}"

/-! ## Construction -/

def address (value : String) : Except SorobanUtilsError ScVal := do
  let address ← (sdk.addressNew value).mapError fun e ↦ xdrErr "invalid address" e.debug
  (sdk.toScVal address).mapError (xdrErr "failed to encode address")

/-- `value.to_vec().try_into().map_err(|e| xdr_err(context, e))`. -/
def limited (max : ℕ) (context : String) (value : ByteArray) :
    Except SorobanUtilsError (BytesM max) :=
  (BytesM.tryFrom max value).mapError fun e ↦ xdrErr context e.debug

def string (value : String) : Except SorobanUtilsError ScVal := do
  let s ← limited u32Max "string too long for ScString" value.toUTF8
  pure (.string s)

def symbol (value : String) : Except SorobanUtilsError ScVal := do
  let s ← limited 32 "symbol too long (max 32 chars)" value.toUTF8
  pure (.symbol s)

def bytes (value : ByteArray) : Except SorobanUtilsError ScVal := do
  let b ← limited u32Max "failed to encode bytes" value
  pure (.bytes b)

def boolean (value : Bool) : ScVal := .bool value

def void : ScVal := .void

def i32Val (value : Int32) : ScVal := .i32 value

def u32Val (value : UInt32) : ScVal := .u32 value

def i64Val (value : Int64) : ScVal := .i64 value

def u64Val (value : UInt64) : ScVal := .u64 value

/-- `i64::from_be_bytes`. -/
def i64FromBeBytes (raw : List UInt8) : Int64 :=
  .ofBitVec (.ofNat 64 (BigEndian.decode raw))

/-- `u64::from_be_bytes`. -/
def u64FromBeBytes (raw : List UInt8) : UInt64 :=
  .ofBitVec (.ofNat 64 (BigEndian.decode raw))

def i128Val (value : I128) : ScVal :=
  let raw := BigEndian.encode 16 value.toNat
  let hi := i64FromBeBytes (raw.take 8)
  let lo := u64FromBeBytes ((raw.drop 8).take 8)
  .i128 { hi, lo }

def u128Val (value : U128) : ScVal :=
  let raw := BigEndian.encode 16 value.toNat
  let hi := u64FromBeBytes (raw.take 8)
  let lo := u64FromBeBytes ((raw.drop 8).take 8)
  .u128 { hi, lo }

def vecVal (items : List ScVal) : Except SorobanUtilsError ScVal := do
  let v ← (ScVec.tryFrom items).mapError fun e ↦
    xdrErr "failed to encode Vec<ScVal> as ScVec" e.debug
  pure (.vec (some v))

/-- `vec_of`. The closure is applied to the items in turn, in a monad `m` with its effects, and the
first error ends the iteration. -/
def vecOf {m : Type → Type} [Monad m] [MonadExcept SorobanUtilsError m] {α : Type}
    (encode : α → m ScVal) (items : List α) : m ScVal := do
  let encoded ← items.mapM encode
  ofExcept (vecVal encoded)

def vecOfAddresses : List String → Except SorobanUtilsError ScVal :=
  vecOf fun a ↦ address sdk a

def vecOfStrings : List String → Except SorobanUtilsError ScVal :=
  vecOf fun s ↦ string s

def vecOfSymbols : List String → Except SorobanUtilsError ScVal :=
  vecOf fun s ↦ symbol s

def vecOfI128 : List I128 → Except SorobanUtilsError ScVal :=
  vecOf fun v ↦ .ok (i128Val v)

def vecOfU128 : List U128 → Except SorobanUtilsError ScVal :=
  vecOf fun v ↦ .ok (u128Val v)

def vecOfU64 : List UInt64 → Except SorobanUtilsError ScVal :=
  vecOf fun v ↦ .ok (u64Val v)

def vecOfI64 : List Int64 → Except SorobanUtilsError ScVal :=
  vecOf fun v ↦ .ok (i64Val v)

def vecOfU32 : List UInt32 → Except SorobanUtilsError ScVal :=
  vecOf fun v ↦ .ok (u32Val v)

def vecOfI32 : List Int32 → Except SorobanUtilsError ScVal :=
  vecOf fun v ↦ .ok (i32Val v)

/-! ## Extraction -/

/-- The common form of the decoders: the payload of the expected constructor, or `type_mismatch`. -/
def extract {α : Type} (expected : String) (payload : ScVal → Option α) (value : ScVal) :
    Except SorobanUtilsError α :=
  match payload value with
  | some x => .ok x
  | none => .error (typeMismatch sdk expected value)

/-- `String::from_utf8(raw).map_err(|e| xdr_err(context, e))`. -/
def fromUtf8 (context : String) (raw : ByteArray) : Except SorobanUtilsError String :=
  match String.fromUTF8? raw with
  | some value => .ok value
  | none => .error (xdrErr context (sdk.debugFromUtf8Error raw))

def toAddress : ScVal → Except SorobanUtilsError String :=
  extract sdk "Address" fun
    | .address addr => some (sdk.displayScAddress addr)
    | _ => none

def toStringVal (value : ScVal) : Except SorobanUtilsError String := do
  let s ← extract sdk "String" (fun | .string s => some s | _ => none) value
  fromUtf8 sdk "ScString was not valid UTF-8" s.data

def toSymbol (value : ScVal) : Except SorobanUtilsError String := do
  let s ← extract sdk "Symbol" (fun | .symbol s => some s | _ => none) value
  fromUtf8 sdk "ScSymbol was not valid UTF-8" s.data

def toBytes (value : ScVal) : Except SorobanUtilsError ByteArray := do
  let b ← extract sdk "Bytes" (fun | .bytes b => some b | _ => none) value
  pure b.data

def toBool : ScVal → Except SorobanUtilsError Bool :=
  extract sdk "Bool" fun | .bool b => some b | _ => none

def toI32 : ScVal → Except SorobanUtilsError Int32 :=
  extract sdk "I32" fun | .i32 v => some v | _ => none

def toU32 : ScVal → Except SorobanUtilsError UInt32 :=
  extract sdk "U32" fun | .u32 v => some v | _ => none

def toI64 : ScVal → Except SorobanUtilsError Int64 :=
  extract sdk "I64" fun | .i64 v => some v | _ => none

def toU64 : ScVal → Except SorobanUtilsError UInt64 :=
  extract sdk "U64" fun | .u64 v => some v | _ => none

/-- `{i,u}128::from_be_bytes` of the two halves copied into a 16-byte buffer. -/
def joinHalves (hi lo : BitVec 64) : BitVec 128 :=
  .ofNat 128 (BigEndian.decode (BigEndian.encode 8 hi.toNat ++ BigEndian.encode 8 lo.toNat))

def toI128 (value : ScVal) : Except SorobanUtilsError I128 := do
  let ⟨hi, lo⟩ ← extract sdk "I128" (fun | .i128 parts => some parts | _ => none) value
  pure (joinHalves hi.toBitVec lo.toBitVec)

def toU128 (value : ScVal) : Except SorobanUtilsError U128 := do
  let ⟨hi, lo⟩ ← extract sdk "U128" (fun | .u128 parts => some parts | _ => none) value
  pure (joinHalves hi.toBitVec lo.toBitVec)

def toVecVal : ScVal → Except SorobanUtilsError (List ScVal)
  | .vec (some v) => .ok v.toList
  | .vec none => .ok []
  | other => .error (typeMismatch sdk "Vec" other)

/-- `to_vec_of`, with the closure as in `vecOf`. -/
def toVecOf {m : Type → Type} [Monad m] [MonadExcept SorobanUtilsError m] {α : Type}
    (decode : ScVal → m α) (value : ScVal) : m (List α) := do
  let items ← ofExcept (toVecVal sdk value)
  items.mapM decode

def toVecOfAddresses : ScVal → Except SorobanUtilsError (List String) :=
  toVecOf sdk (toAddress sdk)

def toVecOfStrings : ScVal → Except SorobanUtilsError (List String) :=
  toVecOf sdk (toStringVal sdk)

def toVecOfSymbols : ScVal → Except SorobanUtilsError (List String) :=
  toVecOf sdk (toSymbol sdk)

def toVecOfI128 : ScVal → Except SorobanUtilsError (List I128) :=
  toVecOf sdk (toI128 sdk)

def toVecOfU128 : ScVal → Except SorobanUtilsError (List U128) :=
  toVecOf sdk (toU128 sdk)

def toVecOfU64 : ScVal → Except SorobanUtilsError (List UInt64) :=
  toVecOf sdk (toU64 sdk)

def toVecOfI64 : ScVal → Except SorobanUtilsError (List Int64) :=
  toVecOf sdk (toI64 sdk)

def toVecOfU32 : ScVal → Except SorobanUtilsError (List UInt32) :=
  toVecOf sdk (toU32 sdk)

def toVecOfI32 : ScVal → Except SorobanUtilsError (List Int32) :=
  toVecOf sdk (toI32 sdk)

end Utils

end StellarRustClient
