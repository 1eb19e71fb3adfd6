import StellarRustClient.Utils.Basic
import StellarRustClient.Utils.PartialInverse

/-!
# The scalar codecs

The ten primitive types that `utils` encodes and decodes. A decoder accepts exactly the values that
the encoder of its own type makes, and gives back what they were made of.

The decoders share `extract`, whose other half is the constructor; the text types put UTF-8 before
it, and the 128-bit ones the split into halves.
-/

namespace StellarRustClient

namespace Utils

variable {sdk : Sdk}

/-! ## Constructors, limits and UTF-8 -/

theorem extract_eq_ok {α : Type} {expected : String} {payload : ScVal → Option α} {v : ScVal}
    {x : α} : extract sdk expected payload v = .ok x ↔ payload v = some x := by
  rw [extract]
  cases payload v <;> simp

theorem exists_extract {α : Type} {expected : String} {payload : ScVal → Option α} {v : ScVal} :
    (∃ x, extract sdk expected payload v = .ok x) ↔ ∃ x, payload v = some x :=
  exists_congr fun _ ↦ extract_eq_ok

theorem exists_extract_bind {α β : Type} {expected : String} {payload : ScVal → Option α}
    {f : α → β} {v : ScVal} :
    (∃ y, (extract sdk expected payload v >>= fun x ↦ pure (f x)) = .ok y) ↔
      ∃ x, payload v = some x := by
  rw [extract]
  cases payload v with
  | none => exact iff_of_false (by rintro ⟨y, ⟨⟩⟩) (by simp)
  | some x => exact iff_of_true ⟨f x, rfl⟩ ⟨x, rfl⟩

theorem limited_eq_ok {max : ℕ} {context : String} {value : ByteArray} {b : BytesM max} :
    limited max context value = .ok b ↔ b.data = value := by
  rw [← BytesM.tryFrom_eq_ok, limited]
  cases BytesM.tryFrom max value <;> simp [Except.mapError]

theorem fromUtf8_eq_ok {context : String} {raw : ByteArray} {value : String} :
    fromUtf8 sdk context raw = .ok value ↔ raw = value.toUTF8 := by
  rw [fromUtf8, String.fromUTF8?, String.toUTF8_eq_toByteArray]
  by_cases hraw : raw.IsValidUTF8
  · rw [dif_pos hraw]
    simp [← String.toByteArray_inj, String.fromUTF8]
  · rw [dif_neg hraw]
    refine iff_of_false (by simp) ?_
    rintro rfl
    exact hraw value.isValidUTF8

theorem exists_limited {max : ℕ} {context : String} {value : ByteArray} :
    (∃ b, limited max context value = .ok b) ↔ value.size ≤ max := by
  simp only [limited_eq_ok, ← BytesM.tryFrom_eq_ok]
  exact BytesM.exists_tryFrom_eq_ok

theorem exists_fromUtf8 {context : String} {raw : ByteArray} :
    (∃ value, fromUtf8 sdk context raw = .ok value) ↔ raw.IsValidUTF8 := by
  simp only [fromUtf8_eq_ok]
  constructor
  · rintro ⟨value, rfl⟩
    exact value.isValidUTF8
  · intro hraw
    exact ⟨.fromUTF8 raw hraw, rfl⟩

/-- A constructor and the decoder that matches it. -/
theorem partialInverse_extract {α : Type} {expected : String} {mk : α → ScVal}
    {payload : ScVal → Option α} (hpayload : ∀ v x, payload v = some x ↔ v = mk x) :
    PartialInverse (fun x ↦ .ok (mk x)) (extract sdk expected payload) := by
  intro x v
  rw [extract_eq_ok, hpayload, Except.ok.injEq]
  exact eq_comm

/-- A length limit and the bytes under it. -/
theorem partialInverse_limited {max : ℕ} {context : String} :
    PartialInverse (limited max context) fun b ↦ .ok b.data := by
  intro value b
  rw [limited_eq_ok, Except.ok.injEq]

/-- UTF-8 under a length limit. -/
theorem partialInverse_utf8 {max : ℕ} {context context' : String} :
    PartialInverse (fun value : String ↦ limited max context value.toUTF8) fun b ↦
      fromUtf8 sdk context' b.data := by
  intro value b
  rw [limited_eq_ok, fromUtf8_eq_ok]

/-! ## Halves -/

/-- The halves of a 128-bit integer, as the encoders take them from its bytes. -/
theorem decode_take_encode (v : ℕ) :
    BigEndian.decode ((BigEndian.encode 16 v).take 8) = v / 256 ^ 8 % 256 ^ 8 := by
  rw [BigEndian.encode_add 8 8 v, List.take_left' (BigEndian.length_encode 8 _),
    BigEndian.decode_encode]

theorem decode_drop_encode (v : ℕ) :
    BigEndian.decode (((BigEndian.encode 16 v).drop 8).take 8) = v % 256 ^ 8 := by
  rw [BigEndian.encode_add 8 8 v, List.drop_left' (BigEndian.length_encode 8 _),
    List.take_of_length_le (BigEndian.length_encode 8 v).le, BigEndian.decode_encode]

theorem toNat_joinHalves (hi lo : BitVec 64) :
    (joinHalves hi lo).toNat = hi.toNat * 2 ^ 64 + lo.toNat := by
  have hhi := hi.isLt
  have hlo := lo.isLt
  rw [joinHalves, BitVec.toNat_ofNat, BigEndian.decode_append, BigEndian.length_encode,
    BigEndian.decode_encode, BigEndian.decode_encode]
  omega

/-- Splitting and joining are inverse. -/
theorem halves_eq_iff (x : BitVec 128) (hi lo : BitVec 64) :
    (BitVec.ofNat 64 (BigEndian.decode ((BigEndian.encode 16 x.toNat).take 8)) = hi ∧
      BitVec.ofNat 64 (BigEndian.decode (((BigEndian.encode 16 x.toNat).drop 8).take 8)) = lo) ↔
      joinHalves hi lo = x := by
  have hx := x.isLt
  have hhi := hi.isLt
  have hlo := lo.isLt
  rw [← BitVec.toNat_inj, ← BitVec.toNat_inj, ← BitVec.toNat_inj, toNat_joinHalves,
    BitVec.toNat_ofNat, BitVec.toNat_ofNat, decode_take_encode, decode_drop_encode]
  omega

theorem partialInverse_i128Halves : PartialInverse
    (fun x : I128 ↦ Except.ok (ε := SorobanUtilsError)
      (⟨i64FromBeBytes ((BigEndian.encode 16 x.toNat).take 8),
        u64FromBeBytes (((BigEndian.encode 16 x.toNat).drop 8).take 8)⟩ : Int128Parts))
    fun parts ↦ .ok (joinHalves parts.hi.toBitVec parts.lo.toBitVec) := by
  refine .of_bijection fun x parts ↦ ?_
  rw [← halves_eq_iff, Int128Parts.mk.injEq]
  exact and_congr Int64.toBitVec_inj.symm UInt64.toBitVec_inj.symm

theorem partialInverse_u128Halves : PartialInverse
    (fun x : U128 ↦ Except.ok (ε := SorobanUtilsError)
      (⟨u64FromBeBytes ((BigEndian.encode 16 x.toNat).take 8),
        u64FromBeBytes (((BigEndian.encode 16 x.toNat).drop 8).take 8)⟩ : UInt128Parts))
    fun parts ↦ .ok (joinHalves parts.hi.toBitVec parts.lo.toBitVec) := by
  refine .of_bijection fun x parts ↦ ?_
  rw [← halves_eq_iff, UInt128Parts.mk.injEq]
  exact and_congr UInt64.toBitVec_inj.symm UInt64.toBitVec_inj.symm

end Utils

/-! ## The ten pairs -/

/-- The types with an encoder and a decoder of their own. -/
inductive Scalar
  | string | symbol | bytes | boolean | i32 | u32 | i64 | u64 | i128 | u128
  deriving DecidableEq

namespace Scalar

/-- The native type. -/
@[reducible] def Native : Scalar → Type
  | string => String
  | symbol => String
  | bytes => ByteArray
  | boolean => Bool
  | i32 => Int32
  | u32 => UInt32
  | i64 => Int64
  | u64 => UInt64
  | i128 => I128
  | u128 => U128

/-- The encoder. The ones that return no `Result` accept everything. -/
def encode : (s : Scalar) → s.Native → Except SorobanUtilsError ScVal
  | string => Utils.string
  | symbol => Utils.symbol
  | bytes => Utils.bytes
  | boolean => fun x ↦ .ok (Utils.boolean x)
  | i32 => fun x ↦ .ok (Utils.i32Val x)
  | u32 => fun x ↦ .ok (Utils.u32Val x)
  | i64 => fun x ↦ .ok (Utils.i64Val x)
  | u64 => fun x ↦ .ok (Utils.u64Val x)
  | i128 => fun x ↦ .ok (Utils.i128Val x)
  | u128 => fun x ↦ .ok (Utils.u128Val x)

/-- The decoder. -/
def decode (sdk : Sdk) : (s : Scalar) → ScVal → Except SorobanUtilsError s.Native
  | string => Utils.toStringVal sdk
  | symbol => Utils.toSymbol sdk
  | bytes => Utils.toBytes sdk
  | boolean => Utils.toBool sdk
  | i32 => Utils.toI32 sdk
  | u32 => Utils.toU32 sdk
  | i64 => Utils.toI64 sdk
  | u64 => Utils.toU64 sdk
  | i128 => Utils.toI128 sdk
  | u128 => Utils.toU128 sdk

/-- The type whose constructor a value has. -/
def ofScVal : ScVal → Option Scalar
  | .string _ => some string
  | .symbol _ => some symbol
  | .bytes _ => some bytes
  | .bool _ => some boolean
  | .i32 _ => some i32
  | .u32 _ => some u32
  | .i64 _ => some i64
  | .u64 _ => some u64
  | .i128 _ => some i128
  | .u128 _ => some u128
  | _ => none

/-- The bytes of a text value. -/
def text : ScVal → Option ByteArray
  | .string s => some s.data
  | .symbol s => some s.data
  | _ => none

/-- The native values that are not too long. -/
def Fits : (s : Scalar) → s.Native → Prop
  | string => fun x ↦ x.utf8ByteSize ≤ u32Max
  | symbol => fun x ↦ x.utf8ByteSize ≤ 32
  | bytes => fun x ↦ x.size ≤ u32Max
  | _ => fun _ ↦ True

variable {sdk : Sdk}

/-- Each decoder is the inverse of its encoder. -/
theorem partialInverse (s : Scalar) : PartialInverse s.encode (s.decode sdk) := by
  cases s with
  | string =>
    refine Utils.partialInverse_utf8.comp (Utils.partialInverse_extract fun v x ↦ ?_)
    cases v <;> simp
  | symbol =>
    refine Utils.partialInverse_utf8.comp (Utils.partialInverse_extract fun v x ↦ ?_)
    cases v <;> simp
  | bytes =>
    refine Utils.partialInverse_limited.comp (Utils.partialInverse_extract fun v x ↦ ?_)
    cases v <;> simp
  | i128 =>
    refine Utils.partialInverse_i128Halves.comp (Utils.partialInverse_extract fun v x ↦ ?_)
    cases v <;> simp
  | u128 =>
    refine Utils.partialInverse_u128Halves.comp (Utils.partialInverse_extract fun v x ↦ ?_)
    cases v <;> simp
  | boolean =>
    refine Utils.partialInverse_extract fun v x ↦ ?_
    cases v <;> simp [Utils.boolean]
  | i32 =>
    refine Utils.partialInverse_extract fun v x ↦ ?_
    cases v <;> simp [Utils.i32Val]
  | u32 =>
    refine Utils.partialInverse_extract fun v x ↦ ?_
    cases v <;> simp [Utils.u32Val]
  | i64 =>
    refine Utils.partialInverse_extract fun v x ↦ ?_
    cases v <;> simp [Utils.i64Val]
  | u64 =>
    refine Utils.partialInverse_extract fun v x ↦ ?_
    cases v <;> simp [Utils.u64Val]

theorem exists_encode_iff (s : Scalar) (x : s.Native) : (∃ v, s.encode x = .ok v) ↔ s.Fits x := by
  have hbind {max : ℕ} {e : Except SorobanUtilsError (BytesM max)} {mk : BytesM max → ScVal} :
      (∃ v, (e >>= fun b ↦ pure (mk b)) = .ok v) ↔ ∃ b, e = .ok b := by
    cases e with
    | error e => exact iff_of_false (by rintro ⟨v, ⟨⟩⟩) (by simp)
    | ok b => exact iff_of_true ⟨mk b, rfl⟩ ⟨b, rfl⟩
  cases s with
  | string => exact hbind.trans Utils.exists_limited
  | symbol => exact hbind.trans Utils.exists_limited
  | bytes => exact hbind.trans Utils.exists_limited
  | _ => exact iff_of_true ⟨_, rfl⟩ trivial

/-- The text types also ask for UTF-8, and the others have no text. -/
theorem exists_decode_iff (s : Scalar) (v : ScVal) : (∃ x, s.decode sdk v = .ok x) ↔
    ofScVal v = some s ∧ ∀ raw, text v = some raw → raw.IsValidUTF8 := by
  cases s with
  | string =>
    cases v with
    | string raw => exact Utils.exists_fromUtf8.trans (by simp [ofScVal, text])
    | _ => exact iff_of_false (by rintro ⟨x, ⟨⟩⟩) (by simp [ofScVal])
  | symbol =>
    cases v with
    | symbol raw => exact Utils.exists_fromUtf8.trans (by simp [ofScVal, text])
    | _ => exact iff_of_false (by rintro ⟨x, ⟨⟩⟩) (by simp [ofScVal])
  | bytes =>
    refine Utils.exists_extract_bind.trans ?_
    cases v <;> simp [ofScVal, text]
  | i128 =>
    refine Utils.exists_extract_bind.trans ?_
    cases v <;> simp [ofScVal, text]
  | u128 =>
    refine Utils.exists_extract_bind.trans ?_
    cases v <;> simp [ofScVal, text]
  | _ =>
    simp only [decode, Utils.toBool, Utils.toI32, Utils.toU32, Utils.toI64, Utils.toU64,
      Utils.exists_extract]
    cases v <;> simp [ofScVal, text]

end Scalar

/-- The laws of the scalar codecs. -/
structure ScalarCodecs (sdk : Sdk) : Prop where
  /-- What is encoded is decoded to itself. -/
  decode_encode : ∀ (s : Scalar) (x : s.Native) (v : ScVal),
    s.encode x = .ok v → s.decode sdk v = .ok x
  /-- What is decoded is accepted by the encoder, and encoded to itself. -/
  encode_decode : ∀ (s : Scalar) (x : s.Native) (v : ScVal),
    s.decode sdk v = .ok x → s.encode x = .ok v
  /-- A decoder accepts the values of its own constructor, where these are not broken text. -/
  decodes : ∀ (s : Scalar) (v : ScVal), (∃ x, s.decode sdk v = .ok x) ↔
    Scalar.ofScVal v = some s ∧ ∀ raw, Scalar.text v = some raw → raw.IsValidUTF8
  /-- No value is accepted by two decoders. -/
  separate : ∀ (s s' : Scalar) (x : s.Native) (x' : s'.Native) (v : ScVal),
    s.decode sdk v = .ok x → s'.decode sdk v = .ok x' → s = s'
  /-- An encoder accepts what is not too long. -/
  encodes : ∀ (s : Scalar) (x : s.Native), (∃ v, s.encode x = .ok v) ↔ s.Fits x

/-- **Scalar codecs.** The ten pairs are mutually inverse and keep their types apart. -/
theorem scalarCodecs (sdk : Sdk) : ScalarCodecs sdk where
  decode_encode s x v h := (s.partialInverse x v).mp h
  encode_decode s x v h := (s.partialInverse x v).mpr h
  decodes s v := s.exists_decode_iff v
  separate s s' x x' v h h' := by
    have hs := ((s.exists_decode_iff v).mp ⟨x, h⟩).1
    have hs' := ((s'.exists_decode_iff v).mp ⟨x', h'⟩).1
    exact Option.some.inj (hs.symm.trans hs')
  encodes s x := s.exists_encode_iff x

end StellarRustClient
