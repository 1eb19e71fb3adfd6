import Mathlib.Data.Nat.Notation
import Mathlib.Tactic.Common

/-!
# Hexadecimal text

`hex::encode`: two lowercase digits a byte, the high nibble first. `hex::decode` takes digits of
either case; its results are described by `HexPairs`, and which strings it refuses by `HexDecodes`.
-/

namespace StellarRustClient

/-- The lowercase hexadecimal digit of a nibble. -/
def hexDigit (n : ℕ) : Char :=
  if n < 10 then Char.ofNat (48 + n) else Char.ofNat (87 + n)

/-- The two digits of a byte. -/
def hexByte (b : UInt8) : List Char :=
  [hexDigit (b.toNat / 16), hexDigit (b.toNat % 16)]

/-- `hex::encode`. -/
def hexEncode (bytes : List UInt8) : String :=
  String.ofList (bytes.flatMap hexByte)

theorem hexDigit_inj {m n : ℕ} (hm : m < 16) (hn : n < 16) (h : hexDigit m = hexDigit n) :
    m = n := by
  have key : ∀ m : Fin 16, ∀ n : Fin 16, hexDigit m = hexDigit n → m = n := by decide
  exact congrArg Fin.val (key ⟨m, hm⟩ ⟨n, hn⟩ h)

theorem hexByte_injective : Function.Injective hexByte := by
  intro a b h
  have ha : a.toNat < 256 := a.toNat_lt
  have hb : b.toNat < 256 := b.toNat_lt
  rw [hexByte, hexByte, List.cons.injEq, List.cons.injEq] at h
  have hhigh : a.toNat / 16 = b.toNat / 16 := hexDigit_inj (by omega) (by omega) h.1
  have hlow : a.toNat % 16 = b.toNat % 16 := hexDigit_inj (by omega) (by omega) h.2.1
  exact UInt8.toNat_inj.mp (by omega)

theorem flatMap_hexByte_injective :
    Function.Injective fun bytes : List UInt8 ↦ bytes.flatMap hexByte := by
  intro l m h
  induction l generalizing m with
  | nil =>
    cases m with
    | nil => rfl
    | cons b m => simp [hexByte] at h
  | cons a l ih =>
    cases m with
    | nil => simp [hexByte] at h
    | cons b m =>
      simp only [List.flatMap_cons] at h
      obtain ⟨hbyte, hrest⟩ := List.append_inj h rfl
      rw [hexByte_injective hbyte, ih hrest]

theorem hexEncode_injective : Function.Injective hexEncode := fun _ _ h ↦
  flatMap_hexByte_injective (String.ofList_injective h)

theorem length_flatMap_hexByte (bytes : List UInt8) :
    (bytes.flatMap hexByte).length = 2 * bytes.length := by
  induction bytes with
  | nil => rfl
  | cons b bytes ih =>
    rw [List.flatMap_cons, List.length_append, ih, List.length_cons]
    simp only [hexByte, List.length_cons, List.length_nil]
    omega

/-! ## Decoding -/

/-- An ASCII hexadecimal digit of either case. -/
def IsHexDigit (c : Char) : Prop :=
  ('0' ≤ c ∧ c ≤ '9') ∨ ('a' ≤ c ∧ c ≤ 'f') ∨ ('A' ≤ c ∧ c ≤ 'F')

instance : DecidablePred IsHexDigit := fun c ↦
  inferInstanceAs (Decidable (('0' ≤ c ∧ c ≤ '9') ∨ ('a' ≤ c ∧ c ≤ 'f') ∨ ('A' ≤ c ∧ c ≤ 'F')))

/-- The value of a digit. -/
def hexValue (c : Char) : ℕ :=
  if c ≤ '9' then c.toNat - 48 else if c ≤ 'F' then c.toNat - 55 else c.toNat - 87

/-- The characters are two digits for each byte in turn, the high nibble first. -/
inductive HexPairs : List Char → List UInt8 → Prop
  | nil : HexPairs [] []
  | cons {hi lo : Char} {b : UInt8} {cs : List Char} {bytes : List UInt8} (hhi : IsHexDigit hi)
      (hlo : IsHexDigit lo) (hb : b.toNat = 16 * hexValue hi + hexValue lo)
      (hrest : HexPairs cs bytes) : HexPairs (hi :: lo :: cs) (b :: bytes)

/-- What is documented of `hex::decode`. An error is given by its text. -/
structure HexDecodes (decode : String → Except String (List UInt8)) : Prop where
  /-- It accepts strings of hexadecimal digits of even length. -/
  accepts : ∀ s, (∃ bytes, decode s = .ok bytes) ↔
    2 ∣ s.toList.length ∧ ∀ c ∈ s.toList, IsHexDigit c
  /-- It reads a byte from each pair of digits. -/
  reads : ∀ s bytes, decode s = .ok bytes → HexPairs s.toList bytes

/-- A digit is one of the first 103 characters, which can be tried one by one. -/
theorem hexDigit_hexValue {c : Char} (hc : IsHexDigit c) :
    hexValue c < 16 ∧ hexDigit (hexValue c) = c.toLower := by
  have key : ∀ n : Fin 103, IsHexDigit (Char.ofNat n) →
      hexValue (Char.ofNat n) < 16 ∧
        hexDigit (hexValue (Char.ofNat n)) = (Char.ofNat n).toLower := by decide
  have hlt : c.toNat < 103 := by
    have hle : c ≤ 'f' := by
      rcases hc with hc | hc | hc
      · exact Char.le_trans hc.2 (by decide)
      · exact hc.2
      · exact Char.le_trans hc.2 (by decide)
    exact Nat.lt_succ_of_le hle
  have hofNat := key ⟨c.toNat, hlt⟩
  rw [Char.ofNat_toNat] at hofNat
  exact hofNat hc

theorem isHexDigit_hexDigit {n : ℕ} (hn : n < 16) :
    IsHexDigit (hexDigit n) ∧ hexValue (hexDigit n) = n := by
  have key : ∀ n : Fin 16, IsHexDigit (hexDigit n) ∧ hexValue (hexDigit n) = n := by decide
  exact key ⟨n, hn⟩

namespace HexPairs

theorem of_bytes (bytes : List UInt8) : HexPairs (bytes.flatMap hexByte) bytes := by
  induction bytes with
  | nil => exact .nil
  | cons b bytes ih =>
    have hb : b.toNat < 256 := b.toNat_lt
    obtain ⟨hhi, hhi'⟩ := isHexDigit_hexDigit (n := b.toNat / 16) (by omega)
    obtain ⟨hlo, hlo'⟩ := isHexDigit_hexDigit (n := b.toNat % 16) (by omega)
    exact .cons hhi hlo (by omega) ih

variable {cs : List Char} {bytes : List UInt8}

/-- The lowercase digits are those that the bytes are encoded with. -/
theorem flatMap_eq (h : HexPairs cs bytes) : bytes.flatMap hexByte = cs.map Char.toLower := by
  induction h with
  | nil => rfl
  | @cons hi lo b cs bytes hhi hlo hb _ ih =>
    obtain ⟨hhi, hhi'⟩ := hexDigit_hexValue hhi
    obtain ⟨hlo, hlo'⟩ := hexDigit_hexValue hlo
    have hhigh : b.toNat / 16 = hexValue hi := by omega
    have hlow : b.toNat % 16 = hexValue lo := by omega
    rw [List.flatMap_cons, ih, hexByte, hhigh, hlow, hhi', hlo']
    rfl

theorem isHexDigit (h : HexPairs cs bytes) : ∀ c ∈ cs, IsHexDigit c := by
  induction h with
  | nil => simp
  | cons hhi hlo _ _ ih => exact List.forall_mem_cons.mpr ⟨hhi, List.forall_mem_cons.mpr ⟨hlo, ih⟩⟩

theorem length_eq (h : HexPairs cs bytes) : cs.length = 2 * bytes.length := by
  rw [← length_flatMap_hexByte, h.flatMap_eq, List.length_map]

end HexPairs

end StellarRustClient
