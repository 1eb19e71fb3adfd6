import Mathlib.Data.Nat.Notation
import Mathlib.Tactic.Common

/-!
# Length-limited sequences

XDR sequences carry their length limit in their type: `VecM<T, MAX>`, `BytesM<MAX>` and
`StringM<MAX>` can only be built from a sequence that respects it. The limit is a field here, so
that no over-length value exists, and `tryFrom` is the one way in.
-/

namespace StellarRustClient

/-- `u32::MAX`, the length limit of a sequence whose XDR definition states none. -/
def u32Max : ℕ := UInt32.size - 1

/-- What building an XDR value can fail with. -/
inductive XdrError
  | lengthExceedsMax
  deriving DecidableEq

/-- The `Debug` text of an XDR error. -/
def XdrError.debug : XdrError → String
  | lengthExceedsMax => "LengthExceedsMax"

/-- `BytesM<max>` and `StringM<max>`: bytes under a length limit. -/
structure BytesM (max : ℕ) where
  data : ByteArray
  /-- The limit is respected. -/
  size_le : data.size ≤ max

/-- `VecM<α, max>`: a list under a length limit. -/
structure VecM (α : Type) (max : ℕ) where
  toList : List α
  /-- The limit is respected. -/
  length_le : toList.length ≤ max

variable {α : Type} {max : ℕ}

namespace BytesM

/-- `TryFrom<Vec<u8>>`. -/
def tryFrom (max : ℕ) (data : ByteArray) : Except XdrError (BytesM max) :=
  if h : data.size ≤ max then .ok ⟨data, h⟩ else .error .lengthExceedsMax

@[ext] theorem ext {a b : BytesM max} (h : a.data = b.data) : a = b := by
  cases a
  cases b
  cases h
  rfl

@[simp] theorem tryFrom_data (b : BytesM max) : tryFrom max b.data = .ok b := by
  rw [tryFrom, dif_pos b.size_le]

theorem tryFrom_eq_ok {data : ByteArray} {b : BytesM max} :
    tryFrom max data = .ok b ↔ b.data = data := by
  constructor
  · intro h
    by_cases hle : data.size ≤ max
    · rw [tryFrom, dif_pos hle] at h
      rw [← Except.ok.inj h]
    · rw [tryFrom, dif_neg hle] at h
      cases h
  · rintro rfl
    exact tryFrom_data b

theorem exists_tryFrom_eq_ok {data : ByteArray} :
    (∃ b, tryFrom max data = .ok b) ↔ data.size ≤ max := by
  constructor
  · rintro ⟨b, h⟩
    rw [← tryFrom_eq_ok.mp h]
    exact b.size_le
  · intro h
    exact ⟨⟨data, h⟩, tryFrom_eq_ok.mpr rfl⟩

end BytesM

namespace VecM

/-- `TryFrom<Vec<α>>`. -/
def tryFrom (max : ℕ) (l : List α) : Except XdrError (VecM α max) :=
  if h : l.length ≤ max then .ok ⟨l, h⟩ else .error .lengthExceedsMax

theorem tryFrom_of_le {l : List α} (h : l.length ≤ max) : tryFrom max l = .ok ⟨l, h⟩ := by
  rw [tryFrom, dif_pos h]

end VecM

end StellarRustClient
