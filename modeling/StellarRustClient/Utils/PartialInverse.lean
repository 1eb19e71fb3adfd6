import Mathlib.Tactic.Common

/-!
# Encoders and decoders that may refuse

An encoder and a decoder are partial inverses when each undoes the other wherever that one succeeds.
Codecs are built by putting such pairs one after another, and by the two kinds of pair below: a
bijection, which refuses nothing, and a constructor with its match.

Where a decoder takes several forms of a value, the encoder gives back one of them, its normal form
(`InverseUpTo`).
-/

variable {ε α β γ : Type}

/-- `decode` undoes `encode`, and `encode` undoes `decode`. -/
def PartialInverse (encode : α → Except ε β) (decode : β → Except ε α) : Prop :=
  ∀ x v, encode x = .ok v ↔ decode v = .ok x

namespace PartialInverse

variable {encode : α → Except ε β} {decode : β → Except ε α}

/-- Encoding into an intermediate form, and that into the final one. -/
theorem comp {encode' : β → Except ε γ} {decode' : γ → Except ε β}
    (h : PartialInverse encode decode) (h' : PartialInverse encode' decode') :
    PartialInverse (fun x ↦ encode x >>= encode') (fun v ↦ decode' v >>= decode) := by
  have hbind {α β γ : Type} {f : α → Except ε β} {g : β → Except ε γ} {x : α} {z : γ} :
      f x >>= g = .ok z ↔ ∃ y, f x = .ok y ∧ g y = .ok z := by
    cases f x with
    | error e => exact iff_of_false (by rintro ⟨⟩) (by simp)
    | ok y => simp [bind, Except.bind]
  intro x w
  rw [hbind, hbind]
  constructor
  · rintro ⟨v, hx, hv⟩
    exact ⟨v, (h' v w).mp hv, (h x v).mp hx⟩
  · rintro ⟨v, hw, hv⟩
    exact ⟨v, (h x v).mpr hv, (h' v w).mpr hw⟩

/-- A bijection. -/
theorem of_bijection {f : α → β} {g : β → α} (h : ∀ x v, f x = v ↔ g v = x) :
    PartialInverse (fun x ↦ (.ok (f x) : Except ε β)) fun v ↦ .ok (g v) := by
  intro x v
  rw [Except.ok.injEq, Except.ok.injEq]
  exact h x v

end PartialInverse

/-- `decode` undoes `encode`, and `encode` gives back the normal form of what `decode` takes. -/
structure InverseUpTo (normal : β → β) (encode : α → Except ε β) (decode : β → Except ε α) :
    Prop where
  decode_encode : ∀ {x v}, encode x = .ok v → decode v = .ok x
  encode_decode : ∀ {x v}, decode v = .ok x → encode x = .ok (normal v)

theorem PartialInverse.inverseUpTo {encode : α → Except ε β} {decode : β → Except ε α}
    (h : PartialInverse encode decode) : InverseUpTo id encode decode where
  decode_encode hx := (h _ _).mp hx
  encode_decode hv := (h _ _).mpr hv

namespace InverseUpTo

variable {normal : β → β} {encode : α → Except ε β} {decode : β → Except ε α} {x x' : α} {v v' : β}

/-- What is encoded is in normal form. -/
theorem normal_eq (h : InverseUpTo normal encode decode) (hx : encode x = .ok v) :
    normal v = v := by
  have hback := h.encode_decode (h.decode_encode hx)
  rw [hx] at hback
  exact (Except.ok.inj hback).symm

/-- The normal form is decoded to the same. -/
theorem decode_normal (h : InverseUpTo normal encode decode) (hv : decode v = .ok x) :
    decode (normal v) = .ok x :=
  h.decode_encode (h.encode_decode hv)

/-- What is decoded is told apart by its normal form. -/
theorem normal_eq_iff (h : InverseUpTo normal encode decode) (hv : decode v = .ok x)
    (hv' : decode v' = .ok x') : normal v = normal v' ↔ x = x' := by
  constructor
  · intro heq
    have hx := h.decode_normal hv
    rw [heq, h.decode_normal hv'] at hx
    exact (Except.ok.inj hx).symm
  · rintro rfl
    have hx := h.encode_decode hv
    rw [h.encode_decode hv'] at hx
    exact (Except.ok.inj hx).symm

end InverseUpTo
