import Mathlib.Tactic.Common

/-!
# Positions in a trace

`t = t₁ ++ x :: t₂` says that `x` stands in `t` after `t₁` and before `t₂`. The lemmas find the part
that `x` belongs to when `t` is itself put together from parts.
-/

namespace Interaction

variable {ε : Type*} {t₁ t₂ u v : List ε} {x y : ε}

/-- An element of `u ++ v` stands in `u` or in `v`. -/
theorem append_cons_eq_append_iff :
    u ++ v = t₁ ++ x :: t₂ ↔
      (∃ a, u = t₁ ++ x :: a ∧ t₂ = a ++ v) ∨ ∃ a, t₁ = u ++ a ∧ v = a ++ x :: t₂ := by
  rw [List.append_eq_append_iff]
  constructor
  · rintro (⟨a, rfl, rfl⟩ | ⟨c, rfl, hc⟩)
    · exact .inr ⟨a, rfl, rfl⟩
    · obtain ⟨rfl, rfl⟩ | ⟨a, rfl, rfl⟩ := List.cons_eq_append_iff.mp hc
      · exact .inr ⟨[], by simp, by simp⟩
      · exact .inl ⟨a, rfl, rfl⟩
  · rintro (⟨a, rfl, rfl⟩ | ⟨a, rfl, rfl⟩)
    · exact .inr ⟨x :: a, rfl, rfl⟩
    · exact .inl ⟨a, rfl, rfl⟩

/-- An element of `y :: v` is `y` or stands in `v`. -/
theorem cons_eq_append_cons_iff :
    y :: v = t₁ ++ x :: t₂ ↔
      (t₁ = [] ∧ x = y ∧ t₂ = v) ∨ ∃ a, t₁ = y :: a ∧ v = a ++ x :: t₂ := by
  rw [List.cons_eq_append_iff]
  constructor
  · rintro (⟨rfl, h⟩ | ⟨a, rfl, rfl⟩)
    · obtain ⟨rfl, rfl⟩ := List.cons.inj h
      exact .inl ⟨rfl, rfl, rfl⟩
    · exact .inr ⟨a, rfl, rfl⟩
  · rintro (⟨rfl, rfl, rfl⟩ | ⟨a, rfl, rfl⟩)
    · exact .inl ⟨rfl, rfl⟩
    · exact .inr ⟨a, rfl, rfl⟩

/-- An element of `y :: v` other than `y` stands in `v`. -/
theorem cons_eq_append_cons_iff_of_ne (h : x ≠ y) :
    y :: v = t₁ ++ x :: t₂ ↔ ∃ a, t₁ = y :: a ∧ v = a ++ x :: t₂ :=
  cons_eq_append_cons_iff.trans (or_iff_right fun hx ↦ h hx.2.1)

theorem eq_of_append_singleton (h : u ++ [x] = v ++ [y]) : u = v ∧ x = y := by
  obtain ⟨huv, hxy⟩ := List.append_inj' h rfl
  exact ⟨huv, List.singleton_inj.mp hxy⟩

end Interaction
