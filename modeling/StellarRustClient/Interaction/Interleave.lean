import Mathlib.Data.List.Basic

/-!
# Interleaving

`Interleaves u v t` says that `t` is what an observer sees of two parties, one of which does `u` and
the other one `v`. Each party finds its own actions in `t` in its own order.
-/

namespace Interaction

variable {ε : Type*} {u v t : List ε}

/-- The merges of two lists. -/
inductive Interleaves : List ε → List ε → List ε → Prop
  | nil : Interleaves [] [] []
  | left (x : ε) {u v t : List ε} (h : Interleaves u v t) : Interleaves (x :: u) v (x :: t)
  | right (x : ε) {u v t : List ε} (h : Interleaves u v t) : Interleaves u (x :: v) (x :: t)

namespace Interleaves

theorem symm (h : Interleaves u v t) : Interleaves v u t := by
  induction h with
  | nil => exact .nil
  | left x _ ih => exact .right x ih
  | right x _ ih => exact .left x ih

theorem sublist_left (h : Interleaves u v t) : u.Sublist t := by
  induction h with
  | nil => exact .slnil
  | left x _ ih => exact ih.cons_cons x
  | right x _ ih => exact ih.cons x

/-- What follows an action of a party follows it in the merge. -/
theorem exists_of_left {u₁ u₂ : List ε} {x : ε} (h : Interleaves u v t) (hu : u = u₁ ++ x :: u₂) :
    ∃ t₁ t₂, t = t₁ ++ x :: t₂ ∧ u₂ ⊆ t₂ := by
  have hsub := h.sublist_left
  rw [hu, List.append_sublist_iff] at hsub
  obtain ⟨t₁, r, rfl, -, hr⟩ := hsub
  obtain ⟨r₁, r₂, rfl, hx, hr₂⟩ := List.cons_sublist_iff.mp hr
  obtain ⟨a, b, rfl⟩ := List.append_of_mem hx
  exact ⟨t₁ ++ a, b ++ r₂, by simp, fun y hy ↦ List.mem_append_right _ (hr₂.subset hy)⟩

end Interleaves

end Interaction
