import Mathlib.Order.Nat
import StellarRustClient.Interaction.Productive

/-!
# Budgets

`Within W B n p` bounds what a program costs in a world: no run of `p` there goes beyond `n`
exchanges, none gets stuck before, and one that panics has an exchange of the kind `B` to blame for
it. Budgets add up along a program, with one rule for each way to compose programs; only for a loop
the bound has to come from the world, so that a loop brings its own.

A program within a budget comes to an end wherever every call is answered (`Within.exists_ended`).
-/

namespace Interaction

variable {C : Type} {R : C → Type} {α β ε : Type} {σ : Type*}

namespace Prog.Productive

open Prog

theorem map {p : ExceptT ε (Prog C R) α} {f : α → β} (hp : p.run.Productive) :
    (f <$> p).run.Productive := by
  rw [← bind_pure_comp]
  exact except_bind hp fun a ↦ .pure (f a)

theorem ensuring {p : ExceptT ε (Prog C R) α} {c : C} (hp : p.run.Productive) :
    (Prog.ensuring p c).run.Productive :=
  bind hp fun _ _ ↦ trivial

end Prog.Productive

/-- A run of `p` in `W` makes at most `n` exchanges, and panics only over one in `B`. -/
structure Within (W : World C R σ) (B : Event C R → Prop) (n : ℕ) (p : ExceptT ε (Prog C R) α) :
    Prop where
  productive : p.run.Productive
  length_le : ∀ s l o, W.Keeps s l → Runs p.run l.trace o → l.length ≤ n
  blamed : ∀ t, Runs p.run t .panicked → ∃ x ∈ t, B x

namespace Within

variable {W : World C R σ} {B : Event C R → Prop} {n m : ℕ} {p : ExceptT ε (Prog C R) α}

theorem mono (h : Within W B n p) (hle : n ≤ m) : Within W B m p where
  productive := h.productive
  length_le s l o hkeeps hrun := (h.length_le s l o hkeeps hrun).trans hle
  blamed := h.blamed

theorem lift (x : Except ε α) : Within W B 0 (Prog.lift x) where
  productive := .lift x
  length_le s l o _ hrun := by
    rw [Stamped.trace_eq_nil_iff.mp (runs_lift.mp hrun).1]
    exact le_rfl
  blamed t hrun := by cases (runs_lift.mp hrun).2

theorem pure (a : α) : Within W B 0 (Pure.pure a : ExceptT ε (Prog C R) α) :=
  lift (.ok a)

theorem throw (e : ε) : Within W B 0 (MonadExcept.throw e : ExceptT ε (Prog C R) α) :=
  lift (.error e)

theorem ask (c : C) (f : R c → Except ε α) : Within W B 1 (Prog.ask c f) where
  productive := .ask c f
  length_le s l o _ hrun := by
    obtain ⟨ht, -⟩ | ⟨r, ht, -⟩ := runs_ask.mp hrun
    · rw [Stamped.trace_eq_nil_iff.mp ht]
      exact Nat.zero_le 1
    · obtain ⟨s', l', rfl, hl'⟩ := Stamped.trace_eq_cons_iff.mp ht
      rw [Stamped.trace_eq_nil_iff.mp hl']
      exact le_rfl
  blamed t hrun := by
    obtain ⟨-, ho⟩ | ⟨r, -, ho⟩ := runs_ask.mp hrun <;> cases ho

theorem bind {k : α → ExceptT ε (Prog C R) β} (hp : Within W B n p)
    (hk : ∀ a, Within W B m (k a)) : Within W B (n + m) (p >>= k) where
  productive := .except_bind hp.productive fun a ↦ (hk a).productive
  length_le s l o hkeeps hrun := by
    obtain ⟨h, -⟩ | ⟨h, -⟩ | ⟨e, h, -⟩ | ⟨t₁, t₂, a, ht, h₁, h₂⟩ := runs_except_bind.mp hrun
    · exact (hp.length_le s l _ hkeeps h).trans (Nat.le_add_right n m)
    · exact (hp.length_le s l _ hkeeps h).trans (Nat.le_add_right n m)
    · exact (hp.length_le s l _ hkeeps h).trans (Nat.le_add_right n m)
    · obtain ⟨l₁, l₂, rfl, rfl, rfl⟩ := List.map_eq_append_iff.mp ht
      obtain ⟨hkeeps₁, hkeeps₂⟩ := World.keeps_append.mp hkeeps
      rw [List.length_append]
      exact Nat.add_le_add (hp.length_le s l₁ _ hkeeps₁ h₁)
        ((hk a).length_le _ l₂ o hkeeps₂ h₂)
  blamed t hrun := by
    obtain ⟨-, ho⟩ | ⟨h, -⟩ | ⟨e, -, ho⟩ | ⟨t₁, t₂, a, rfl, -, h₂⟩ := runs_except_bind.mp hrun
    · cases ho
    · exact hp.blamed t h
    · cases ho
    · obtain ⟨x, hx, hB⟩ := (hk a).blamed t₂ h₂
      exact ⟨x, List.mem_append_right t₁ hx, hB⟩

theorem map {f : α → β} (hp : Within W B n p) : Within W B n (f <$> p) := by
  rw [← bind_pure_comp]
  exact hp.bind fun a ↦ pure (f a)

theorem ensuring {c : C} (hp : Within W B n p) : Within W B (n + 1) (Prog.ensuring p c) where
  productive := .ensuring hp.productive
  length_le s l o hkeeps hrun := by
    obtain ⟨h, -⟩ | ⟨h, -⟩ | ⟨x, h, -⟩ | ⟨t, x, r, ht, h, -⟩ := runs_ensuring.mp hrun
    · exact (hp.length_le s l _ hkeeps h).trans (Nat.le_succ n)
    · exact (hp.length_le s l _ hkeeps h).trans (Nat.le_succ n)
    · exact (hp.length_le s l _ hkeeps h).trans (Nat.le_succ n)
    · obtain ⟨l₁, l₂, rfl, rfl, hl₂⟩ := List.map_eq_append_iff.mp ht
      obtain ⟨y, rfl, -⟩ := List.map_eq_singleton_iff.mp hl₂
      rw [List.length_append, List.length_singleton]
      exact Nat.succ_le_succ (hp.length_le s l₁ _ (World.keeps_append.mp hkeeps).1 h)
  blamed t hrun := by
    obtain ⟨-, ho⟩ | ⟨h, -⟩ | ⟨x, -, ho⟩ | ⟨t', x, r, rfl, -, ho⟩ := runs_ensuring.mp hrun
    · cases ho
    · exact hp.blamed t h
    · cases ho
    · cases ho

/-- Where every call is answered, a program within a budget returns, unless it panics. -/
theorem exists_ended {s : σ} {answer : Answers C R σ} (h : Within W B n p)
    (hserves : W.Serves s answer) :
    ∃ l o, Answered answer l ∧ Runs p.run l.trace o ∧ o ≠ .running := by
  refine Interaction.exists_ended (n := n) h.productive fun l o hl hrun ↦ ?_
  exact h.length_le s l o (hl.keeps hserves) hrun

end Within

end Interaction
