import Mathlib.Tactic.Common

/-!
# Interactive programs

A program that talks to an environment: it issues calls, each call is answered by a reply whose
type depends on the call, and the program goes on from the reply. Nothing is assumed of the
environment; a program is the tree of everything it can do for all answers it can get.

Loops are a constructor of their own. A loop whose number of rounds is decided by the replies has
no bound that the program knows, so unfolding it into a finite tree would need a fuel argument in
every function that ends up in it. With `loop` a program stays fuel free, and the finite
runs are cut out by the semantics (`Interaction.Runs`).

`abort` is a thread that panics: it has no result and issues no further call.
-/

namespace Interaction

/-- A program over calls `C`, where the call `c` is answered by a reply of type `R c`. -/
inductive Prog (C : Type) (R : C → Type) : Type → Type 1
  /-- Finished, with this result. -/
  | ret {α : Type} (a : α) : Prog C R α
  /-- Issue the call `c` and go on from its reply. -/
  | call {α : Type} (c : C) (k : R c → Prog C R α) : Prog C R α
  /-- Run `body` from `s`; a left result is the state of the next round, a right one ends the
  loop. -/
  | loop {σ β α : Type} (body : σ → Prog C R (σ ⊕ β)) (s : σ) (k : β → Prog C R α) : Prog C R α
  /-- The thread panics. -/
  | abort {α : Type} (msg : String) : Prog C R α

namespace Prog

variable {C : Type} {R : C → Type} {α β γ σ : Type}

/-- Run a program and continue from its result. -/
def bind {α β : Type} : Prog C R α → (α → Prog C R β) → Prog C R β
  | ret a, f => f a
  | call c k, f => call c fun r ↦ (k r).bind f
  | loop body s k, f => loop body s fun b ↦ (k b).bind f
  | abort msg, _ => abort msg

instance : Monad (Prog C R) where
  pure := ret
  bind := bind

@[simp] theorem call_bind (c : C) (k : R c → Prog C R α) (f : α → Prog C R β) :
    call c k >>= f = call c fun r ↦ k r >>= f := rfl

@[simp] theorem loop_bind (body : σ → Prog C R (σ ⊕ γ)) (s : σ) (k : γ → Prog C R α)
    (f : α → Prog C R β) : loop body s k >>= f = loop body s fun b ↦ k b >>= f := rfl

theorem bind_ret (p : Prog C R α) : p >>= ret = p := by
  induction p with
  | ret a => rfl
  | call c k ih => rw [call_bind, funext ih]
  | loop body s k _ ih => rw [loop_bind, funext ih]
  | abort msg => rfl

theorem bind_assoc (p : Prog C R α) (f : α → Prog C R β) (g : β → Prog C R γ) :
    p >>= f >>= g = p >>= fun a ↦ f a >>= g := by
  induction p with
  | ret a => rfl
  | call c k ih =>
    rw [call_bind, call_bind, call_bind]
    exact congrArg (call c) (funext fun r ↦ ih r f)
  | loop body s k _ ih =>
    rw [loop_bind, loop_bind, loop_bind]
    exact congrArg (loop body s) (funext fun b ↦ ih b f)
  | abort msg => rfl

instance : LawfulMonad (Prog C R) :=
  LawfulMonad.mk' _ bind_ret (fun _ _ ↦ rfl) bind_assoc

end Prog

end Interaction
