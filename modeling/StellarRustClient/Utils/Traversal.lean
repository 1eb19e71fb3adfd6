import Mathlib.Data.List.Forall2
import StellarRustClient.Utils.PartialInverse

/-!
# Traversals that can fail

`List.mapM` over `EStateM` is an iterator that applies a function which may fail and which keeps a
state between its calls. `Traversal` lists the applications of one that gets to the end, and
`Stopped` those of one that fails; together they are all there is (`run_mapM_eq_ok`,
`run_mapM_eq_error`).

The state is arbitrary. In particular it can be a record of the calls made, which is how "no element
past this one is looked at" is said: the state that a failed traversal ends in is the one that the
failing application left.

A function into `Except` keeps no state; its traversals are the last part.
-/

variable {ε ε' σ τ α β : Type}

/-- The function, applied to `xs` in turn from the state `s`, gives `ys` and ends in `s'`. -/
inductive Traversal (f : α → EStateM ε σ β) : σ → List α → List β → σ → Prop
  | nil (s : σ) : Traversal f s [] [] s
  | cons {x : α} {y : β} {xs : List α} {ys : List β} {s s₁ s' : σ}
      (hx : (f x).run s = .ok y s₁) (hxs : Traversal f s₁ xs ys s') :
      Traversal f s (x :: xs) (y :: ys) s'

/-- The function, applied in turn from the state `s`, fails on an element of `xs` and leaves `s'`.
The elements before it have been gone through. -/
def Stopped (f : α → EStateM ε σ β) (s : σ) (xs : List α) (e : ε) (s' : σ) : Prop :=
  ∃ before x after ys s₁, xs = before ++ x :: after ∧ Traversal f s before ys s₁ ∧
    (f x).run s₁ = .error e s'

/-- The functions undo each other on `x`: whatever the states, what `f` makes of `x` is taken by `g`
and given back as `x`. -/
def Undoes (g : β → EStateM ε' τ α) (f : α → EStateM ε σ β) (x : α) : Prop :=
  ∀ s y s', (f x).run s = .ok y s' → ∀ u, ∃ u', (g y).run u = .ok x u'

/-- `f`, with a record of the elements it has been applied to. -/
def recorded (f : α → EStateM ε σ β) (x : α) : EStateM ε (σ × List α) β := fun s ↦
  match (f x).run s.1 with
  | .ok y s' => .ok y (s', s.2 ++ [x])
  | .error e s' => .error e (s', s.2 ++ [x])

/-- A function that keeps no state. -/
def stateless (f : α → Except ε β) (x : α) : EStateM ε σ β := fun s ↦
  match f x with
  | .ok y => .ok y s
  | .error e => .error e s

variable {f : α → EStateM ε σ β} {g : β → EStateM ε' τ α} {s s' : σ} {xs : List α} {ys : List β}

/-! ## Traversals are what `mapM` does -/

theorem run_mapM_cons (f : α → EStateM ε σ β) (x : α) (xs : List α) (s : σ) :
    ((x :: xs).mapM f).run s =
      match (f x).run s with
      | .error e s₁ => .error e s₁
      | .ok y s₁ =>
        match (xs.mapM f).run s₁ with
        | .error e s₂ => .error e s₂
        | .ok ys s₂ => .ok (y :: ys) s₂ := by
  rw [List.mapM_cons, EStateM.run_bind]
  cases (f x).run s with
  | error e s₁ => rfl
  | ok y s₁ =>
    simp only [EStateM.run_bind]
    cases (xs.mapM f).run s₁ <;> rfl

theorem run_mapM_eq_ok : (xs.mapM f).run s = .ok ys s' ↔ Traversal f s xs ys s' := by
  induction xs generalizing s ys with
  | nil =>
    constructor
    · rintro ⟨⟩
      exact .nil _
    · rintro ⟨⟩
      rfl
  | cons x xs ih =>
    rw [run_mapM_cons]
    constructor
    · intro h
      cases hx : (f x).run s with
      | error e s₁ =>
        rw [hx] at h
        cases h
      | ok y s₁ =>
        rw [hx] at h
        cases hxs : (xs.mapM f).run s₁ with
        | error e s₂ =>
          simp only [hxs] at h
          cases h
        | ok zs s₂ =>
          simp only [hxs] at h
          cases h
          exact .cons hx (ih.mp hxs)
    · rintro (_ | ⟨hx, hxs⟩)
      rw [hx]
      simp only [ih.mpr hxs]

theorem Stopped.head {x : α} {e : ε} (hx : (f x).run s = .error e s') :
    Stopped f s (x :: xs) e s' :=
  ⟨[], x, xs, [], s, rfl, .nil s, hx⟩

theorem Stopped.tail {x : α} {y : β} {e : ε} {s₁ : σ} (hx : (f x).run s = .ok y s₁)
    (h : Stopped f s₁ xs e s') : Stopped f s (x :: xs) e s' := by
  obtain ⟨before, z, after, ys, s₂, rfl, htraversal, hz⟩ := h
  exact ⟨x :: before, z, after, y :: ys, s₂, rfl, .cons hx htraversal, hz⟩

theorem run_mapM_eq_error {e : ε} : (xs.mapM f).run s = .error e s' ↔ Stopped f s xs e s' := by
  constructor
  · intro h
    induction xs generalizing s with
    | nil => cases h
    | cons x xs ih =>
      rw [run_mapM_cons] at h
      cases hx : (f x).run s with
      | error e s₁ =>
        rw [hx] at h
        cases h
        exact .head hx
      | ok y s₁ =>
        rw [hx] at h
        cases hxs : (xs.mapM f).run s₁ with
        | error e s₂ =>
          simp only [hxs] at h
          cases h
          exact .tail hx (ih hxs)
        | ok zs s₂ =>
          simp only [hxs] at h
          cases h
  · rintro ⟨before, x, after, ys, s₁, rfl, htraversal, hx⟩
    -- The elements before the failing one are gone through, so it is reached in the state `s₁`.
    induction htraversal with
    | nil s =>
      rw [List.nil_append, run_mapM_cons, hx]
    | cons hy _ ih =>
      rw [List.cons_append, run_mapM_cons, hy]
      simp only [ih hx]

theorem exists_traversal_or_stopped (f : α → EStateM ε σ β) (s : σ) (xs : List α) :
    (∃ ys s', Traversal f s xs ys s') ∨ ∃ e s', Stopped f s xs e s' := by
  cases h : (xs.mapM f).run s with
  | ok ys s' => exact .inl ⟨ys, s', run_mapM_eq_ok.mp h⟩
  | error e s' => exact .inr ⟨e, s', run_mapM_eq_error.mp h⟩

/-! ## What a traversal keeps -/

theorem run_recorded (f : α → EStateM ε σ β) (x : α) (s : σ) (l : List α) :
    (recorded f x).run (s, l) =
      match (f x).run s with
      | .ok y s' => .ok y (s', l ++ [x])
      | .error e s' => .error e (s', l ++ [x]) := rfl

namespace Traversal

theorem length_eq (h : Traversal f s xs ys s') : ys.length = xs.length := by
  induction h with
  | nil s => rfl
  | cons _ _ ih => rw [List.length_cons, List.length_cons, ih]

/-- The images, traversed by a function that undoes `f`, give the elements back. -/
theorem undo (h : Traversal f s xs ys s') (hg : ∀ x ∈ xs, Undoes g f x) (u : τ) :
    ∃ u', Traversal g u ys xs u' := by
  induction h generalizing u with
  | nil s => exact ⟨u, .nil u⟩
  | @cons x y xs ys s s₁ s' hx _ ih =>
    obtain ⟨u₁, hy⟩ := hg x List.mem_cons_self s y s₁ hx u
    obtain ⟨u', hys⟩ := ih (fun z hz ↦ hg z (List.mem_cons_of_mem x hz)) u₁
    exact ⟨u', .cons hy hys⟩

/-- The record of a traversal is the elements it went through. -/
theorem with_record (h : Traversal f s xs ys s') (l : List α) :
    Traversal (recorded f) (s, l) xs ys (s', l ++ xs) := by
  induction h generalizing l with
  | nil s =>
    rw [List.append_nil]
    exact .nil _
  | @cons x y xs ys s s₁ s' hx _ ih =>
    have hstep : (recorded f x).run (s, l) = .ok y (s₁, l ++ [x]) := by
      rw [run_recorded, hx]
    rw [List.append_cons]
    exact .cons hstep (ih (l ++ [x]))

end Traversal

/-- The record of a failed traversal ends with the element it failed on. -/
theorem stopped_recorded {x : α} {before after : List α} {e : ε} {s₁ : σ}
    (h : Traversal f s before ys s₁) (hx : (f x).run s₁ = .error e s') :
    Stopped (recorded f) (s, []) (before ++ x :: after) e (s', before ++ [x]) := by
  refine ⟨before, x, after, ys, _, rfl, h.with_record [], ?_⟩
  rw [run_recorded, hx, List.nil_append]

/-! ## Functions without a state -/

theorem run_stateless {f : α → Except ε β} {x : α} {y : β} :
    (stateless f x : EStateM ε σ β).run s = .ok y s' ↔ f x = .ok y ∧ s' = s := by
  change (match f x with | .ok y => _ | .error e => _) = _ ↔ _
  cases f x <;> simp [eq_comm]

theorem run_stateless_eq_error {f : α → Except ε β} {x : α} {e : ε} :
    (stateless f x : EStateM ε σ β).run s = .error e s' ↔ f x = .error e ∧ s' = s := by
  change (match f x with | .ok y => _ | .error e => _) = _ ↔ _
  cases f x <;> simp [eq_comm]

theorem stateless_undoes {f : α → Except ε β} {g : β → Except ε' α} {x : α}
    (h : ∀ y, f x = .ok y → g y = .ok x) :
    Undoes (stateless g : β → EStateM ε' τ α) (stateless f : α → EStateM ε σ β) x := by
  intro s y s' hx u
  have hy : g y = .ok x := h y (run_stateless.mp hx).1
  exact ⟨u, run_stateless.mpr ⟨hy, rfl⟩⟩

/-- A function without a state gets to the end where it fails on no element. -/
theorem exists_traversal_stateless {f : α → Except ε β} :
    (∃ ys s', Traversal (stateless f) s xs ys s') ↔ ∀ x ∈ xs, ∃ y, f x = .ok y := by
  constructor
  · rintro ⟨ys, s', h⟩
    induction h with
    | nil s => simp
    | cons hx _ ih => exact List.forall_mem_cons.mpr ⟨⟨_, (run_stateless.mp hx).1⟩, ih⟩
  · intro h
    induction xs with
    | nil => exact ⟨[], s, .nil s⟩
    | cons x xs ih =>
      obtain ⟨⟨y, hy⟩, hxs⟩ := List.forall_mem_cons.mp h
      obtain ⟨ys, s', htraversal⟩ := ih hxs
      exact ⟨y :: ys, s', .cons (run_stateless.mpr ⟨hy, rfl⟩) htraversal⟩

/-- A traversal without a state is a traversal in `Except`. -/
theorem run_mapM_stateless (f : α → Except ε β) (xs : List α) (s : σ) :
    (xs.mapM (stateless f)).run s =
      match xs.mapM f with
      | .ok ys => .ok ys s
      | .error e => .error e s := by
  induction xs with
  | nil => rfl
  | cons x xs ih =>
    have hx : (stateless f x).run s = match f x with
      | .ok y => .ok y s
      | .error e => .error e s := rfl
    rw [run_mapM_cons, List.mapM_cons, hx]
    cases f x with
    | error e => rfl
    | ok y =>
      simp only [ih]
      cases xs.mapM f <;> rfl

section

variable {f : α → Except ε β}

theorem mapM_cons_eq_ok {x : α} : (x :: xs).mapM f = .ok ys ↔
    ∃ y zs, f x = .ok y ∧ xs.mapM f = .ok zs ∧ ys = y :: zs := by
  rw [List.mapM_cons]
  cases f x with
  | error e => exact iff_of_false (by rintro ⟨⟩) (by simp)
  | ok y =>
    cases xs.mapM f with
    | error e => exact iff_of_false (by rintro ⟨⟩) (by simp)
    | ok zs =>
      change Except.ok (y :: zs) = _ ↔ _
      simp [eq_comm]

theorem mapM_eq_ok : xs.mapM f = .ok ys ↔ List.Forall₂ (fun x y ↦ f x = .ok y) xs ys := by
  induction xs generalizing ys with
  | nil =>
    change Except.ok [] = _ ↔ _
    simp [eq_comm]
  | cons x xs ih =>
    rw [mapM_cons_eq_ok, List.forall₂_cons_left_iff]
    simp only [ih]

theorem exists_mapM : (∃ ys, xs.mapM f = .ok ys) ↔ ∀ x ∈ xs, ∃ y, f x = .ok y := by
  induction xs with
  | nil => exact iff_of_true ⟨[], rfl⟩ (by simp)
  | cons x xs ih =>
    rw [List.forall_mem_cons, ← ih]
    simp only [mapM_cons_eq_ok]
    constructor
    · rintro ⟨_, y, ys, hx, hxs, rfl⟩
      exact ⟨⟨y, hx⟩, ys, hxs⟩
    · rintro ⟨⟨y, hx⟩, ys, hxs⟩
      exact ⟨_, y, ys, hx, hxs, rfl⟩

theorem mapM_eq_error {e : ε} : xs.mapM f = .error e ↔ ∃ before x after,
    xs = before ++ x :: after ∧ (∀ y ∈ before, ∃ z, f y = .ok z) ∧ f x = .error e := by
  have hrun : xs.mapM f = .error e ↔ (xs.mapM (stateless f)).run () = .error e () := by
    rw [run_mapM_stateless]
    cases xs.mapM f <;> simp
  rw [hrun, run_mapM_eq_error]
  constructor
  · rintro ⟨before, x, after, ys, s₁, rfl, htraversal, hx⟩
    exact ⟨before, x, after, rfl, exists_traversal_stateless.mp ⟨ys, s₁, htraversal⟩,
      (run_stateless_eq_error.mp hx).1⟩
  · rintro ⟨before, x, after, rfl, hbefore, hx⟩
    obtain ⟨ys, s₁, htraversal⟩ := (exists_traversal_stateless (s := ())).mpr hbefore
    exact ⟨before, x, after, ys, s₁, rfl, htraversal, run_stateless_eq_error.mpr ⟨hx, rfl⟩⟩

/-- A codec applied to each element of a list. -/
theorem InverseUpTo.mapM {normal : β → β} {decode : β → Except ε α}
    (h : InverseUpTo normal f decode) :
    InverseUpTo (List.map normal) (List.mapM f) (List.mapM decode) where
  decode_encode hxs :=
    mapM_eq_ok.mpr ((mapM_eq_ok.mp hxs).imp fun _ _ hx ↦ h.decode_encode hx).flip
  encode_decode hvs := by
    have hback : List.Forall₂ (fun x v ↦ f x = .ok (normal v)) _ _ :=
      ((mapM_eq_ok.mp hvs).imp fun _ _ hv ↦ h.encode_decode hv).flip
    exact mapM_eq_ok.mpr (List.forall₂_map_right_iff.mpr hback)

end
