import StellarRustClient.Interaction.World

/-!
# Threads

A run of any number of threads, as an observer of all of them sees it: a list of actions, each with
the thread it belongs to. `actionsOf i` is what the thread `i` sees of it, its own actions in their
order. Nothing is said of how the threads take turns.

A `Schedule` is a history of threads that share one world.
-/

namespace Interaction

variable {ι ε : Type*} [DecidableEq ι] {i : ι} {t : List (ι × ε)} {x : ε}

/-- The actions of a thread. -/
def actionsOf (i : ι) (t : List (ι × ε)) : List ε :=
  (t.filter fun y ↦ y.1 = i).map Prod.snd

theorem mem_actionsOf : x ∈ actionsOf i t ↔ (i, x) ∈ t := by
  simp [actionsOf]

/-- What a thread does after one of its actions happens after it. -/
theorem exists_of_actionsOf_eq {u v : List ε} (h : actionsOf i t = u ++ x :: v) :
    ∃ t₁ t₂, t = t₁ ++ (i, x) :: t₂ ∧ actionsOf i t₁ = u ∧ actionsOf i t₂ = v := by
  obtain ⟨a, b, hfilter, ha, hcons⟩ := List.map_eq_append_iff.mp h
  obtain ⟨⟨j, _⟩, b, rfl, rfl, hb⟩ := List.map_eq_cons_iff.mp hcons
  obtain ⟨t₁, t₂, rfl, hfilter₁, hfilter₂⟩ := List.filter_eq_append_iff.mp hfilter
  obtain ⟨t₃, t₄, rfl, hnone, hj, hfilter₄⟩ := List.filter_eq_cons_iff.mp hfilter₂
  obtain rfl : j = i := of_decide_eq_true hj
  refine ⟨t₁ ++ t₃, t₄, by simp, ?_, ?_⟩
  · rw [actionsOf, List.filter_append, List.filter_eq_nil_iff.mpr hnone, List.append_nil, hfilter₁,
      ha]
  · rw [actionsOf, hfilter₄, hb]

/-! ## Threads in a world -/

section Schedule

variable {C : Type} {R : C → Type} {σ : Type*}

/-- A history of several threads: each exchange with its thread and the state it took place in. -/
abbrev Schedule (ι : Type*) (C : Type) (R : C → Type) (σ : Type*) := List (ι × σ × Event C R)

/-- What a thread exchanges. -/
def Schedule.traceOf (h : Schedule ι C R σ) (i : ι) : List (Event C R) :=
  History.trace (actionsOf i h)

variable {h : Schedule ι C R σ} {x : Event C R}

theorem Schedule.exists_of_mem_traceOf (hx : x ∈ h.traceOf i) : ∃ s, (i, s, x) ∈ h := by
  obtain ⟨⟨s, _⟩, hmem, rfl⟩ := List.mem_map.mp hx
  exact ⟨s, mem_actionsOf.mp hmem⟩

/-- A schedule cut at an exchange of one of its threads. -/
theorem Schedule.exists_of_traceOf_eq {u v : List (Event C R)} (hi : h.traceOf i = u ++ x :: v) :
    ∃ (h₁ : Schedule ι C R σ) (s : σ) (h₂ : Schedule ι C R σ),
      h = h₁ ++ (i, s, x) :: h₂ ∧ h₁.traceOf i = u ∧ h₂.traceOf i = v := by
  obtain ⟨a, b, hactions, rfl, hb⟩ := List.map_eq_append_iff.mp hi
  obtain ⟨⟨s, _⟩, b, rfl, rfl, rfl⟩ := List.map_eq_cons_iff.mp hb
  obtain ⟨h₁, h₂, hh, rfl, rfl⟩ := exists_of_actionsOf_eq hactions
  exact ⟨h₁, s, h₂, hh, rfl, rfl⟩

/-- A schedule cut between two exchanges of one of its threads. -/
theorem Schedule.exists_of_traceOf_append {u v : List (Event C R)} (hi : h.traceOf i = u ++ v) :
    ∃ h₁ h₂ : Schedule ι C R σ, h = h₁ ++ h₂ ∧ h₁.traceOf i = u ∧ h₂.traceOf i = v := by
  cases v with
  | nil => exact ⟨h, [], by simp, by simpa using hi, rfl⟩
  | cons x v =>
    obtain ⟨h₁, s, h₂, rfl, rfl, rfl⟩ := Schedule.exists_of_traceOf_eq hi
    exact ⟨h₁, (i, s, x) :: h₂, rfl, rfl, by simp [Schedule.traceOf, actionsOf, History.trace]⟩

/-! ### Some of the threads left out -/

/-- The threads that are kept do not notice. -/
theorem Schedule.traceOf_filter {keep : ι → Bool} (hi : keep i = true) :
    Schedule.traceOf (h.filter fun y ↦ keep y.1) i = h.traceOf i := by
  rw [Schedule.traceOf, Schedule.traceOf, actionsOf, actionsOf, List.filter_filter]
  have hfilter : h.filter (fun y ↦ decide (y.1 = i) && keep y.1) = h.filter fun y ↦ y.1 = i := by
    refine List.filter_congr fun y _ ↦ ?_
    by_cases hy : y.1 = i
    · simp [hy, hi]
    · simp [hy]
  rw [hfilter]

variable {W : World C R σ} {s s₁ s₂ s' : σ}

/-- A world that drifts before and after a history. -/
theorem World.exists_path_of_drift {l : History C R σ}
    (htrans : ∀ s s' s'', W.drift s s' → W.drift s' s'' → W.drift s s'') (hdrift : W.drift s s₁)
    (hpath : W.Path s₁ l s₂) (hend : W.drift s₂ s') : ∃ s₃, W.Path s l s₃ ∧ W.drift s₃ s' := by
  cases hpath with
  | nil => exact ⟨s, .nil s, htrans s _ s' hdrift hend⟩
  | cons hnext hstep hrest => exact ⟨s₂, .cons (htrans s _ _ hdrift hnext) hstep hrest, hend⟩

omit [DecidableEq ι] in
/-- Threads whose exchanges leave the world as it is can be left out of a schedule. -/
theorem Schedule.exists_path_filter (keep : ι → Bool) (hrefl : ∀ s, W.drift s s)
    (htrans : ∀ s s' s'', W.drift s s' → W.drift s' s'' → W.drift s s'')
    (hquiet : ∀ y ∈ h, keep y.1 = false → ∀ a b, W.step a y.2.2 b → b = a)
    (hpath : W.Path s (h.map Prod.snd) s') :
    ∃ s₂, W.Path s ((h.filter fun y ↦ keep y.1).map Prod.snd) s₂ ∧ W.drift s₂ s' := by
  induction h generalizing s with
  | nil =>
    cases hpath
    exact ⟨s', .nil s', hrefl s'⟩
  | cons y h ih =>
    obtain ⟨i, a, x⟩ := y
    cases hpath with
    | cons hdrift hstep hrest =>
      obtain ⟨s₂, hpath, hend⟩ := ih (fun y hy ↦ hquiet y (List.mem_cons_of_mem _ hy)) hrest
      rw [List.filter_cons]
      by_cases hkeep : keep i = true
      · rw [if_pos hkeep]
        exact ⟨s₂, .cons hdrift hstep hpath, hend⟩
      · have hsame := hquiet (i, a, x) List.mem_cons_self (Bool.eq_false_iff.mpr hkeep) _ _ hstep
        rw [hsame] at hpath
        rw [if_neg hkeep]
        exact World.exists_path_of_drift htrans hdrift hpath hend

end Schedule

end Interaction
