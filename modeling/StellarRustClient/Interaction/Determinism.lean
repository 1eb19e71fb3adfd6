import StellarRustClient.Interaction.Runs

/-!
# Determinism

A program decides nothing by itself: two of its runs go the same way as long as they get the same
replies. `SameWay` says this of two traces and the situations they end in, and `Runs.sameWay` proves
it of any two runs of one program.

A loop is the only construct whose runs are put together from runs of a part. Each of its four rules
is a run of the body followed by what the outcome of the body asks for, and `SameWay.append`
compares two such compositions.
-/

namespace Interaction

variable {C : Type} {R : C → Type} {α β σ : Type}

/-- Two runs that issue the same calls, and end alike, as long as they get the same replies. -/
inductive SameWay : List (Event C R) → Outcome α → List (Event C R) → Outcome α → Prop
  /-- They get different replies to the same call. -/
  | apart (t v v' : List (Event C R)) {c : C} {r r' : R c} (o o' : Outcome α) (hne : r ≠ r') :
      SameWay (t ++ ⟨c, r⟩ :: v) o (t ++ ⟨c, r'⟩ :: v') o'
  | same (t : List (Event C R)) (o : Outcome α) : SameWay t o t o
  /-- The first one is still waiting where the second one goes on. -/
  | behind (t v : List (Event C R)) (x : Event C R) (o : Outcome α) :
      SameWay t .running (t ++ x :: v) o
  | ahead (t v : List (Event C R)) (x : Event C R) (o : Outcome α) :
      SameWay (t ++ x :: v) o t .running

namespace SameWay

variable {t t' u u' : List (Event C R)} {o o' : Outcome α} {x x' : Outcome β}

theorem append_left (h : SameWay t o t' o') (u : List (Event C R)) :
    SameWay (u ++ t) o (u ++ t') o' := by
  cases h with
  | apart t v v' o o' hne =>
    rw [← List.append_assoc, ← List.append_assoc]
    exact .apart _ v v' o o' hne
  | same => exact .same _ _
  | behind t v y =>
    rw [← List.append_assoc]
    exact .behind _ v y _
  | ahead t v y =>
    rw [← List.append_assoc]
    exact .ahead _ v y _

theorem cons (h : SameWay t o t' o') (y : Event C R) : SameWay (y :: t) o (y :: t') o' :=
  h.append_left [y]

/-- Two runs composed of a first part that goes the same way, and of a second one that does so when
the outcomes of the first are the same. A part that is waiting has nothing after it. -/
theorem append (h : SameWay t x t' x') (hx : x = .running → u = [] ∧ o = .running)
    (hx' : x' = .running → u' = [] ∧ o' = .running) (hu : x = x' → SameWay u o u' o') :
    SameWay (t ++ u) o (t' ++ u') o' := by
  cases h with
  | apart t v v' x x' hne =>
    rw [List.append_assoc, List.append_assoc]
    exact .apart t (v ++ u) (v' ++ u') o o' hne
  | same => exact (hu rfl).append_left _
  | behind _ v y =>
    obtain ⟨rfl, rfl⟩ := hx rfl
    rw [List.append_nil, List.append_assoc]
    exact .behind _ (v ++ u') y o'
  | ahead _ v y =>
    obtain ⟨rfl, rfl⟩ := hx' rfl
    rw [List.append_nil, List.append_assoc]
    exact .ahead _ (v ++ u) y o

end SameWay

/-- What follows a round of a loop with the outcome `x`. -/
private inductive AfterRound (body : σ → Prog C R (σ ⊕ β)) (k : β → Prog C R α) :
    Outcome (σ ⊕ β) → List (Event C R) → Outcome α → Prop
  | running : AfterRound body k .running [] .running
  | panicked : AfterRound body k .panicked [] .panicked
  | next {s : σ} {t : List (Event C R)} {o : Outcome α} (h : Runs (.loop body s k) t o) :
      AfterRound body k (.returned (.inl s)) t o
  | exit {b : β} {t : List (Event C R)} {o : Outcome α} (h : Runs (k b) t o) :
      AfterRound body k (.returned (.inr b)) t o

private theorem exists_afterRound {body : σ → Prog C R (σ ⊕ β)} {k : β → Prog C R α} {s : σ}
    {t : List (Event C R)} {o : Outcome α} (h : Runs (.loop body s k) t o) :
    ∃ t₁ t₂ x, t = t₁ ++ t₂ ∧ Runs (body s) t₁ x ∧ AfterRound body k x t₂ o := by
  cases h with
  | loopWait hb => exact ⟨t, [], _, (List.append_nil t).symm, hb, .running⟩
  | loopAbort hb => exact ⟨t, [], _, (List.append_nil t).symm, hb, .panicked⟩
  | loopNext hb hloop => exact ⟨_, _, _, rfl, hb, .next hloop⟩
  | loopExit hb hk => exact ⟨_, _, _, rfl, hb, .exit hk⟩

private theorem AfterRound.of_running {body : σ → Prog C R (σ ⊕ β)} {k : β → Prog C R α}
    {x : Outcome (σ ⊕ β)} {t : List (Event C R)} {o : Outcome α} (h : AfterRound body k x t o)
    (hx : x = .running) : t = [] ∧ o = .running := by
  cases h with
  | running => exact ⟨rfl, rfl⟩
  | _ => cases hx

/-- **Determinism.** Any two runs of a program go the same way. -/
theorem Runs.sameWay {p : Prog C R α} {t t' : List (Event C R)} {o o' : Outcome α}
    (h : Runs p t o) (h' : Runs p t' o') : SameWay t o t' o' := by
  -- On the first run; the second is inverted at the construct that the first has come to.
  induction h generalizing t' with
  | ret a =>
    obtain ⟨rfl, rfl⟩ := runs_ret.mp h'
    exact .same _ _
  | abort msg =>
    obtain ⟨rfl, rfl⟩ := runs_abort.mp h'
    exact .same _ _
  | wait c k =>
    obtain ⟨rfl, rfl⟩ | ⟨r, t', rfl, -⟩ := runs_call.mp h'
    · exact .same _ _
    · exact .behind [] t' ⟨c, r⟩ o'
  | @call α c k r t o hk ih =>
    obtain ⟨rfl, rfl⟩ | ⟨r', t', rfl, hk'⟩ := runs_call.mp h'
    · exact .ahead [] t ⟨c, r⟩ o
    by_cases hr : r = r'
    · subst hr
      exact (ih hk').cons ⟨c, r⟩
    · exact .apart [] t t' o o' hr
  | @loopWait σ β α body s k t hb ih =>
    obtain ⟨t₁, t₂, x, rfl, hb', hafter⟩ := exists_afterRound h'
    rw [← List.append_nil t]
    refine (ih hb').append (fun _ ↦ ⟨rfl, rfl⟩) hafter.of_running ?_
    rintro rfl
    cases hafter
    exact .same _ _
  | @loopAbort σ β α body s k t hb ih =>
    obtain ⟨t₁, t₂, x, rfl, hb', hafter⟩ := exists_afterRound h'
    rw [← List.append_nil t]
    refine (ih hb').append (by simp) hafter.of_running ?_
    rintro rfl
    cases hafter
    exact .same _ _
  | loopNext hb hloop ih ihloop =>
    obtain ⟨t₁, t₂, x, rfl, hb', hafter⟩ := exists_afterRound h'
    refine (ih hb').append (by simp) hafter.of_running ?_
    rintro rfl
    cases hafter with
    | next hloop' => exact ihloop hloop'
  | loopExit hb hk ih ihk =>
    obtain ⟨t₁, t₂, x, rfl, hb', hafter⟩ := exists_afterRound h'
    refine (ih hb').append (by simp) hafter.of_running ?_
    rintro rfl
    cases hafter with
    | exit hk' => exact ihk hk'

end Interaction
