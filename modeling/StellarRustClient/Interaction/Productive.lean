import StellarRustClient.Interaction.World

/-!
# Programs that end

A program that waits for a reply goes on whatever the reply is, unless it enters a loop that goes
round without a call. `Productive` excludes such loops, and nothing else: a productive program can
still loop for ever, one call after the other.

What ends is a productive program in an environment that answers every call, if the length of its
runs there is bounded (`exists_returned`): the environment never stops answering, so the run can
only stop by returning.
-/

namespace Interaction

variable {C : Type} {R : C → Type} {α β ε ρ : Type} {σ : Type*}

/-! ## Productive programs -/

/-- No loop of the program goes round without a call. -/
def Prog.Productive {α : Type} : Prog C R α → Prop
  | ret _ => True
  | call _ k => ∀ r, (k r).Productive
  | loop body _ k =>
    (∀ s, (body s).Productive) ∧ (∀ s s', ¬Runs (body s) [] (.returned (.inl s'))) ∧
      ∀ b, (k b).Productive
  | abort _ => True

namespace Prog.Productive

open Prog

theorem bind {p : Prog C R α} {f : α → Prog C R β} (hp : p.Productive)
    (hf : ∀ a, (f a).Productive) : (p >>= f).Productive := by
  induction p with
  | ret a => exact hf a
  | call c k ih => exact fun r ↦ ih r (hp r) hf
  | loop body s k _ ih => exact ⟨hp.1, hp.2.1, fun b ↦ ih b (hp.2.2 b) hf⟩
  | abort msg => trivial

/-- Before any reply a productive program has come to a call, or to its end. -/
theorem exists_runs_nil {p : Prog C R α} (hp : p.Productive) : ∃ o, Runs p [] o := by
  induction p with
  | ret a => exact ⟨_, .ret a⟩
  | call c k _ => exact ⟨_, .wait c k⟩
  | loop body s k ihbody ihk =>
    obtain ⟨hbody, hround, hk⟩ := hp
    obtain ⟨_ | _ | s' | b, ho⟩ := ihbody s (hbody s)
    · exact ⟨_, .loopWait ho⟩
    · exact ⟨_, .loopAbort ho⟩
    · exact absurd ho (hround s s')
    · obtain ⟨o, hrun⟩ := ihk b (hk b)
      exact ⟨o, .loopExit ho hrun⟩
  | abort msg => exact ⟨_, .abort msg⟩

/-- **Progress.** A productive program that waits for a reply goes on from every one. -/
theorem progress {p : Prog C R α} {t : List (Event C R)} (hp : p.Productive)
    (hrun : Runs p t .running) : ∃ c, ∀ r, ∃ o, Runs p (t ++ [⟨c, r⟩]) o := by
  generalize ho : (Outcome.running : Outcome α) = q at hrun
  induction hrun with
  | ret _ => cases ho
  | abort _ => cases ho
  | wait c k =>
    refine ⟨c, fun r ↦ ?_⟩
    obtain ⟨o, hk⟩ := exists_runs_nil (hp r)
    exact ⟨o, .call r hk⟩
  | call r _ ih =>
    obtain ⟨c, hc⟩ := ih (hp r) ho
    refine ⟨c, fun r' ↦ ?_⟩
    obtain ⟨o, hk⟩ := hc r'
    exact ⟨o, .call r hk⟩
  | @loopWait σ β α body s k t hb ih =>
    obtain ⟨c, hc⟩ := ih (hp.1 s) rfl
    refine ⟨c, fun r ↦ ?_⟩
    -- The round goes on, and where it ends the next round or the continuation begins.
    obtain ⟨_ | _ | s' | b, hround⟩ := hc r
    · exact ⟨_, .loopWait hround⟩
    · exact ⟨_, .loopAbort hround⟩
    · have hloop : (Prog.loop body s' k).Productive := hp
      obtain ⟨o, hnext⟩ := exists_runs_nil hloop
      have hrun := Runs.loopNext hround hnext
      rw [List.append_nil] at hrun
      exact ⟨o, hrun⟩
    · obtain ⟨o, hk⟩ := exists_runs_nil (hp.2.2 b)
      have hrun := Runs.loopExit hround hk
      rw [List.append_nil] at hrun
      exact ⟨o, hrun⟩
  | loopAbort _ _ => cases ho
  | loopNext hb _ _ ih =>
    obtain ⟨c, hc⟩ := ih hp ho
    refine ⟨c, fun r ↦ ?_⟩
    obtain ⟨o, hnext⟩ := hc r
    rw [List.append_assoc]
    exact ⟨o, .loopNext hb hnext⟩
  | @loopExit σ β α body s b k t₁ t₂ o hb _ _ ih =>
    obtain ⟨c, hc⟩ := ih (hp.2.2 b) ho
    refine ⟨c, fun r ↦ ?_⟩
    obtain ⟨o, hk⟩ := hc r
    rw [List.append_assoc]
    exact ⟨o, .loopExit hb hk⟩

/-! ### Fallible programs -/

theorem lift (x : Except ε α) : (Prog.lift x : ExceptT ε (Prog C R) α).run.Productive := trivial

theorem pure (a : α) : (Pure.pure a : ExceptT ε (Prog C R) α).run.Productive := trivial

theorem throw (e : ε) : (MonadExcept.throw e : ExceptT ε (Prog C R) α).run.Productive := trivial

theorem crash (msg : String) : (Prog.crash msg : ExceptT ε (Prog C R) α).run.Productive := trivial

theorem ask (c : C) (f : R c → Except ε α) : (Prog.ask c f).run.Productive := fun _ ↦ trivial

theorem except_bind {p : ExceptT ε (Prog C R) α} {k : α → ExceptT ε (Prog C R) β}
    (hp : p.run.Productive) (hk : ∀ a, (k a).run.Productive) : (p >>= k).run.Productive := by
  refine bind hp fun x ↦ ?_
  cases x with
  | error e => trivial
  | ok a => exact hk a

theorem iterate {body : ρ → ExceptT ε (Prog C R) (ρ ⊕ β)} (hbody : ∀ x, (body x).run.Productive)
    (hround : ∀ x x', ¬Runs (body x).run [] (.returned (.ok (.inl x')))) (x : ρ) :
    (Prog.iterate body x).run.Productive := by
  refine ⟨fun x ↦ bind (hbody x) fun _ ↦ trivial, fun x x' h ↦ ?_, fun _ ↦ trivial⟩
  obtain ⟨o, hrun, ho⟩ := runs_map.mp h
  rcases o with _ | _ | e | x'' | b <;> simp [roundResult] at ho
  exact hround x x'' hrun

end Prog.Productive

/-! ## Environments that answer -/

/-- Exchanges, each with the state of the world after it. -/
abbrev Stamped (C : Type) (R : C → Type) (σ : Type*) := List (Event C R × σ)

/-- The exchanges of a stamped trace. -/
def Stamped.trace (l : Stamped C R σ) : List (Event C R) :=
  l.map Prod.fst

theorem Stamped.trace_eq_cons_iff {l : Stamped C R σ} {x : Event C R} {t : List (Event C R)} :
    l.trace = x :: t ↔ ∃ s l', l = (x, s) :: l' ∧ Stamped.trace l' = t := by
  rw [Stamped.trace, List.map_eq_cons_iff]
  constructor
  · rintro ⟨⟨y, s⟩, l', rfl, rfl, rfl⟩
    exact ⟨s, l', rfl, rfl⟩
  · rintro ⟨s, l', rfl, rfl⟩
    exact ⟨(x, s), l', rfl, rfl, rfl⟩

theorem Stamped.trace_eq_nil_iff {l : Stamped C R σ} : l.trace = [] ↔ l = [] :=
  List.map_eq_nil_iff

/-- The state after the exchanges, from `s`. -/
def Stamped.last (s : σ) : Stamped C R σ → σ
  | [] => s
  | (_, s') :: l => Stamped.last s' l

namespace World

variable {W : World C R σ} {s s' : σ} {x : Event C R} {l l' : Stamped C R σ}

/-- The world takes part in an exchange, after which it is in the state `s'`. -/
def Takes (W : World C R σ) (s : σ) (x : Event C R) (s' : σ) : Prop :=
  ∃ s₁, W.drift s s₁ ∧ W.step s₁ x s'

/-- The world takes part in the exchanges, and its states are those of the stamps. -/
def Keeps (W : World C R σ) : σ → Stamped C R σ → Prop
  | _, [] => True
  | s, (x, s') :: l => W.Takes s x s' ∧ W.Keeps s' l

theorem keeps_append : W.Keeps s (l ++ l') ↔ W.Keeps s l ∧ W.Keeps (l.last s) l' := by
  induction l generalizing s with
  | nil => exact (and_iff_right trivial).symm
  | cons y l ih =>
    change W.Takes s y.1 y.2 ∧ W.Keeps y.2 (l ++ l') ↔
      (W.Takes s y.1 y.2 ∧ W.Keeps y.2 l) ∧ W.Keeps (Stamped.last y.2 l) l'
    rw [ih, and_assoc]

/-- Each exchange is one that the world takes part in. -/
theorem Keeps.exists_takes (h : W.Keeps s l) (hmem : (x, s') ∈ l) : ∃ s₁, W.Takes s₁ x s' := by
  induction l generalizing s with
  | nil => cases hmem
  | cons y l ih =>
    obtain ⟨htakes, hrest⟩ := h
    obtain rfl | hmem := List.mem_cons.mp hmem
    · exact ⟨s, htakes⟩
    · exact ih hrest hmem

end World

/-- What an environment answers to a call after the exchanges so far, and the state it is in
then. -/
abbrev Answers (C : Type) (R : C → Type) (σ : Type*) := Stamped C R σ → (c : C) → R c × σ

/-- Exchanges with an environment that answers so. -/
inductive Answered (answer : Answers C R σ) : Stamped C R σ → Prop
  | nil : Answered answer []
  | snoc {l : Stamped C R σ} (h : Answered answer l) (c : C) :
      Answered answer (l ++ [(⟨c, (answer l c).1⟩, (answer l c).2)])

/-- The answers are those of an environment in the world `W`. -/
def World.Serves (W : World C R σ) (s : σ) (answer : Answers C R σ) : Prop :=
  ∀ l c, W.Keeps s l → W.Takes (l.last s) ⟨c, (answer l c).1⟩ (answer l c).2

variable {W : World C R σ} {s : σ} {answer : Answers C R σ} {l : Stamped C R σ}

theorem Answered.keeps (h : Answered answer l) (hserves : W.Serves s answer) : W.Keeps s l := by
  induction h with
  | nil => trivial
  | @snoc l h c ih => exact World.keeps_append.mpr ⟨ih, hserves l c ih, trivial⟩

/-- **Termination.** A productive program comes to an end in an environment that answers every call,
if its runs there are bounded in length. -/
theorem exists_ended {p : Prog C R α} {n : ℕ} (hp : p.Productive)
    (hbound : ∀ l o, Answered answer l → Runs p l.trace o → l.length ≤ n) :
    ∃ l o, Answered answer l ∧ Runs p l.trace o ∧ o ≠ .running := by
  -- As long as the run goes on it gets closer to the bound.
  have hgo (m : ℕ) : ∀ l o, Answered answer l → Runs p l.trace o → n < l.length + m →
      ∃ l o, Answered answer l ∧ Runs p l.trace o ∧ o ≠ .running := by
    induction m with
    | zero =>
      intro l o hl hrun hlt
      have hle := hbound l o hl hrun
      omega
    | succ m ih =>
      intro l o hl hrun hlt
      cases o with
      | running =>
        obtain ⟨c, hc⟩ := hp.progress hrun
        obtain ⟨o, hnext⟩ := hc (answer l c).1
        have htrace : Stamped.trace (l ++ [(⟨c, (answer l c).1⟩, (answer l c).2)]) =
            l.trace ++ [⟨c, (answer l c).1⟩] := List.map_append ..
        refine ih _ o (hl.snoc c) (htrace ▸ hnext) ?_
        rw [List.length_append, List.length_singleton]
        omega
      | panicked => exact ⟨l, _, hl, hrun, by simp⟩
      | returned a => exact ⟨l, _, hl, hrun, by simp⟩
  obtain ⟨o, hrun⟩ := hp.exists_runs_nil
  exact hgo (n + 1) [] o .nil hrun (by simp)

/-- Where it does not panic either, it returns. -/
theorem exists_returned {p : Prog C R α} {n : ℕ} (hp : p.Productive)
    (hbound : ∀ l o, Answered answer l → Runs p l.trace o → l.length ≤ n ∧ o ≠ .panicked) :
    ∃ l a, Answered answer l ∧ Runs p l.trace (.returned a) := by
  obtain ⟨l, o, hl, hrun, ho⟩ := exists_ended hp fun l o hl hrun ↦ (hbound l o hl hrun).1
  cases o with
  | running => exact absurd rfl ho
  | panicked => exact absurd rfl (hbound l _ hl hrun).2
  | returned a => exact ⟨l, a, hl, hrun⟩

end Interaction
