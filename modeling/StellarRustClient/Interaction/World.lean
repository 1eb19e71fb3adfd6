import StellarRustClient.Interaction.Fallible
import StellarRustClient.Interaction.Trace

/-!
# Programs in a world

A `World` is an environment with a state: what it may do on its own between two exchanges, and which
exchanges it takes part in, with the state it is in afterwards. A history is the exchanges of a run,
each with the state of the world in which it took place.

`Triple W G P p Q E` is a judgement about every run of `p` in the world `W` that starts where `P`
holds: each of its exchanges respects the guarantee `G`, and where `p` returns, `Q` holds of a
result and `E` of an error. There is one rule for each way to compose programs, so that a proof
about a function follows its text; nothing is asked of runs that do not return but the guarantee.
-/

namespace Interaction

variable {C : Type} {R : C → Type} {α β ε ρ : Type} {σ : Type*}

/-- An environment with a state. -/
structure World (C : Type) (R : C → Type) (σ : Type*) where
  /-- What may happen between two exchanges. -/
  drift : σ → σ → Prop
  /-- An exchange, and the state after it. -/
  step : σ → Event C R → σ → Prop

/-- The exchanges of a run, each with the state of the world it took place in. -/
abbrev History (C : Type) (R : C → Type) (σ : Type*) := List (σ × Event C R)

namespace World

variable {W : World C R σ} {s s' s'' : σ} {h h' : History C R σ}

/-- The world goes from `s` to `s'` through the exchanges of a history. -/
inductive Path (W : World C R σ) : σ → History C R σ → σ → Prop
  | nil (s : σ) : Path W s [] s
  | cons {s s₁ s₂ s' : σ} {x : Event C R} {h : History C R σ} (hdrift : W.drift s s₁)
      (hstep : W.step s₁ x s₂) (hrest : Path W s₂ h s') : Path W s ((s₁, x) :: h) s'

theorem Path.append (hp : W.Path s h s') (hq : W.Path s' h' s'') : W.Path s (h ++ h') s'' := by
  induction hp with
  | nil s => exact hq
  | cons hdrift hstep _ ih => exact .cons hdrift hstep (ih hq)

theorem path_append : W.Path s (h ++ h') s'' ↔ ∃ s', W.Path s h s' ∧ W.Path s' h' s'' := by
  constructor
  · intro hp
    induction h generalizing s with
    | nil => exact ⟨s, .nil s, hp⟩
    | cons y h ih =>
      cases hp with
      | cons hdrift hstep hrest =>
        obtain ⟨s', hpath, hrest⟩ := ih hrest
        exact ⟨s', .cons hdrift hstep hpath, hrest⟩
  · rintro ⟨s', hp, hq⟩
    exact hp.append hq

/-- A history cut at one of its exchanges. -/
theorem path_append_cons {s₁ : σ} {x : Event C R} : W.Path s (h ++ (s₁, x) :: h') s' ↔
    ∃ s₀ s₂, W.Path s h s₀ ∧ W.drift s₀ s₁ ∧ W.step s₁ x s₂ ∧ W.Path s₂ h' s' := by
  rw [path_append]
  constructor
  · rintro ⟨s₀, hp, hq⟩
    cases hq with
    | @cons _ _ s₂ _ _ _ hdrift hstep hrest => exact ⟨s₀, s₂, hp, hdrift, hstep, hrest⟩
  · rintro ⟨s₀, s₂, hp, hdrift, hstep, hq⟩
    exact ⟨s₀, hp, .cons hdrift hstep hq⟩

/-- Exchanges that leave the state alone. -/
theorem path_of_stationary {t : List (Event C R)} (hdrift : W.drift s s)
    (ht : ∀ x ∈ t, W.step s x s) : W.Path s (t.map (s, ·)) s := by
  induction t with
  | nil => exact .nil s
  | cons x t ih =>
    obtain ⟨hx, ht⟩ := List.forall_mem_cons.mp ht
    exact .cons hdrift hx (ih ht)

/-- Whatever drifts and exchanges preserve holds at the end of a history, and at each exchange. -/
theorem Path.invariant {I : σ → Prop} (hp : W.Path s h s') (hs : I s)
    (hdrift : ∀ s s', I s → W.drift s s' → I s')
    (hstep : ∀ s x s', I s → W.step s x s' → I s') : I s' ∧ ∀ y ∈ h, I y.1 := by
  induction hp with
  | nil s => exact ⟨hs, by simp⟩
  | cons hd hx _ ih =>
    have hs₁ := hdrift _ _ hs hd
    obtain ⟨hend, hall⟩ := ih (hstep _ _ _ hs₁ hx)
    exact ⟨hend, List.forall_mem_cons.mpr ⟨hs₁, hall⟩⟩

/-- Where drifts and exchanges only go up in a preorder, so does a history. -/
theorem Path.rel {r : σ → σ → Prop} (hp : W.Path s h s') (hrefl : ∀ s, r s s)
    (htrans : ∀ s s' s'', r s s' → r s' s'' → r s s'') (hdrift : ∀ s s', W.drift s s' → r s s')
    (hstep : ∀ s x s', W.step s x s' → r s s') : r s s' ∧ ∀ y ∈ h, r s y.1 ∧ r y.1 s' := by
  induction hp with
  | nil s => exact ⟨hrefl s, by simp⟩
  | @cons s s₁ s₂ s' x h hd hx _ ih =>
    obtain ⟨hend, hall⟩ := ih
    have hs₁ : r s s₁ := hdrift s s₁ hd
    have hs₂ : r s₁ s₂ := hstep s₁ x s₂ hx
    have hs : r s s₂ := htrans s s₁ s₂ hs₁ hs₂
    refine ⟨htrans s s₂ s' hs hend, List.forall_mem_cons.mpr ⟨⟨hs₁, ?_⟩, fun y hy ↦ ?_⟩⟩
    · exact htrans s₁ s₂ s' hs₂ hend
    · exact ⟨htrans s s₂ y.1 hs (hall y hy).1, (hall y hy).2⟩

end World

/-- The exchanges of a history. -/
def History.trace (h : History C R σ) : List (Event C R) :=
  h.map Prod.snd

@[simp] theorem History.trace_nil : History.trace ([] : History C R σ) = [] := rfl

@[simp] theorem History.trace_append (h h' : History C R σ) :
    History.trace (h ++ h') = History.trace h ++ History.trace h' :=
  List.map_append ..

/-- Every run of `p` from a state in `P` respects `G`, and returns in `Q` or fails in `E`. -/
def Triple (W : World C R σ) (G : σ → Event C R → Prop) (P : σ → Prop)
    (p : ExceptT ε (Prog C R) α) (Q : α → σ → Prop) (E : ε → σ → Prop) : Prop :=
  ∀ s h s' o, P s → W.Path s h s' → Runs p.run (History.trace h) o →
    (∀ y ∈ h, G y.1 y.2) ∧ (∀ a, o = .returned (.ok a) → Q a s') ∧
      ∀ e, o = .returned (.error e) → E e s'

namespace Triple

open Prog

variable {W : World C R σ} {G : σ → Event C R → Prop} {P P' : σ → Prop}
  {p : ExceptT ε (Prog C R) α} {Q Q' : α → σ → Prop} {E E' : ε → σ → Prop}

/-- Consequence. -/
theorem conseq (h : Triple W G P' p Q' E') (hP : ∀ s, P s → P' s) (hQ : ∀ a s, Q' a s → Q a s)
    (hE : ∀ e s, E' e s → E e s) : Triple W G P p Q E := by
  intro s l s' o hs hpath hrun
  obtain ⟨hG, hok, herror⟩ := h s l s' o (hP s hs) hpath hrun
  exact ⟨hG, fun a ho ↦ hQ a s' (hok a ho), fun e ho ↦ hE e s' (herror e ho)⟩

theorem pre (h : Triple W G P' p Q E) (hP : ∀ s, P s → P' s) : Triple W G P p Q E :=
  h.conseq hP (fun _ _ ↦ id) fun _ _ ↦ id

/-- What is known whatever the state. -/
theorem of_and {φ : Prop} (h : φ → Triple W G P p Q E) : Triple W G (fun s ↦ φ ∧ P s) p Q E :=
  fun s l s' o hs hpath hrun ↦ h hs.1 s l s' o hs.2 hpath hrun

theorem lift {x : Except ε α} (hok : ∀ a s, x = .ok a → P s → Q a s)
    (herror : ∀ e s, x = .error e → P s → E e s) : Triple W G P (Prog.lift x) Q E := by
  intro s h s' o hs hpath hrun
  obtain ⟨ht, rfl⟩ := runs_lift.mp hrun
  obtain rfl := List.map_eq_nil_iff.mp ht
  cases hpath
  exact ⟨by simp, fun a ho ↦ hok a s (Outcome.returned.inj ho) hs,
    fun e ho ↦ herror e s (Outcome.returned.inj ho) hs⟩

theorem pure {a : α} (hQ : ∀ s, P s → Q a s) :
    Triple W G P (Pure.pure a : ExceptT ε (Prog C R) α) Q E :=
  lift (x := .ok a) (by rintro _ s ⟨⟩; exact hQ s) (by rintro _ _ ⟨⟩)

theorem throw {e : ε} (hE : ∀ s, P s → E e s) :
    Triple W G P (MonadExcept.throw e : ExceptT ε (Prog C R) α) Q E :=
  lift (x := .error e) (by rintro _ _ ⟨⟩) (by rintro _ s ⟨⟩; exact hE s)

theorem crash {msg : String} : Triple W G P (Prog.crash msg : ExceptT ε (Prog C R) α) Q E := by
  intro s h s' o hs hpath hrun
  obtain ⟨ht, rfl⟩ := runs_crash.mp hrun
  obtain rfl := List.map_eq_nil_iff.mp ht
  exact ⟨by simp, by simp, by simp⟩

/-- A single exchange of a history. -/
private theorem of_path_singleton {s s' : σ} {h : History C R σ} {x : Event C R}
    (hpath : W.Path s h s') (hx : History.trace h = [x]) :
    ∃ s₁, h = [(s₁, x)] ∧ W.drift s s₁ ∧ W.step s₁ x s' := by
  obtain ⟨⟨s₁, y⟩, rfl, rfl⟩ := List.map_eq_singleton_iff.mp hx
  cases hpath with
  | cons hdrift hstep hrest =>
    cases hrest
    exact ⟨s₁, rfl, hdrift, hstep⟩

/-- A call. -/
theorem ask {c : C} {f : R c → Except ε α}
    (hG : ∀ s s₁ r s₂, P s → W.drift s s₁ → W.step s₁ ⟨c, r⟩ s₂ → G s₁ ⟨c, r⟩)
    (hok : ∀ s s₁ r s₂ a, P s → W.drift s s₁ → W.step s₁ ⟨c, r⟩ s₂ → f r = .ok a → Q a s₂)
    (herror : ∀ s s₁ r s₂ e, P s → W.drift s s₁ → W.step s₁ ⟨c, r⟩ s₂ → f r = .error e → E e s₂) :
    Triple W G P (Prog.ask c f) Q E := by
  intro s h s' o hs hpath hrun
  obtain ⟨ht, rfl⟩ | ⟨r, ht, rfl⟩ := runs_ask.mp hrun
  · obtain rfl := List.map_eq_nil_iff.mp ht
    exact ⟨by simp, by simp, by simp⟩
  · obtain ⟨s₁, rfl, hdrift, hstep⟩ := of_path_singleton hpath ht
    refine ⟨?_, fun a ho ↦ ?_, fun e ho ↦ ?_⟩
    · rw [List.forall_mem_singleton]
      exact hG s s₁ r s' hs hdrift hstep
    · exact hok s s₁ r s' a hs hdrift hstep (Outcome.returned.inj ho)
    · exact herror s s₁ r s' e hs hdrift hstep (Outcome.returned.inj ho)

/-- Sequencing. -/
theorem bind {M : α → σ → Prop} {k : α → ExceptT ε (Prog C R) β} {Q : β → σ → Prop}
    (hp : Triple W G P p M E) (hk : ∀ a, Triple W G (M a) (k a) Q E) :
    Triple W G P (p >>= k) Q E := by
  intro s h s' o hs hpath hrun
  obtain ⟨h₁, rfl⟩ | ⟨h₁, rfl⟩ | ⟨e, h₁, rfl⟩ | ⟨t₁, t₂, a, ht, h₁, h₂⟩ := runs_except_bind.mp hrun
  · exact ⟨(hp s h s' _ hs hpath h₁).1, by simp, by simp⟩
  · exact ⟨(hp s h s' _ hs hpath h₁).1, by simp, by simp⟩
  · obtain ⟨hG, -, herror⟩ := hp s h s' _ hs hpath h₁
    refine ⟨hG, by simp, fun e' ho ↦ ?_⟩
    cases ho
    exact herror e rfl
  · obtain ⟨l₁, l₂, rfl, rfl, rfl⟩ := List.map_eq_append_iff.mp ht
    obtain ⟨s₁, hpath₁, hpath₂⟩ := World.path_append.mp hpath
    obtain ⟨hG₁, hok, -⟩ := hp s l₁ s₁ _ hs hpath₁ h₁
    obtain ⟨hG₂, hpost⟩ := hk a s₁ l₂ s' o (hok a rfl) hpath₂ h₂
    exact ⟨List.forall_mem_append.mpr ⟨hG₁, hG₂⟩, hpost⟩

theorem map {f : α → β} {Q : β → σ → Prop} (hp : Triple W G P p (fun a ↦ Q (f a)) E) :
    Triple W G P (f <$> p) Q E := by
  rw [← bind_pure_comp]
  exact hp.bind fun a ↦ pure fun _ ↦ id

/-- The end of a scope. -/
theorem ensuring {c : C} {E'' : ε → σ → Prop} (hp : Triple W G P p Q' E')
    (hok : ∀ a, Triple W G (Q' a) (Prog.ask c .ok) (fun _ ↦ Q a) E'')
    (herror : ∀ e, Triple W G (E' e) (Prog.ask c .ok) (fun _ ↦ E e) E'') :
    Triple W G P (Prog.ensuring p c) Q E := by
  intro s h s' o hs hpath hrun
  obtain ⟨h₁, rfl⟩ | ⟨h₁, rfl⟩ | ⟨x, h₁, rfl⟩ | ⟨t, x, r, ht, h₁, rfl⟩ := runs_ensuring.mp hrun
  · exact ⟨(hp s h s' _ hs hpath h₁).1, by simp, by simp⟩
  · exact ⟨(hp s h s' _ hs hpath h₁).1, by simp, by simp⟩
  · exact ⟨(hp s h s' _ hs hpath h₁).1, by simp, by simp⟩
  · obtain ⟨l₁, l₂, rfl, rfl, hl₂⟩ := List.map_eq_append_iff.mp ht
    obtain ⟨s₁, hpath₁, hpath₂⟩ := World.path_append.mp hpath
    have hend : Runs (Prog.ask c .ok : ExceptT ε (Prog C R) (R c)).run (History.trace l₂)
        (.returned (.ok r)) := runs_ask.mpr (.inr ⟨r, hl₂, rfl⟩)
    obtain ⟨hG₁, hQ, hE⟩ := hp s l₁ s₁ _ hs hpath₁ h₁
    rcases x with e | a
    · obtain ⟨hG₂, hpost, -⟩ := herror e s₁ l₂ s' _ (hE e rfl) hpath₂ hend
      refine ⟨List.forall_mem_append.mpr ⟨hG₁, hG₂⟩, by simp, fun e' ho ↦ ?_⟩
      cases ho
      exact hpost r rfl
    · obtain ⟨hG₂, hpost, -⟩ := hok a s₁ l₂ s' _ (hQ a rfl) hpath₂ hend
      refine ⟨List.forall_mem_append.mpr ⟨hG₁, hG₂⟩, fun a' ho ↦ ?_, by simp⟩
      cases ho
      exact hpost r rfl

/-- Loops, with an invariant of the state of the loop. -/
theorem iterate {body : ρ → ExceptT ε (Prog C R) (ρ ⊕ β)} {I : ρ → σ → Prop} {Q : β → σ → Prop}
    (hbody : ∀ x, Triple W G (I x) (body x) (fun y s ↦ y.elim (I · s) (Q · s)) E) (x : ρ) :
    Triple W G (I x) (Prog.iterate body x) Q E := by
  -- The rounds that go on keep the invariant, by induction on them; the last one leaves with it.
  have hrounds {x x' : ρ} {t : List (Event C R)} (hr : FallibleRounds body x t x') :
      ∀ s h s', I x s → W.Path s h s' → t = History.trace h → (∀ y ∈ h, G y.1 y.2) ∧ I x' s' := by
    induction hr with
    | nil x =>
      intro s h s' hs hpath ht
      obtain rfl := List.map_eq_nil_iff.mp ht.symm
      cases hpath
      exact ⟨by simp, hs⟩
    | cons hround _ ih =>
      intro s h s' hs hpath ht
      obtain ⟨l₁, l₂, rfl, rfl, rfl⟩ := List.map_eq_append_iff.mp ht.symm
      obtain ⟨s₁, hpath₁, hpath₂⟩ := World.path_append.mp hpath
      obtain ⟨hG₁, hok, -⟩ := hbody _ s l₁ s₁ _ hs hpath₁ hround
      obtain ⟨hG₂, hend⟩ := ih s₁ l₂ s' (hok _ rfl) hpath₂ rfl
      exact ⟨List.forall_mem_append.mpr ⟨hG₁, hG₂⟩, hend⟩
  intro s h s' o hs hpath hrun
  obtain ⟨t₁, t₂, x', ht, hr, hlast⟩ := runs_iterate.mp hrun
  obtain ⟨l₁, l₂, rfl, rfl, rfl⟩ := List.map_eq_append_iff.mp ht
  obtain ⟨s₁, hpath₁, hpath₂⟩ := World.path_append.mp hpath
  obtain ⟨hG₁, hI⟩ := hrounds hr s l₁ s₁ hs hpath₁ rfl
  obtain ⟨h₂, rfl⟩ | ⟨h₂, rfl⟩ | ⟨e, h₂, rfl⟩ | ⟨b, h₂, rfl⟩ := hlast
  · obtain ⟨hG₂, -⟩ := hbody x' s₁ l₂ s' _ hI hpath₂ h₂
    exact ⟨List.forall_mem_append.mpr ⟨hG₁, hG₂⟩, by simp, by simp⟩
  · obtain ⟨hG₂, -⟩ := hbody x' s₁ l₂ s' _ hI hpath₂ h₂
    exact ⟨List.forall_mem_append.mpr ⟨hG₁, hG₂⟩, by simp, by simp⟩
  · obtain ⟨hG₂, -, herror⟩ := hbody x' s₁ l₂ s' _ hI hpath₂ h₂
    refine ⟨List.forall_mem_append.mpr ⟨hG₁, hG₂⟩, by simp, fun e' ho ↦ ?_⟩
    cases ho
    exact herror e rfl
  · obtain ⟨hG₂, hok, -⟩ := hbody x' s₁ l₂ s' _ hI hpath₂ h₂
    refine ⟨List.forall_mem_append.mpr ⟨hG₁, hG₂⟩, fun b' ho ↦ ?_, by simp⟩
    cases ho
    exact hok (.inr b) rfl

end Triple

/-! ## The world that only records -/

/-- An environment that answers anything, and whose state is what has been exchanged so far. -/
def World.record : World C R (List (Event C R)) where
  drift := Eq
  step t x t' := t' = t ++ [x]

/-- Every trace is the trace of a history of the recording world. -/
theorem World.exists_record_path (t u : List (Event C R)) :
    ∃ h : History C R (List (Event C R)), World.record.Path u h (u ++ t) ∧ History.trace h = t ∧
      ∀ v x w, t = v ++ x :: w → (u ++ v, x) ∈ h := by
  induction t generalizing u with
  | nil =>
    refine ⟨[], ?_, rfl, by simp⟩
    rw [List.append_nil]
    exact .nil u
  | cons y t ih =>
    obtain ⟨h, hpath, rfl, hmem⟩ := ih (u ++ [y])
    rw [List.append_assoc, List.singleton_append] at hpath
    refine ⟨(u, y) :: h, .cons rfl rfl hpath, rfl, fun v x w ht ↦ ?_⟩
    obtain ⟨rfl, rfl, -⟩ | ⟨v, rfl, ht₁⟩ := cons_eq_append_cons_iff.mp ht
    · rw [List.append_nil]
      exact List.mem_cons_self
    · refine List.mem_cons_of_mem _ ?_
      simpa using hmem v x w ht₁

/-- A call in the recording world. -/
theorem Triple.ask_record {G : List (Event C R) → Event C R → Prop} {P : List (Event C R) → Prop}
    {Q : α → List (Event C R) → Prop} {E : ε → List (Event C R) → Prop} {c : C}
    {f : R c → Except ε α} (hG : ∀ u r, P u → G u ⟨c, r⟩)
    (hok : ∀ u r a, P u → f r = .ok a → Q a (u ++ [⟨c, r⟩]))
    (herror : ∀ u r e, P u → f r = .error e → E e (u ++ [⟨c, r⟩])) :
    Triple World.record G P (Prog.ask c f) Q E :=
  .ask (by rintro u _ r _ hP rfl rfl; exact hG u r hP)
    (by rintro u _ r _ a hP rfl rfl hr; exact hok u r a hP hr)
    (by rintro u _ r _ e hP rfl rfl hr; exact herror u r e hP hr)

/-- In the recording world a history is added to the state. -/
theorem World.eq_of_record_path {u u' : List (Event C R)}
    {h : History C R (List (Event C R))} (hpath : World.record.Path u h u') :
    u' = u ++ History.trace h := by
  induction hpath with
  | nil u => exact (List.append_nil u).symm
  | cons hdrift hstep _ ih =>
    obtain rfl : _ = _ := hdrift
    rw [ih, hstep, List.append_assoc]
    rfl

/-- The frame: what more exchanges cannot undo stays true of what has been recorded. -/
theorem Triple.frame_record {G : List (Event C R) → Event C R → Prop}
    {P I : List (Event C R) → Prop} {p : ExceptT ε (Prog C R) α}
    {Q : α → List (Event C R) → Prop} {E : ε → List (Event C R) → Prop}
    (hp : Triple World.record G P p Q E) (hI : ∀ u v, I u → I (u ++ v)) :
    Triple World.record G (fun u ↦ P u ∧ I u) p (fun a u ↦ Q a u ∧ I u) E := by
  rintro u h u' o ⟨hP, hu⟩ hpath hrun
  obtain ⟨hG, hok, herror⟩ := hp u h u' o hP hpath hrun
  exact ⟨hG, fun a ho ↦ ⟨hok a ho, World.eq_of_record_path hpath ▸ hI u _ hu⟩, herror⟩

/-- What a triple in the recording world says of a run: each exchange respects the guarantee, given
what came before it, and the result is as it says. -/
theorem Triple.of_record {G : List (Event C R) → Event C R → Prop} {P : List (Event C R) → Prop}
    {p : ExceptT ε (Prog C R) α} {Q : α → List (Event C R) → Prop}
    {E : ε → List (Event C R) → Prop} (hp : Triple World.record G P p Q E) (hP : P [])
    {t : List (Event C R)} {o : Outcome (Except ε α)} (hrun : Runs p.run t o) :
    (∀ u x v, t = u ++ x :: v → G u x) ∧ (∀ a, o = .returned (.ok a) → Q a t) ∧
      ∀ e, o = .returned (.error e) → E e t := by
  obtain ⟨h, hpath, rfl, hmem⟩ := World.exists_record_path t []
  obtain ⟨hG, hpost⟩ := hp [] h _ o hP hpath hrun
  exact ⟨fun u x v ht ↦ hG _ (hmem u x v ht), hpost⟩

end Interaction
