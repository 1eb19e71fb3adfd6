import StellarRustClient.Interaction.World

/-!
# Linking a program with a component

A program is written against an interface whose calls are all up to its environment. A `Component`
implements part of the interface: in a state of its own it serves some calls and passes the others
on. `Prog.link` runs a program with a component, and what is left are the calls that are passed on.

`Links` relates what a program exchanges with what leaves it once it is linked: `Runs.unlink` finds
the run of the program behind one that is seen from outside, and `Runs.link` leads back.
`World.attach` puts a component between a program and a world, so that a judgement in the world with
the component, `Triple.link`, is one about the linked program.
-/

namespace Interaction

variable {C : Type} {R : C → Type} {α β ρ ε κ : Type} {σ : Type*}

/-- The calls that are served in a state, each with the reply and the state after it. -/
abbrev Component (C : Type) (R : C → Type) (κ : Type) :=
  κ → (c : C) → Option (R c × κ)

/-! ## Linked programs -/

/-- The result of a round, with the state of the component. -/
def linkedRound : (ρ ⊕ β) × κ → (ρ × κ) ⊕ (β × κ)
  | (.inl x, k) => .inl (x, k)
  | (.inr b, k) => .inr (b, k)

/-- A program with a component in the state `k`. -/
def Prog.link {α : Type} (m : Component C R κ) : Prog C R α → κ → Prog C R (α × κ)
  | .ret a, k => .ret (a, k)
  | .call c f, k =>
    match m k c with
    | some (r, k') => (f r).link m k'
    | none => .call c fun r ↦ (f r).link m k
  | .loop body x f, k =>
    .loop (fun y ↦ (body y.1).link m y.2 >>= fun z ↦ .ret (linkedRound z)) (x, k)
      fun z ↦ (f z.1).link m z.2
  | .abort msg, _ => .abort msg

/-- From the state `k` to the state `k'`, a program that exchanges `t` exchanges `u` once it is
linked. -/
inductive Links (m : Component C R κ) :
    κ → List (Event C R) → List (Event C R) → κ → Prop
  | nil (k : κ) : Links m k [] [] k
  | served {k k₁ k' : κ} {c : C} {r : R c} {t u : List (Event C R)} (hc : m k c = some (r, k₁))
      (h : Links m k₁ t u k') : Links m k (⟨c, r⟩ :: t) u k'
  | passed {k k' : κ} {c : C} {r : R c} {t u : List (Event C R)} (hc : m k c = none)
      (h : Links m k t u k') : Links m k (⟨c, r⟩ :: t) (⟨c, r⟩ :: u) k'

variable {m : Component C R κ} {k k' k'' : κ} {t t' u u' : List (Event C R)}

theorem link_of_served {c : C} {r : R c} {f : R c → Prog C R α} (hc : m k c = some (r, k')) :
    (Prog.call c f).link m k = (f r).link m k' := by
  rw [Prog.link, hc]

theorem link_of_passed {c : C} {f : R c → Prog C R α} (hc : m k c = none) :
    (Prog.call c f).link m k = .call c fun r ↦ (f r).link m k := by
  rw [Prog.link, hc]

theorem Links.append (h : Links m k t u k') (h' : Links m k' t' u' k'') :
    Links m k (t ++ t') (u ++ u') k'' := by
  induction h with
  | nil k => exact h'
  | served hc _ ih => exact .served hc (ih h')
  | passed hc _ ih => exact .passed hc (ih h')

theorem Links.exists_of_append (h : Links m k (t ++ t') u k'') :
    ∃ u₁ u₂ k', u = u₁ ++ u₂ ∧ Links m k t u₁ k' ∧ Links m k' t' u₂ k'' := by
  induction t generalizing k u with
  | nil => exact ⟨[], u, k, rfl, .nil k, h⟩
  | cons x t ih =>
    cases h with
    | served hc h =>
      obtain ⟨u₁, u₂, k', rfl, h₁, h₂⟩ := ih h
      exact ⟨u₁, u₂, k', rfl, .served hc h₁, h₂⟩
    | passed hc h =>
      obtain ⟨u₁, u₂, k', rfl, h₁, h₂⟩ := ih h
      exact ⟨_ :: u₁, u₂, k', rfl, .passed hc h₁, h₂⟩

/-! ## Runs of linked programs -/

/-- A run of a linked program is a run of the program, as it is seen from outside. -/
def LinkedRun (m : Component C R κ) (p : Prog C R α) (k : κ) (u : List (Event C R))
    (o : Outcome (α × κ)) : Prop :=
  ∃ t k' o', Runs p t o' ∧ Links m k t u k' ∧ o = o'.map fun a ↦ (a, k')

/-- The round of a linked loop. -/
private abbrev linkedBody (m : Component C R κ) (body : ρ → Prog C R (ρ ⊕ β)) (y : ρ × κ) :
    Prog C R ((ρ × κ) ⊕ (β × κ)) :=
  (body y.1).link m y.2 >>= fun z ↦ .ret (linkedRound z)

section Loop

variable {body : ρ → Prog C R (ρ ⊕ β)}
  (hbody : ∀ x k u o, Runs ((body x).link m k) u o → LinkedRun m (body x) k u o)
include hbody

private theorem exists_round {y : ρ × κ} {o : Outcome ((ρ × κ) ⊕ (β × κ))}
    (h : Runs (linkedBody m body y) u o) : ∃ t k' o', Runs (body y.1) t o' ∧
      Links m y.2 t u k' ∧ o = o'.map fun z ↦ linkedRound (z, k') := by
  obtain ⟨o₁, hrun, rfl⟩ := runs_map.mp h
  obtain ⟨t, k', o', hrun', hlinks, rfl⟩ := hbody y.1 y.2 u o₁ hrun
  refine ⟨t, k', o', hrun', hlinks, ?_⟩
  cases o' <;> rfl

private theorem exists_rounds {y y' : ρ × κ} (h : Rounds (linkedBody m body) y u y') :
    ∃ t, Rounds body y.1 t y'.1 ∧ Links m y.2 t u y'.2 := by
  induction h with
  | nil y => exact ⟨[], .nil y.1, .nil y.2⟩
  | cons hround _ ih =>
    obtain ⟨t₁, k₁, o₁, hrun, hlinks, ho⟩ := exists_round hbody hround
    obtain ⟨t₂, hrounds, hlinks'⟩ := ih
    rcases o₁ with _ | _ | x | b
    · cases ho
    · cases ho
    · cases ho
      exact ⟨t₁ ++ t₂, .cons hrun hrounds, hlinks.append hlinks'⟩
    · cases ho

end Loop

/-- Every run of a linked program is one of the program. -/
theorem Runs.unlink {p : Prog C R α} {o : Outcome (α × κ)} (h : Runs (p.link m k) u o) :
    LinkedRun m p k u o := by
  -- The component is asked at the calls, and a loop is linked round by round.
  induction p generalizing k u with
  | ret a =>
    obtain ⟨rfl, rfl⟩ := runs_ret.mp h
    exact ⟨[], k, _, .ret a, .nil k, rfl⟩
  | abort msg =>
    obtain ⟨rfl, rfl⟩ := runs_abort.mp h
    exact ⟨[], k, _, .abort msg, .nil k, rfl⟩
  | call c f ih =>
    rcases hc : m k c with _ | ⟨r, k₁⟩
    · rw [link_of_passed hc] at h
      obtain ⟨rfl, rfl⟩ | ⟨r, u, rfl, hrun⟩ := runs_call.mp h
      · exact ⟨[], k, _, .wait c f, .nil k, rfl⟩
      · obtain ⟨t, k', o', hrun', hlinks, ho⟩ := ih r hrun
        exact ⟨_, k', o', .call r hrun', .passed hc hlinks, ho⟩
    · rw [link_of_served hc] at h
      obtain ⟨t, k', o', hrun', hlinks, ho⟩ := ih r h
      exact ⟨_, k', o', .call r hrun', .served hc hlinks, ho⟩
  | loop body x f ihbody ih =>
    have hbody (x k u o) (h : Runs ((body x).link m k) u o) := ihbody x h
    obtain ⟨u₁, u₂, ⟨x', k₁⟩, rfl, hrounds, hlast⟩ := runs_loop.mp h
    obtain ⟨t₁, hrounds', hlinks₁⟩ := exists_rounds hbody hrounds
    obtain ⟨hrun, rfl⟩ | ⟨hrun, rfl⟩ | ⟨u₃, u₄, ⟨b, k₂⟩, rfl, hrun, hrest⟩ := hlast
    · obtain ⟨t₂, k', o', hrun', hlinks₂, ho⟩ := exists_round hbody hrun
      obtain rfl : o' = .running := by rcases o' with _ | _ | _ <;> cases ho; rfl
      exact ⟨t₁ ++ t₂, k', .running, runs_loop.mpr ⟨t₁, t₂, x', rfl, hrounds', .inl ⟨hrun', rfl⟩⟩,
        hlinks₁.append hlinks₂, rfl⟩
    · obtain ⟨t₂, k', o', hrun', hlinks₂, ho⟩ := exists_round hbody hrun
      obtain rfl : o' = .panicked := by rcases o' with _ | _ | _ <;> cases ho; rfl
      exact ⟨t₁ ++ t₂, k', .panicked,
        runs_loop.mpr ⟨t₁, t₂, x', rfl, hrounds', .inr (.inl ⟨hrun', rfl⟩)⟩,
        hlinks₁.append hlinks₂, rfl⟩
    · obtain ⟨t₂, k', o', hrun', hlinks₂, ho⟩ := exists_round hbody hrun
      obtain ⟨rfl, rfl⟩ : o' = .returned (.inr b) ∧ k' = k₂ := by
        rcases o' with _ | _ | _ | _ <;> cases ho
        exact ⟨rfl, rfl⟩
      obtain ⟨t₃, k'', o'', hrest', hlinks₃, ho''⟩ := ih b hrest
      refine ⟨t₁ ++ (t₂ ++ t₃), k'', o'', runs_loop.mpr ⟨t₁, _, x', rfl, hrounds', ?_⟩,
        hlinks₁.append (hlinks₂.append hlinks₃), ho''⟩
      exact .inr (.inr ⟨t₂, t₃, b, rfl, hrun', hrest'⟩)

/-- A run of a program that has come to an end is one of the linked program. -/
theorem Runs.link {p : Prog C R α} {o : Outcome α} (h : Runs p t o) (ho : o ≠ .running)
    (hlinks : Links m k t u k') : Runs (p.link m k) u (o.map fun a ↦ (a, k')) := by
  induction h generalizing k u k' with
  | ret a =>
    cases hlinks
    exact .ret (a, _)
  | abort msg =>
    cases hlinks
    exact .abort msg
  | wait c f => exact absurd rfl ho
  | call r _ ih =>
    cases hlinks with
    | served hc hlinks =>
      rw [link_of_served hc]
      exact ih ho hlinks
    | passed hc hlinks =>
      rw [link_of_passed hc]
      exact .call r (ih ho hlinks)
  | loopWait _ _ => exact absurd rfl ho
  | loopAbort _ ih => exact .loopAbort (Runs.bind_panicked _ (ih (by simp) hlinks))
  | loopNext _ _ ihround ih =>
    obtain ⟨u₁, u₂, k₁, rfl, hlinks₁, hlinks₂⟩ := hlinks.exists_of_append
    have hround := (ihround (by simp) hlinks₁).bind (f := fun z ↦ .ret (linkedRound z)) (.ret _)
    rw [List.append_nil] at hround
    exact .loopNext hround (ih ho hlinks₂)
  | loopExit _ _ ihround ih =>
    obtain ⟨u₁, u₂, k₁, rfl, hlinks₁, hlinks₂⟩ := hlinks.exists_of_append
    have hround := (ihround (by simp) hlinks₁).bind (f := fun z ↦ .ret (linkedRound z)) (.ret _)
    rw [List.append_nil] at hround
    exact .loopExit hround (ih ho hlinks₂)

/-! ## A component in a world -/

/-- A world with a component in front of it. -/
def World.attach (W : World C R σ) (m : Component C R κ) : World C R (σ × κ) where
  drift x y := W.drift x.1 y.1 ∧ x.2 = y.2
  step x e y := m x.2 e.1 = some (e.2, y.2) ∧ x.1 = y.1 ∨
    m x.2 e.1 = none ∧ W.step x.1 e y.1 ∧ x.2 = y.2

section World

variable {W : World C R σ} {s s' : σ}

/-- What leaves a linked program is what it exchanges with the world behind the component. -/
theorem World.Path.attach (hrefl : ∀ s, W.drift s s) {h : History C R σ} (hpath : W.Path s h s')
    (hlinks : Links m k t (History.trace h) k') :
    ∃ l : History C R (σ × κ), (W.attach m).Path (s, k) l (s', k') ∧ History.trace l = t ∧
      ∀ y ∈ h, ∃ k₁, m k₁ y.2.1 = none ∧ ((y.1, k₁), y.2) ∈ l := by
  generalize hu : History.trace h = u at hlinks
  induction hlinks generalizing s h with
  | nil k =>
    obtain rfl := List.map_eq_nil_iff.mp hu
    cases hpath
    exact ⟨[], .nil _, rfl, by simp⟩
  | @served k k₁ k' c r t u hc _ ih =>
    obtain ⟨l, hl, rfl, hmem⟩ := ih hpath hu
    have hdrift : (W.attach m).drift (s, k) (s, k) := ⟨hrefl s, rfl⟩
    have hstep : (W.attach m).step (s, k) ⟨c, r⟩ (s, k₁) := .inl ⟨hc, rfl⟩
    refine ⟨((s, k), ⟨c, r⟩) :: l, .cons hdrift hstep hl, rfl, fun y hy ↦ ?_⟩
    obtain ⟨k₂, hnone, hmem⟩ := hmem y hy
    exact ⟨k₂, hnone, List.mem_cons_of_mem _ hmem⟩
  | @passed k k' c r t u hc _ ih =>
    obtain ⟨⟨s₁, _⟩, h, rfl, rfl, rfl⟩ := List.map_eq_cons_iff.mp hu
    cases hpath with
    | @cons _ _ s₂ _ _ _ hdrift hstep hrest =>
      obtain ⟨l, hl, rfl, hmem⟩ := ih hrest rfl
      have hdrift' : (W.attach m).drift (s, k) (s₁, k) := ⟨hdrift, rfl⟩
      have hstep' : (W.attach m).step (s₁, k) ⟨c, r⟩ (s₂, k) := .inr ⟨hc, hstep, rfl⟩
      refine ⟨((s₁, k), ⟨c, r⟩) :: l, .cons hdrift' hstep' hl, rfl, ?_⟩
      refine List.forall_mem_cons.mpr ⟨⟨k, hc, List.mem_cons_self⟩, fun y hy ↦ ?_⟩
      obtain ⟨k₂, hnone, hmem⟩ := hmem y hy
      exact ⟨k₂, hnone, List.mem_cons_of_mem _ hmem⟩

/-- A component that the world takes no part in can be left out, as long as what it serves is what
the world would answer. -/
theorem World.Path.detach {I : κ → Prop} {x y : σ × κ} {l : History C R (σ × κ)}
    (hserve : ∀ k c r k', I k → m k c = some (r, k') → I k' ∧ ∀ s, W.step s ⟨c, r⟩ s)
    (hpath : (W.attach m).Path x l y) (hI : I x.2) :
    W.Path x.1 (l.map fun z ↦ (z.1.1, z.2)) y.1 ∧ I y.2 := by
  induction hpath with
  | nil x => exact ⟨.nil x.1, hI⟩
  | @cons x x₁ x₂ y e l hdrift hstep _ ih =>
    obtain ⟨hdrift, hk⟩ := hdrift
    rw [hk] at hI
    obtain ⟨hserved, hs⟩ | ⟨-, hstep, hk'⟩ := hstep
    · obtain ⟨hI', hstep⟩ := hserve _ _ _ _ hI hserved
      obtain ⟨hrest, hend⟩ := ih hI'
      exact ⟨.cons hdrift (hs ▸ hstep x₁.1) hrest, hend⟩
    · obtain ⟨hrest, hend⟩ := ih (hk' ▸ hI)
      exact ⟨.cons hdrift hstep hrest, hend⟩

end World

namespace Triple

variable {W : World C R σ} {p : ExceptT ε (Prog C R) α}

/-- A judgement about a program in a world is one in the world with a component, as long as what the
component serves is what the world would answer. -/
theorem attach {G : σ → Event C R → Prop} {P : σ → Prop} {Q : α → σ → Prop} {E : ε → σ → Prop}
    {I : κ → Prop} (hp : Triple W G P p Q E)
    (hserve : ∀ k c r k', I k → m k c = some (r, k') → I k' ∧ ∀ s, W.step s ⟨c, r⟩ s) :
    Triple (W.attach m) (fun x e ↦ G x.1 e) (fun x ↦ P x.1 ∧ I x.2) p
      (fun a x ↦ Q a x.1 ∧ I x.2) fun e x ↦ E e x.1 ∧ I x.2 := by
  rintro x l y o ⟨hP, hI⟩ hpath hrun
  obtain ⟨hpath', hI'⟩ := hpath.detach hserve hI
  have htrace : History.trace (l.map fun z ↦ (z.1.1, z.2)) = History.trace l := by
    simp [History.trace]
  obtain ⟨hG, hok, herror⟩ := hp x.1 _ y.1 o hP hpath' (htrace ▸ hrun)
  refine ⟨fun z hz ↦ hG _ (List.mem_map_of_mem hz), fun a ho ↦ ⟨hok a ho, hI'⟩,
    fun e ho ↦ ⟨herror e ho, hI'⟩⟩

/-- A call that the component serves. -/
theorem ask_served {G : σ × κ → Event C R → Prop} {P : σ × κ → Prop} {Q : α → σ × κ → Prop}
    {E : ε → σ × κ → Prop} {c : C} {f : R c → Except ε α}
    (hserved : ∀ x s₁, P x → W.drift x.1 s₁ → ∃ r k', m x.2 c = some (r, k') ∧
      G (s₁, x.2) ⟨c, r⟩ ∧ (∀ a, f r = .ok a → Q a (s₁, k')) ∧
        ∀ e, f r = .error e → E e (s₁, k')) :
    Triple (W.attach m) G P (Prog.ask c f) Q E := by
  have hstep {x x₁ y : σ × κ} {r : R c} (hP : P x) (hdrift : (W.attach m).drift x x₁)
      (hstep : (W.attach m).step x₁ ⟨c, r⟩ y) : G x₁ ⟨c, r⟩ ∧ (∀ a, f r = .ok a → Q a y) ∧
        ∀ e, f r = .error e → E e y := by
    obtain ⟨s₁, k₁⟩ := x₁
    obtain ⟨hdrift, rfl⟩ := hdrift
    obtain ⟨r', k', hc, hpost⟩ := hserved x s₁ hP hdrift
    obtain ⟨hc', hs⟩ | ⟨hnone, -⟩ := hstep
    · obtain ⟨rfl, hk⟩ := Prod.mk.inj (Option.some.inj (hc.symm.trans hc'))
      obtain rfl : y = (s₁, k') := Prod.ext hs.symm hk.symm
      exact hpost
    · cases hc.symm.trans hnone
  exact .ask (fun x x₁ r y hP hd hs ↦ (hstep hP hd hs).1)
    (fun x x₁ r y a hP hd hs hr ↦ (hstep hP hd hs).2.1 a hr)
    fun x x₁ r y e hP hd hs hr ↦ (hstep hP hd hs).2.2 e hr

/-- A call that the component passes on. -/
theorem ask_passed {G : σ × κ → Event C R → Prop} {P : σ × κ → Prop} {Q : α → σ × κ → Prop}
    {E : ε → σ × κ → Prop} {c : C} {f : R c → Except ε α} (hpassed : ∀ k, m k c = none)
    (hG : ∀ s k s₁ r s₂, P (s, k) → W.drift s s₁ → W.step s₁ ⟨c, r⟩ s₂ → G (s₁, k) ⟨c, r⟩)
    (hok : ∀ s k s₁ r s₂ a, P (s, k) → W.drift s s₁ → W.step s₁ ⟨c, r⟩ s₂ → f r = .ok a →
      Q a (s₂, k))
    (herror : ∀ s k s₁ r s₂ e, P (s, k) → W.drift s s₁ → W.step s₁ ⟨c, r⟩ s₂ → f r = .error e →
      E e (s₂, k)) :
    Triple (W.attach m) G P (Prog.ask c f) Q E := by
  have hstep {x₁ y : σ × κ} {r : R c} (h : (W.attach m).step x₁ ⟨c, r⟩ y) :
      W.step x₁.1 ⟨c, r⟩ y.1 ∧ x₁.2 = y.2 := by
    obtain ⟨hc, -⟩ | ⟨-, h⟩ := h
    · cases (hpassed x₁.2).symm.trans hc
    · exact h
  refine .ask ?_ ?_ ?_
  · rintro ⟨s, k⟩ ⟨s₁, k₁⟩ r y hP ⟨hdrift, rfl⟩ h
    exact hG s k s₁ r y.1 hP hdrift (hstep h).1
  · rintro ⟨s, k⟩ ⟨s₁, k₁⟩ r ⟨s₂, k₂⟩ a hP ⟨hdrift, rfl⟩ h hr
    obtain ⟨hs, rfl⟩ := hstep h
    exact hok s k s₁ r s₂ a hP hdrift hs hr
  · rintro ⟨s, k⟩ ⟨s₁, k₁⟩ r ⟨s₂, k₂⟩ e hP ⟨hdrift, rfl⟩ h hr
    obtain ⟨hs, rfl⟩ := hstep h
    exact herror s k s₁ r s₂ e hP hdrift hs hr

/-- **Linked programs.** What is judged of a program in the world with a component holds of the
linked program in the world. -/
theorem link {G : σ × κ → Event C R → Prop} {P : σ × κ → Prop} {Q : α → σ × κ → Prop}
    {E : ε → σ × κ → Prop} (hp : Triple (W.attach m) G P p Q E) (hrefl : ∀ s, W.drift s s)
    {s s' : σ} {h : History C R σ} {o : Outcome (Except ε α × κ)} (hP : P (s, k))
    (hpath : W.Path s h s') (hrun : Runs (p.run.link m k) (History.trace h) o) :
    (∀ y ∈ h, ∃ k₁, m k₁ y.2.1 = none ∧ G (y.1, k₁) y.2) ∧
      (∀ a k', o = .returned (.ok a, k') → Q a (s', k')) ∧
      ∀ e k', o = .returned (.error e, k') → E e (s', k') := by
  obtain ⟨t, k', o', hrun', hlinks, rfl⟩ := hrun.unlink
  obtain ⟨l, hl, rfl, hmem⟩ := hpath.attach hrefl hlinks
  obtain ⟨hG, hok, herror⟩ := hp _ l _ o' hP hl hrun'
  refine ⟨fun y hy ↦ ?_, fun a k₁ ho ↦ ?_, fun e k₁ ho ↦ ?_⟩
  · obtain ⟨k₁, hnone, hy'⟩ := hmem y hy
    exact ⟨k₁, hnone, hG _ hy'⟩
  · rcases o' with _ | _ | x <;> cases ho
    exact hok a rfl
  · rcases o' with _ | _ | x <;> cases ho
    exact herror e rfl

end Triple

end Interaction
