import StellarRustClient.Interaction.Prog

/-!
# Runs of interactive programs

`Runs p t o` says that `p` can exchange the calls and replies of `t` with its environment and is
then in the situation `o`: waiting for a reply, panicked, or returned with a value. The replies are
arbitrary, so a statement about every `Runs p t o` is a statement about every environment and
about every prefix of every run.

The loop rules are those of a big-step semantics with unfinished runs. A loop that never ends has
no `returned` run, but each of its prefixes is a `running` one, which is what safety properties are
about.
-/

namespace Interaction

variable {C : Type} {R : C → Type} {α β σ : Type}

/-- One exchange: a call together with the reply it got. -/
abbrev Event (C : Type) (R : C → Type) : Type := Σ c : C, R c

/-- Where a program stands after the exchanges of a trace. -/
inductive Outcome (α : Type)
  /-- The reply to the last call has not arrived. -/
  | running
  | panicked
  | returned (a : α)

/-- Apply a function to the value of a finished run. -/
def Outcome.map (f : α → β) : Outcome α → Outcome β
  | running => running
  | panicked => panicked
  | returned a => returned (f a)

@[simp] theorem Outcome.map_running (f : α → β) : Outcome.map f .running = .running := rfl

@[simp] theorem Outcome.map_panicked (f : α → β) : Outcome.map f .panicked = .panicked := rfl

@[simp] theorem Outcome.map_returned (f : α → β) (a : α) :
    Outcome.map f (.returned a) = .returned (f a) := rfl

@[simp] theorem Outcome.map_eq_panicked {f : α → β} {o : Outcome α} :
    o.map f = .panicked ↔ o = .panicked := by
  cases o <;> simp

/-- The ways a program can run. -/
inductive Runs : {α : Type} → Prog C R α → List (Event C R) → Outcome α → Prop
  | ret {α : Type} (a : α) : Runs (.ret a) [] (.returned a)
  | abort {α : Type} (msg : String) : Runs (.abort msg : Prog C R α) [] .panicked
  | wait {α : Type} (c : C) (k : R c → Prog C R α) : Runs (.call c k) [] .running
  | call {α : Type} {c : C} {k : R c → Prog C R α} (r : R c) {t : List (Event C R)}
      {o : Outcome α} :
      Runs (k r) t o → Runs (.call c k) (⟨c, r⟩ :: t) o
  | loopWait {σ β α : Type} {body : σ → Prog C R (σ ⊕ β)} {s : σ} {k : β → Prog C R α}
      {t : List (Event C R)} : Runs (body s) t .running → Runs (.loop body s k) t .running
  | loopAbort {σ β α : Type} {body : σ → Prog C R (σ ⊕ β)} {s : σ} {k : β → Prog C R α}
      {t : List (Event C R)} : Runs (body s) t .panicked → Runs (.loop body s k) t .panicked
  | loopNext {σ β α : Type} {body : σ → Prog C R (σ ⊕ β)} {s s' : σ} {k : β → Prog C R α}
      {t₁ t₂ : List (Event C R)} {o : Outcome α} : Runs (body s) t₁ (.returned (.inl s')) →
      Runs (.loop body s' k) t₂ o → Runs (.loop body s k) (t₁ ++ t₂) o
  | loopExit {σ β α : Type} {body : σ → Prog C R (σ ⊕ β)} {s : σ} {b : β} {k : β → Prog C R α}
      {t₁ t₂ : List (Event C R)} {o : Outcome α} : Runs (body s) t₁ (.returned (.inr b)) →
      Runs (k b) t₂ o → Runs (.loop body s k) (t₁ ++ t₂) o

/-! ## One lemma per construct -/

@[simp] theorem runs_ret {a : α} {t : List (Event C R)} {o : Outcome α} :
    Runs (.ret a : Prog C R α) t o ↔ t = [] ∧ o = .returned a := by
  constructor
  · rintro ⟨⟩
    exact ⟨rfl, rfl⟩
  · rintro ⟨rfl, rfl⟩
    exact .ret a

@[simp] theorem runs_abort {msg : String} {t : List (Event C R)} {o : Outcome α} :
    Runs (.abort msg : Prog C R α) t o ↔ t = [] ∧ o = .panicked := by
  constructor
  · rintro ⟨⟩
    exact ⟨rfl, rfl⟩
  · rintro ⟨rfl, rfl⟩
    exact .abort msg

theorem runs_call {c : C} {k : R c → Prog C R α} {t : List (Event C R)} {o : Outcome α} :
    Runs (.call c k) t o ↔
      (t = [] ∧ o = .running) ∨ ∃ r t', t = ⟨c, r⟩ :: t' ∧ Runs (k r) t' o := by
  constructor
  · rintro (_ | _ | _ | ⟨r, h⟩)
    · exact .inl ⟨rfl, rfl⟩
    · exact .inr ⟨r, _, rfl, h⟩
  · rintro (⟨rfl, rfl⟩ | ⟨r, t', rfl, h⟩)
    · exact .wait c k
    · exact .call r h

/-- Extending a program by a continuation extends its runs. -/
theorem Runs.bind {p : Prog C R α} {f : α → Prog C R β} {t₁ t₂ : List (Event C R)} {a : α}
    {o : Outcome β} (hp : Runs p t₁ (.returned a)) (hf : Runs (f a) t₂ o) :
    Runs (p >>= f) (t₁ ++ t₂) o := by
  generalize ho : Outcome.returned a = q at hp
  induction hp with
  | ret b =>
    cases ho
    exact hf
  | abort _ => cases ho
  | wait _ _ => cases ho
  | call r _ ih => exact .call r (ih hf ho)
  | loopWait _ _ => cases ho
  | loopAbort _ _ => cases ho
  | loopNext hb _ _ ih =>
    rw [List.append_assoc]
    exact .loopNext hb (ih hf ho)
  | loopExit hb _ _ ih =>
    rw [List.append_assoc]
    exact .loopExit hb (ih hf ho)

theorem Runs.bind_running {p : Prog C R α} (f : α → Prog C R β) {t : List (Event C R)}
    (hp : Runs p t .running) : Runs (p >>= f) t .running := by
  generalize ho : (Outcome.running : Outcome α) = q at hp
  induction hp with
  | ret _ => cases ho
  | abort _ => cases ho
  | wait c k => exact .wait c _
  | call r _ ih => exact .call r (ih f ho)
  | loopWait hb _ => exact .loopWait hb
  | loopAbort _ _ => cases ho
  | loopNext hb _ _ ih => exact .loopNext hb (ih f ho)
  | loopExit hb _ _ ih => exact .loopExit hb (ih f ho)

theorem Runs.bind_panicked {p : Prog C R α} (f : α → Prog C R β) {t : List (Event C R)}
    (hp : Runs p t .panicked) : Runs (p >>= f) t .panicked := by
  generalize ho : (Outcome.panicked : Outcome α) = q at hp
  induction hp with
  | ret _ => cases ho
  | abort msg => exact .abort msg
  | wait _ _ => cases ho
  | call r _ ih => exact .call r (ih f ho)
  | loopWait _ _ => cases ho
  | loopAbort hb _ => exact .loopAbort hb
  | loopNext hb _ _ ih => exact .loopNext hb (ih f ho)
  | loopExit hb _ _ ih => exact .loopExit hb (ih f ho)

/-! ## Loops -/

/-- Finished rounds of a loop, from the state of the first to the state of the next one. -/
inductive Rounds (body : σ → Prog C R (σ ⊕ β)) : σ → List (Event C R) → σ → Prop
  | nil (s : σ) : Rounds body s [] s
  | cons {s s' s'' : σ} {t₁ t₂ : List (Event C R)} : Runs (body s) t₁ (.returned (.inl s')) →
      Rounds body s' t₂ s'' → Rounds body s (t₁ ++ t₂) s''

/-- The last round of a loop: unfinished, panicked, or left for the continuation. -/
def LastRound (body : σ → Prog C R (σ ⊕ β)) (k : β → Prog C R α) (s : σ) (t : List (Event C R))
    (o : Outcome α) : Prop :=
  (Runs (body s) t .running ∧ o = .running) ∨ (Runs (body s) t .panicked ∧ o = .panicked) ∨
    ∃ t₁ t₂ b, t = t₁ ++ t₂ ∧ Runs (body s) t₁ (.returned (.inr b)) ∧ Runs (k b) t₂ o

private theorem runs_loop_of_rounds {body : σ → Prog C R (σ ⊕ β)} {k : β → Prog C R α} {s s' : σ}
    {t₁ t₂ : List (Event C R)} {o : Outcome α} (h : Rounds body s t₁ s')
    (hlast : LastRound body k s' t₂ o) : Runs (.loop body s k) (t₁ ++ t₂) o := by
  induction h with
  | nil s =>
    rw [List.nil_append]
    obtain ⟨h, rfl⟩ | ⟨h, rfl⟩ | ⟨t₁, t₂, b, rfl, hb, hk⟩ := hlast
    · exact .loopWait h
    · exact .loopAbort h
    · exact .loopExit hb hk
  | cons hb _ ih =>
    rw [List.append_assoc]
    exact .loopNext hb (ih hlast)

/-- **Loops.** A run of a loop is some finished rounds and a last one. -/
theorem runs_loop {body : σ → Prog C R (σ ⊕ β)} {k : β → Prog C R α} {s : σ}
    {t : List (Event C R)} {o : Outcome α} :
    Runs (.loop body s k) t o ↔
      ∃ t₁ t₂ s', t = t₁ ++ t₂ ∧ Rounds body s t₁ s' ∧ LastRound body k s' t₂ o := by
  constructor
  · intro h
    generalize hq : Prog.loop body s k = q at h
    induction h generalizing s with
    | ret _ => cases hq
    | abort _ => cases hq
    | wait _ _ => cases hq
    | call _ _ _ => cases hq
    | loopWait hb _ =>
      cases hq
      exact ⟨[], _, s, rfl, .nil s, .inl ⟨hb, rfl⟩⟩
    | loopAbort hb _ =>
      cases hq
      exact ⟨[], _, s, rfl, .nil s, .inr (.inl ⟨hb, rfl⟩)⟩
    | loopNext hb _ _ ih =>
      cases hq
      obtain ⟨t₁, t₂, s', rfl, hr, hlast⟩ := ih rfl
      exact ⟨_ ++ t₁, t₂, s', (List.append_assoc ..).symm, .cons hb hr, hlast⟩
    | loopExit hb hk _ _ =>
      cases hq
      exact ⟨[], _, s, rfl, .nil s, .inr (.inr ⟨_, _, _, rfl, hb, hk⟩)⟩
  · rintro ⟨t₁, t₂, s', rfl, hr, hlast⟩
    exact runs_loop_of_rounds hr hlast

/-! ## Sequencing -/

/-- **Sequencing.** A run of `p >>= f` is an unfinished run of `p`, or a finished one followed by a
run of `f`. -/
theorem runs_bind {p : Prog C R α} {f : α → Prog C R β} {t : List (Event C R)} {o : Outcome β} :
    Runs (p >>= f) t o ↔ (Runs p t .running ∧ o = .running) ∨ (Runs p t .panicked ∧ o = .panicked) ∨
      ∃ t₁ t₂ a, t = t₁ ++ t₂ ∧ Runs p t₁ (.returned a) ∧ Runs (f a) t₂ o := by
  constructor
  · intro h
    -- Binding goes under calls and into the continuation of a loop, so the induction is on `p`.
    induction p generalizing t with
    | ret a => exact .inr (.inr ⟨[], t, a, rfl, .ret a, h⟩)
    | call c k ih =>
      obtain ⟨rfl, rfl⟩ | ⟨r, t', rfl, hr⟩ := runs_call.mp h
      · exact .inl ⟨.wait c k, rfl⟩
      · obtain ⟨hp, rfl⟩ | ⟨hp, rfl⟩ | ⟨t₁, t₂, a, rfl, hp, hf⟩ := ih r hr
        · exact .inl ⟨.call r hp, rfl⟩
        · exact .inr (.inl ⟨.call r hp, rfl⟩)
        · exact .inr (.inr ⟨⟨c, r⟩ :: t₁, t₂, a, rfl, .call r hp, hf⟩)
    | loop body s k _ ih =>
      obtain ⟨t₁, t₂, s', rfl, hr, ⟨hb, rfl⟩ | ⟨hb, rfl⟩ | ⟨t₃, t₄, b, rfl, hb, hk⟩⟩ :=
        runs_loop.mp h
      · exact .inl ⟨runs_loop.mpr ⟨_, _, s', rfl, hr, .inl ⟨hb, rfl⟩⟩, rfl⟩
      · exact .inr (.inl ⟨runs_loop.mpr ⟨_, _, s', rfl, hr, .inr (.inl ⟨hb, rfl⟩)⟩, rfl⟩)
      · obtain ⟨hp, rfl⟩ | ⟨hp, rfl⟩ | ⟨t₅, t₆, a, rfl, hp, hf⟩ := ih b hk
        · exact .inl ⟨runs_loop.mpr ⟨_, _, s', rfl, hr, .inr (.inr ⟨_, _, b, rfl, hb, hp⟩)⟩, rfl⟩
        · exact .inr (.inl
            ⟨runs_loop.mpr ⟨_, _, s', rfl, hr, .inr (.inr ⟨_, _, b, rfl, hb, hp⟩)⟩, rfl⟩)
        · refine .inr (.inr ⟨t₁ ++ (t₃ ++ t₅), t₆, a, by simp, ?_, hf⟩)
          exact runs_loop.mpr ⟨_, _, s', rfl, hr, .inr (.inr ⟨_, _, b, rfl, hb, hp⟩)⟩
    | abort msg =>
      obtain ⟨rfl, rfl⟩ := runs_abort.mp h
      exact .inr (.inl ⟨.abort msg, rfl⟩)
  · rintro (⟨h, rfl⟩ | ⟨h, rfl⟩ | ⟨t₁, t₂, a, rfl, hp, hf⟩)
    · exact h.bind_running f
    · exact h.bind_panicked f
    · exact hp.bind hf

/-- Mapping the result of a program maps the outcome of its runs. -/
theorem runs_map {p : Prog C R α} {f : α → β} {t : List (Event C R)} {o : Outcome β} :
    Runs (p >>= fun a ↦ .ret (f a)) t o ↔ ∃ o', Runs p t o' ∧ o = o'.map f := by
  rw [runs_bind]
  constructor
  · rintro (⟨h, rfl⟩ | ⟨h, rfl⟩ | ⟨t₁, t₂, a, rfl, hp, hf⟩)
    · exact ⟨_, h, rfl⟩
    · exact ⟨_, h, rfl⟩
    · obtain ⟨rfl, rfl⟩ := runs_ret.mp hf
      rw [List.append_nil]
      exact ⟨_, hp, rfl⟩
  · rintro ⟨_ | _ | a, h, rfl⟩
    · exact .inl ⟨h, rfl⟩
    · exact .inr (.inl ⟨h, rfl⟩)
    · exact .inr (.inr ⟨t, [], a, (List.append_nil t).symm, h, .ret _⟩)

theorem runs_map_running {p : Prog C R α} {f : α → β} {t : List (Event C R)} :
    Runs (p >>= fun a ↦ .ret (f a)) t .running ↔ Runs p t .running := by
  rw [runs_map]
  constructor
  · rintro ⟨_ | _ | a, h, ho⟩
    · exact h
    · cases ho
    · cases ho
  · intro h
    exact ⟨_, h, rfl⟩

theorem runs_map_panicked {p : Prog C R α} {f : α → β} {t : List (Event C R)} :
    Runs (p >>= fun a ↦ .ret (f a)) t .panicked ↔ Runs p t .panicked := by
  rw [runs_map]
  constructor
  · rintro ⟨_ | _ | a, h, ho⟩
    · cases ho
    · exact h
    · cases ho
  · intro h
    exact ⟨_, h, rfl⟩

end Interaction
