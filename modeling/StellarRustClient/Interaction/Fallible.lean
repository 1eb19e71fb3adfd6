import StellarRustClient.Interaction.Runs

/-!
# Fallible interactive programs

A program with a result type is a program whose value is an `Except`; the early return of an error
is the bind of `ExceptT`. The rules below read a run of a composed program off the runs of its
parts, so that a proof about a function follows the order of its calls.
-/

namespace Interaction

variable {C : Type} {R : C → Type} {α β σ ε : Type}

namespace Prog

/-- Issue `c` and read its reply as a result. -/
def ask (c : C) (f : R c → Except ε α) : ExceptT ε (Prog C R) α :=
  ExceptT.mk (call c fun r ↦ ret (f r))

/-- A result computed without any call. -/
def lift (x : Except ε α) : ExceptT ε (Prog C R) α :=
  ExceptT.mk (ret x)

/-- A fallible program that panics. -/
def crash (msg : String) : ExceptT ε (Prog C R) α :=
  ExceptT.mk (abort msg)

/-- `unwrap_or`: an error is replaced by the value `a`. -/
def unwrapOr (p : ExceptT ε (Prog C R) α) (a : α) : ExceptT ε (Prog C R) α :=
  ExceptT.mk (p.run >>= fun x ↦ ret (.ok (x.toOption.getD a)))

/-- Run `p`, issue `c` whatever its result, and keep that result: the end of a scope. -/
def ensuring (p : ExceptT ε (Prog C R) α) (c : C) : ExceptT ε (Prog C R) α :=
  ExceptT.mk (p.run >>= fun x ↦ call c fun _ ↦ ret x)

/-- What the result of a round means for the loop: an error leaves it, like a right result. -/
def roundResult : Except ε (σ ⊕ β) → σ ⊕ Except ε β
  | .ok (.inl s) => .inl s
  | .ok (.inr b) => .inr (.ok b)
  | .error e => .inr (.error e)

/-- A loop whose body may fail. -/
def iterate (body : σ → ExceptT ε (Prog C R) (σ ⊕ β)) (s : σ) : ExceptT ε (Prog C R) β :=
  ExceptT.mk (loop (fun x ↦ (body x).run >>= fun y ↦ ret (roundResult y)) s ret)

end Prog

open Prog

/-! ## Runs of composed programs -/

@[simp] theorem runs_pure {a : α} {t : List (Event C R)} {o : Outcome (Except ε α)} :
    Runs (pure a : ExceptT ε (Prog C R) α).run t o ↔ t = [] ∧ o = .returned (.ok a) :=
  runs_ret

@[simp] theorem runs_throw {e : ε} {t : List (Event C R)} {o : Outcome (Except ε α)} :
    Runs (throw e : ExceptT ε (Prog C R) α).run t o ↔ t = [] ∧ o = .returned (.error e) :=
  runs_ret

@[simp] theorem runs_lift {x : Except ε α} {t : List (Event C R)} {o : Outcome (Except ε α)} :
    Runs (lift x : ExceptT ε (Prog C R) α).run t o ↔ t = [] ∧ o = .returned x :=
  runs_ret

@[simp] theorem runs_crash {msg : String} {t : List (Event C R)} {o : Outcome (Except ε α)} :
    Runs (crash msg : ExceptT ε (Prog C R) α).run t o ↔ t = [] ∧ o = .panicked :=
  runs_abort

theorem runs_ask {c : C} {f : R c → Except ε α} {t : List (Event C R)}
    {o : Outcome (Except ε α)} :
    Runs (ask c f).run t o ↔
      (t = [] ∧ o = .running) ∨ ∃ r, t = [⟨c, r⟩] ∧ o = .returned (f r) := by
  refine runs_call.trans (or_congr_right ?_)
  simp

@[simp] theorem lift_ok_bind (a : α) (k : α → ExceptT ε (Prog C R) β) :
    lift (.ok a) >>= k = k a := rfl

@[simp] theorem lift_error_bind (e : ε) (k : α → ExceptT ε (Prog C R) β) :
    lift (.error e) >>= k = lift (.error e) := rfl

/-- A computation and what follows it: an error that ends the program, or a value that the
continuation starts from. -/
theorem runs_lift_bind {x : Except ε α} {k : α → ExceptT ε (Prog C R) β} {t : List (Event C R)}
    {o : Outcome (Except ε β)} :
    Runs (lift x >>= k).run t o ↔
      (∃ e, x = .error e ∧ t = [] ∧ o = .returned (.error e)) ∨
        ∃ a, x = .ok a ∧ Runs (k a).run t o := by
  cases x with
  | error e =>
    rw [lift_error_bind, runs_lift]
    simp
  | ok a =>
    rw [lift_ok_bind]
    simp

/-- The same for a computation whose error goes through `g`. -/
theorem runs_lift_mapError_bind {ε' : Type} {x : Except ε' α} {g : ε' → ε}
    {k : α → ExceptT ε (Prog C R) β} {t : List (Event C R)} {o : Outcome (Except ε β)} :
    Runs (lift (x.mapError g) >>= k).run t o ↔
      (∃ e, x = .error e ∧ t = [] ∧ o = .returned (.error (g e))) ∨
        ∃ a, x = .ok a ∧ Runs (k a).run t o := by
  rw [runs_lift_bind]
  cases x <;> simp [Except.mapError]

/-- A call and what follows it: no reply yet, a reply that ends the program with an error, or one
that the continuation starts from. -/
theorem runs_ask_bind {c : C} {f : R c → Except ε α} {k : α → ExceptT ε (Prog C R) β}
    {t : List (Event C R)} {o : Outcome (Except ε β)} :
    Runs (ask c f >>= k).run t o ↔ (t = [] ∧ o = .running) ∨
      (∃ r e, f r = .error e ∧ t = [⟨c, r⟩] ∧ o = .returned (.error e)) ∨
      ∃ r a t', f r = .ok a ∧ t = ⟨c, r⟩ :: t' ∧ Runs (k a).run t' o := by
  have hstep : (ask c f >>= k).run = call c fun r ↦ (lift (f r) >>= k).run := rfl
  rw [hstep, runs_call]
  refine or_congr_right ⟨?_, ?_⟩
  · rintro ⟨r, t', rfl, h⟩
    obtain ⟨e, hr, rfl, rfl⟩ | ⟨a, hr, h⟩ := runs_lift_bind.mp h
    · exact .inl ⟨r, e, hr, rfl, rfl⟩
    · exact .inr ⟨r, a, t', hr, rfl, h⟩
  · rintro (⟨r, e, hr, rfl, rfl⟩ | ⟨r, a, t', hr, rfl, h⟩)
    · exact ⟨r, [], rfl, runs_lift_bind.mpr (.inl ⟨e, hr, rfl, rfl⟩)⟩
    · exact ⟨r, t', rfl, runs_lift_bind.mpr (.inr ⟨a, hr, h⟩)⟩

/-- A call that is never read as a failure. -/
theorem runs_ask_ok_bind {c : C} {k : R c → ExceptT ε (Prog C R) β} {t : List (Event C R)}
    {o : Outcome (Except ε β)} :
    Runs (ask c .ok >>= k).run t o ↔ (t = [] ∧ o = .running) ∨
      ∃ r t', t = ⟨c, r⟩ :: t' ∧ Runs (k r).run t' o := by
  rw [runs_ask_bind]
  simp

/-- A call whose reply is itself a result, given as `mk`, and whose error goes through `g`. -/
theorem runs_request_bind {ε' : Type} {k : α → ExceptT ε (Prog C R) β} {t : List (Event C R)}
    {o : Outcome (Except ε β)} (c : C) (f : R c → Except ε α) (mk : Except ε' α → R c)
    (hmk : Function.Surjective mk) (g : ε' → ε)
    (hok : ∀ a, f (mk (.ok a)) = .ok a) (herror : ∀ e, f (mk (.error e)) = .error (g e)) :
    Runs (ask c f >>= k).run t o ↔ (t = [] ∧ o = .running) ∨
      (∃ e, t = [⟨c, mk (.error e)⟩] ∧ o = .returned (.error (g e))) ∨
      ∃ a t', t = ⟨c, mk (.ok a)⟩ :: t' ∧ Runs (k a).run t' o := by
  rw [runs_ask_bind]
  refine or_congr_right (or_congr ⟨?_, ?_⟩ ⟨?_, ?_⟩)
  · rintro ⟨r, e, hr, rfl, rfl⟩
    obtain ⟨e' | a, rfl⟩ := hmk r
    · rw [herror, Except.error.injEq] at hr
      exact ⟨e', rfl, by rw [hr]⟩
    · rw [hok] at hr
      cases hr
  · rintro ⟨e, rfl, rfl⟩
    exact ⟨_, g e, herror e, rfl, rfl⟩
  · rintro ⟨r, a, t', hr, rfl, h⟩
    obtain ⟨e' | a', rfl⟩ := hmk r
    · rw [herror] at hr
      cases hr
    · rw [hok, Except.ok.injEq] at hr
      exact ⟨a, t', by rw [hr], h⟩
  · rintro ⟨a, t', rfl, h⟩
    exact ⟨_, a, t', hok a, rfl, h⟩

/-- Sequencing with the early return of an error. -/
theorem runs_except_bind {p : ExceptT ε (Prog C R) α} {k : α → ExceptT ε (Prog C R) β}
    {t : List (Event C R)} {o : Outcome (Except ε β)} :
    Runs (p >>= k).run t o ↔ (Runs p.run t .running ∧ o = .running) ∨
      (Runs p.run t .panicked ∧ o = .panicked) ∨
      (∃ e, Runs p.run t (.returned (.error e)) ∧ o = .returned (.error e)) ∨
      ∃ t₁ t₂ a, t = t₁ ++ t₂ ∧ Runs p.run t₁ (.returned (.ok a)) ∧ Runs (k a).run t₂ o := by
  have hstep : (p >>= k).run = p.run >>= fun x ↦ (lift x >>= k).run := by
    refine congrArg (p.run >>= ·) (funext fun x ↦ ?_)
    cases x <;> rfl
  rw [hstep, runs_bind]
  refine or_congr_right (or_congr_right ⟨?_, ?_⟩)
  · rintro ⟨t₁, t₂, x, rfl, hp, hk⟩
    cases x with
    | error e =>
      obtain ⟨rfl, rfl⟩ := runs_lift.mp hk
      rw [List.append_nil]
      exact .inl ⟨e, hp, rfl⟩
    | ok a => exact .inr ⟨t₁, t₂, a, rfl, hp, hk⟩
  · rintro (⟨e, hp, rfl⟩ | ⟨t₁, t₂, a, rfl, hp, hk⟩)
    · exact ⟨t, [], .error e, (List.append_nil t).symm, hp, runs_lift.mpr ⟨rfl, rfl⟩⟩
    · exact ⟨t₁, t₂, .ok a, rfl, hp, hk⟩

/-- Mapping the value of a fallible program leaves its exchanges alone. -/
theorem runs_except_map {p : ExceptT ε (Prog C R) α} {f : α → β} {t : List (Event C R)}
    {o : Outcome (Except ε β)} :
    Runs (f <$> p).run t o ↔ ∃ o', Runs p.run t o' ∧ o = o'.map (Except.map f) := by
  have hstep : (f <$> p).run = p.run >>= fun x ↦ ret (x.map f) := by
    refine congrArg (p.run >>= ·) (funext fun x ↦ ?_)
    cases x <;> rfl
  rw [hstep, runs_map]

/-- Reading the value of a fallible program leaves its exchanges alone, also when that fails. -/
theorem runs_except_bind_lift {p : ExceptT ε (Prog C R) α} {f : α → Except ε β}
    {t : List (Event C R)} {o : Outcome (Except ε β)} :
    Runs (p >>= fun a ↦ lift (f a)).run t o ↔ ∃ o', Runs p.run t o' ∧ o = o'.map (· >>= f) := by
  have hstep : (p >>= fun a ↦ lift (f a)).run = p.run >>= fun x ↦ ret (x >>= f) := by
    refine congrArg (p.run >>= ·) (funext fun x ↦ ?_)
    cases x <;> rfl
  rw [hstep, runs_map]

theorem Outcome.map_map_eq_returned_ok {f : α → β} {o : Outcome (Except ε α)} {b : β} :
    o.map (Except.map f) = .returned (.ok b) ↔ ∃ a, o = .returned (.ok a) ∧ f a = b := by
  rcases o with _ | _ | _ | _ <;> simp [Except.map]

theorem Outcome.map_map_eq_returned_error {f : α → β} {o : Outcome (Except ε α)} {e : ε} :
    o.map (Except.map f) = .returned (.error e) ↔ o = .returned (.error e) := by
  rcases o with _ | _ | _ | _ <;> simp [Except.map]

theorem Outcome.map_bind_eq_returned_ok {f : α → Except ε β} {o : Outcome (Except ε α)} {b : β} :
    o.map (· >>= f) = .returned (.ok b) ↔ ∃ a, o = .returned (.ok a) ∧ f a = .ok b := by
  rcases o with _ | _ | _ | a
  · simp
  · simp
  · exact iff_of_false (by rintro ⟨⟩) (by simp)
  · constructor
    · intro h
      exact ⟨a, rfl, Outcome.returned.inj h⟩
    · rintro ⟨a', ⟨rfl⟩, ha⟩
      exact congrArg Outcome.returned ha

/-- The end of a scope comes after every finished run of its body. -/
theorem runs_ensuring {p : ExceptT ε (Prog C R) α} {c : C} {t : List (Event C R)}
    {o : Outcome (Except ε α)} :
    Runs (ensuring p c).run t o ↔ (Runs p.run t .running ∧ o = .running) ∨
      (Runs p.run t .panicked ∧ o = .panicked) ∨
      (∃ x, Runs p.run t (.returned x) ∧ o = .running) ∨
      ∃ t' x r, t = t' ++ [⟨c, r⟩] ∧ Runs p.run t' (.returned x) ∧ o = .returned x := by
  have hstep : (ensuring p c).run = p.run >>= fun x ↦ call c fun _ ↦ ret x := rfl
  rw [hstep, runs_bind]
  refine or_congr_right (or_congr_right ⟨?_, ?_⟩)
  · rintro ⟨t₁, t₂, x, rfl, hp, hc⟩
    obtain ⟨rfl, rfl⟩ | ⟨r, t', rfl, hret⟩ := runs_call.mp hc
    · rw [List.append_nil]
      exact .inl ⟨x, hp, rfl⟩
    · obtain ⟨rfl, rfl⟩ := runs_ret.mp hret
      exact .inr ⟨t₁, x, r, rfl, hp, rfl⟩
  · rintro (⟨x, hp, rfl⟩ | ⟨t', x, r, rfl, hp, rfl⟩)
    · exact ⟨t, [], x, (List.append_nil t).symm, hp, .wait c _⟩
    · exact ⟨t', [⟨c, r⟩], x, rfl, hp, .call r (.ret x)⟩

/-! ## Runs of a fallible loop -/

/-- Finished rounds of a fallible loop, from the state of the first to the state of the next one. -/
inductive FallibleRounds (body : σ → ExceptT ε (Prog C R) (σ ⊕ β)) :
    σ → List (Event C R) → σ → Prop
  | nil (s : σ) : FallibleRounds body s [] s
  | cons {s s' s'' : σ} {t₁ t₂ : List (Event C R)} :
      Runs (body s).run t₁ (.returned (.ok (.inl s'))) → FallibleRounds body s' t₂ s'' →
      FallibleRounds body s (t₁ ++ t₂) s''

/-- The last round of a fallible loop: unfinished, panicked, failed, or leaving with a result. -/
def FallibleLastRound (body : σ → ExceptT ε (Prog C R) (σ ⊕ β)) (s : σ) (t : List (Event C R))
    (o : Outcome (Except ε β)) : Prop :=
  (Runs (body s).run t .running ∧ o = .running) ∨ (Runs (body s).run t .panicked ∧ o = .panicked) ∨
    (∃ e, Runs (body s).run t (.returned (.error e)) ∧ o = .returned (.error e)) ∨
    ∃ b, Runs (body s).run t (.returned (.ok (.inr b))) ∧ o = .returned (.ok b)

/-- The body of a fallible loop as the body of a plain one. -/
private abbrev round (body : σ → ExceptT ε (Prog C R) (σ ⊕ β)) (s : σ) :
    Prog C R (σ ⊕ Except ε β) :=
  (body s).run >>= fun y ↦ ret (roundResult y)

private theorem runs_round_inl {body : σ → ExceptT ε (Prog C R) (σ ⊕ β)} {s s' : σ}
    {t : List (Event C R)} :
    Runs (round body s) t (.returned (.inl s')) ↔
      Runs (body s).run t (.returned (.ok (.inl s'))) := by
  rw [runs_map]
  constructor
  · rintro ⟨_ | _ | e | x | b, h, ho⟩ <;> simp [roundResult] at ho
    exact ho ▸ h
  · intro h
    exact ⟨_, h, rfl⟩

private theorem runs_round_inr {body : σ → ExceptT ε (Prog C R) (σ ⊕ β)} {s : σ}
    {x : Except ε β} {t : List (Event C R)} :
    Runs (round body s) t (.returned (.inr x)) ↔
      (∃ e, Runs (body s).run t (.returned (.error e)) ∧ x = .error e) ∨
        ∃ b, Runs (body s).run t (.returned (.ok (.inr b))) ∧ x = .ok b := by
  rw [runs_map]
  constructor
  · rintro ⟨_ | _ | e | s' | b, h, ho⟩ <;> simp [roundResult] at ho
    · exact .inl ⟨e, h, ho⟩
    · exact .inr ⟨b, h, ho⟩
  · rintro (⟨e, h, rfl⟩ | ⟨b, h, rfl⟩)
    · exact ⟨_, h, rfl⟩
    · exact ⟨_, h, rfl⟩

private theorem rounds_iff {body : σ → ExceptT ε (Prog C R) (σ ⊕ β)} {s s' : σ}
    {t : List (Event C R)} : Rounds (round body) s t s' ↔ FallibleRounds body s t s' := by
  constructor
  · intro h
    induction h with
    | nil s => exact .nil s
    | cons hb _ ih => exact .cons (runs_round_inl.mp hb) ih
  · intro h
    induction h with
    | nil s => exact .nil s
    | cons hb _ ih => exact .cons (runs_round_inl.mpr hb) ih

private theorem lastRound_iff {body : σ → ExceptT ε (Prog C R) (σ ⊕ β)} {s : σ}
    {t : List (Event C R)} {o : Outcome (Except ε β)} :
    LastRound (round body) ret s t o ↔ FallibleLastRound body s t o := by
  rw [LastRound, FallibleLastRound, runs_map_running, runs_map_panicked]
  refine or_congr_right (or_congr_right ⟨?_, ?_⟩)
  · rintro ⟨t₁, t₂, x, rfl, hx, hret⟩
    obtain ⟨rfl, rfl⟩ := runs_ret.mp hret
    rw [List.append_nil]
    obtain ⟨e, he, rfl⟩ | ⟨b, hb, rfl⟩ := runs_round_inr.mp hx
    · exact .inl ⟨e, he, rfl⟩
    · exact .inr ⟨b, hb, rfl⟩
  · rintro (⟨e, he, rfl⟩ | ⟨b, hb, rfl⟩)
    · exact ⟨t, [], .error e, by simp, runs_round_inr.mpr (.inl ⟨e, he, rfl⟩), .ret _⟩
    · exact ⟨t, [], .ok b, by simp, runs_round_inr.mpr (.inr ⟨b, hb, rfl⟩), .ret _⟩

/-- **Fallible loops.** A run of a fallible loop is some finished rounds and a last one. -/
theorem runs_iterate {body : σ → ExceptT ε (Prog C R) (σ ⊕ β)} {s : σ}
    {t : List (Event C R)} {o : Outcome (Except ε β)} :
    Runs (iterate body s).run t o ↔ ∃ t₁ t₂ s', t = t₁ ++ t₂ ∧ FallibleRounds body s t₁ s' ∧
      FallibleLastRound body s' t₂ o := by
  have hloop : (iterate body s).run = loop (round body) s ret := rfl
  simp only [hloop, runs_loop, rounds_iff, lastRound_iff]

end Interaction
