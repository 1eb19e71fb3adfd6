import StellarRustClient.Interaction.Trace
import StellarRustClient.Poll
import StellarRustClient.Sdk.Calls

/-!
# What a poll does

The runs of `poll_transaction_status` over arbitrary replies, round by round: `RoundRun` lists those
of one round, `LoopRun` those of the loop from the response it looks at, and `PollRun` those of the
whole poll. A poll only reads the clock, sleeps and asks for its own hash, and its outcome is
decided by the replies to `get_transaction`. All replies but the last are `NotFound`, so the last
one is the first that is not.
-/

namespace StellarRustClient

open Interaction

/-- The calls that polling for `hash` makes. -/
def IsPollCall (hash : String) : Call → Prop
  | .now => True
  | .sleep _ => True
  | .getTransaction h => h = hash
  | _ => False

/-- The reply of an exchange that asks for the status of a transaction. -/
def queryReply : Exchange → Option (Except RpcError GetTransactionResponse)
  | ⟨.getTransaction _, r⟩ => some r
  | _ => none

/-- The replies to `get_transaction`, in order. -/
def queryReplies (t : List Exchange) : List (Except RpcError GetTransactionResponse) :=
  t.filterMap queryReply

@[simp] theorem queryReplies_nil : queryReplies [] = [] := rfl

@[simp] theorem queryReplies_now (clock : Instant) (t : List Exchange) :
    queryReplies (⟨.now, clock⟩ :: t) = queryReplies t := rfl

@[simp] theorem queryReplies_sleep (duration : Duration) (t : List Exchange) :
    queryReplies (⟨.sleep duration, ()⟩ :: t) = queryReplies t := rfl

@[simp] theorem queryReplies_query (hash : String) (r : Except RpcError GetTransactionResponse)
    (t : List Exchange) : queryReplies (⟨.getTransaction hash, r⟩ :: t) = r :: queryReplies t := rfl

@[simp] theorem queryReplies_append (t₁ t₂ : List Exchange) :
    queryReplies (t₁ ++ t₂) = queryReplies t₁ ++ queryReplies t₂ :=
  List.filterMap_append ..

/-- A reply that keeps the poll going. -/
def IsNotFound : Except RpcError GetTransactionResponse → Prop
  | .ok response => response.status = .notFound
  | .error _ => False

variable (sdk : Sdk)

/-- The outcome of a poll for `hash`, from the replies it got. -/
inductive PollOutcome (hash : String) : List (Except RpcError GetTransactionResponse) →
    Outcome (Except SorobanUtilsError GetTransactionResponse) → Prop
  | running {l} (hl : ∀ r ∈ l, IsNotFound r) : PollOutcome hash l .running
  | panicked : PollOutcome hash [] .panicked
  | success {l response} (hl : ∀ r ∈ l, IsNotFound r) (hs : response.status = .success) :
      PollOutcome hash (l ++ [.ok response]) (.returned (.ok response))
  | failed {l response} (hl : ∀ r ∈ l, IsNotFound r) (hs : response.status = .failed) :
      PollOutcome hash (l ++ [.ok response])
        (.returned (.error (.transactionFailed hash (TransactionStatus.debug .failed))))
  | rpcFailed {l e} (hl : ∀ r ∈ l, IsNotFound r) :
      PollOutcome hash (l ++ [.error e]) (.returned (.error (rpcError sdk e)))
  | timeout {l} (hl : ∀ r ∈ l, IsNotFound r) (hne : l ≠ []) :
      PollOutcome hash l (.returned (.error (.timeout hash)))

variable {sdk} {hash : String} {cfg : PollConfig} {deadline : Instant}

/-! ## One round -/

theorem pollRound_of_final {response : GetTransactionResponse} (h : response.status ≠ .notFound) :
    pollRound sdk hash cfg deadline response = pure (.inr response) := by
  rw [pollRound]
  split
  · contradiction
  · rfl

variable (sdk hash cfg deadline) in
/-- The runs of a round that starts from a `NotFound` response. -/
inductive RoundRun : List Exchange →
    Outcome (Except SorobanUtilsError (GetTransactionResponse ⊕ GetTransactionResponse)) → Prop
  | reading : RoundRun [] .running
  | timeout (clock : Instant) (hclock : deadline ≤ clock) :
      RoundRun [⟨.now, clock⟩] (.returned (.error (.timeout hash)))
  | sleeping (clock : Instant) (hclock : clock < deadline) : RoundRun [⟨.now, clock⟩] .running
  | asking (clock : Instant) (hclock : clock < deadline) :
      RoundRun [⟨.now, clock⟩, ⟨.sleep cfg.interval, ()⟩] .running
  | failed (clock : Instant) (hclock : clock < deadline) (e : RpcError) :
      RoundRun [⟨.now, clock⟩, ⟨.sleep cfg.interval, ()⟩, ⟨.getTransaction hash, .error e⟩]
        (.returned (.error (rpcError sdk e)))
  | next (clock : Instant) (hclock : clock < deadline) (response : GetTransactionResponse) :
      RoundRun [⟨.now, clock⟩, ⟨.sleep cfg.interval, ()⟩, ⟨.getTransaction hash, .ok response⟩]
        (.returned (.ok (.inl response)))

theorem runs_pollRound {response : GetTransactionResponse} {t : List Exchange}
    {o : Outcome (Except SorobanUtilsError (GetTransactionResponse ⊕ GetTransactionResponse))}
    (hs : response.status = .notFound) :
    Runs (pollRound sdk hash cfg deadline response).run t o ↔
      RoundRun sdk hash cfg deadline t o := by
  rw [pollRound, hs]
  refine runs_ask_ok_bind.trans ⟨?_, fun h ↦ ?_⟩
  · rintro (⟨rfl, rfl⟩ | ⟨clock, t, rfl, h₁⟩)
    · exact .reading
    by_cases hclock : deadline ≤ clock
    · rw [if_pos hclock] at h₁
      obtain ⟨rfl, rfl⟩ := runs_throw.mp h₁
      exact .timeout clock hclock
    rw [if_neg hclock] at h₁
    have hlt : clock < deadline := Nat.lt_of_not_le hclock
    obtain ⟨rfl, rfl⟩ | ⟨_, t, rfl, h₂⟩ := runs_ask_ok_bind.mp h₁
    · exact .sleeping clock hlt
    obtain ⟨rfl, rfl⟩ | ⟨e, rfl, rfl⟩ | ⟨r, t, rfl, h₃⟩ := runs_getTransaction_bind.mp h₂
    · exact .asking clock hlt
    · exact .failed clock hlt e
    · obtain ⟨rfl, rfl⟩ := runs_pure.mp h₃
      exact .next clock hlt r
  · -- Past the check the round is two calls, the second of which may fail.
    have hafter {clock : Instant} {t : List Exchange} (hlt : clock < deadline)
        {o : Outcome (Except SorobanUtilsError (GetTransactionResponse ⊕ GetTransactionResponse))}
        (h : StartsWith (fun r ↦ ⟨.getTransaction hash, r⟩) (rpcError sdk)
          (fun response ↦ pure (.inl response)) t o) :
        Runs (if deadline ≤ clock then throw (.timeout hash) else do
          sleep cfg.interval
          let response ← getTransaction sdk hash
          pure (.inl response) : Async (GetTransactionResponse ⊕ GetTransactionResponse)).run
          (⟨.sleep cfg.interval, ()⟩ :: t) o := by
      rw [if_neg (Nat.not_le.mpr hlt)]
      exact runs_ask_ok_bind.mpr (.inr ⟨(), t, rfl, runs_getTransaction_bind.mpr h⟩)
    cases h with
    | reading => exact .inl ⟨rfl, rfl⟩
    | timeout clock hclock =>
      refine .inr ⟨clock, [], rfl, ?_⟩
      rw [if_pos hclock]
      exact runs_throw.mpr ⟨rfl, rfl⟩
    | sleeping clock hclock =>
      refine .inr ⟨clock, [], rfl, ?_⟩
      rw [if_neg (Nat.not_le.mpr hclock)]
      exact runs_ask_ok_bind.mpr (.inl ⟨rfl, rfl⟩)
    | asking clock hclock => exact .inr ⟨clock, _, rfl, hafter hclock .waiting⟩
    | failed clock hclock e => exact .inr ⟨clock, _, rfl, hafter hclock (.failed e)⟩
    | next clock hclock response =>
      exact .inr ⟨clock, _, rfl, hafter hclock (.reply response (runs_pure.mpr ⟨rfl, rfl⟩))⟩

/-! ## The loop -/

variable (sdk hash cfg deadline) in
/-- The runs of the loop, from the response under inspection. -/
inductive LoopRun : GetTransactionResponse → List Exchange →
    Outcome (Except SorobanUtilsError GetTransactionResponse) → Prop
  | final {r : GetTransactionResponse} (hs : r.status ≠ .notFound) :
      LoopRun r [] (.returned (.ok r))
  | waiting {r : GetTransactionResponse} (hs : r.status = .notFound) {t : List Exchange}
      (hround : RoundRun sdk hash cfg deadline t .running) : LoopRun r t .running
  | failed {r : GetTransactionResponse} (hs : r.status = .notFound) {t : List Exchange}
      {e : SorobanUtilsError} (hround : RoundRun sdk hash cfg deadline t (.returned (.error e))) :
      LoopRun r t (.returned (.error e))
  | next {r s : GetTransactionResponse} (hs : r.status = .notFound) {t₁ t₂ : List Exchange}
      {o : Outcome (Except SorobanUtilsError GetTransactionResponse)}
      (hround : RoundRun sdk hash cfg deadline t₁ (.returned (.ok (.inl s))))
      (hrest : LoopRun s t₂ o) : LoopRun r (t₁ ++ t₂) o

theorem runs_iterate_pollRound {r : GetTransactionResponse} {t : List Exchange}
    {o : Outcome (Except SorobanUtilsError GetTransactionResponse)} :
    Runs (Prog.iterate (pollRound sdk hash cfg deadline) r).run t o ↔
      LoopRun sdk hash cfg deadline r t o := by
  rw [runs_iterate]
  constructor
  · -- On the rounds that go on; the last one says how the loop ends.
    rintro ⟨t₁, t₂, r', rfl, hrounds, hlast⟩
    induction hrounds with
    | nil r =>
      by_cases hs : r.status = .notFound
      · obtain ⟨hb, rfl⟩ | ⟨hb, -⟩ | ⟨e, hb, rfl⟩ | ⟨b, hb, -⟩ := hlast
        · exact .waiting hs ((runs_pollRound hs).mp hb)
        · cases (runs_pollRound hs).mp hb
        · exact .failed hs ((runs_pollRound hs).mp hb)
        · cases (runs_pollRound hs).mp hb
      · rw [FallibleLastRound, pollRound_of_final hs] at hlast
        simp only [runs_pure, reduceCtorEq, and_false, false_and, exists_false, false_or,
          Outcome.returned.injEq, Except.ok.injEq, Sum.inr.injEq] at hlast
        obtain ⟨b, ⟨rfl, rfl⟩, rfl⟩ := hlast
        exact .final hs
    | @cons r s r' t₁ t hround _ ih =>
      by_cases hs : r.status = .notFound
      · rw [List.append_assoc]
        exact .next hs ((runs_pollRound hs).mp hround) (ih hlast)
      · rw [pollRound_of_final hs] at hround
        cases (runs_pure.mp hround).2
  · intro h
    induction h with
    | final hs =>
      refine ⟨[], [], _, rfl, .nil _, .inr (.inr (.inr ⟨_, ?_, rfl⟩))⟩
      rw [pollRound_of_final hs]
      exact runs_pure.mpr ⟨rfl, rfl⟩
    | waiting hs hround =>
      exact ⟨[], _, _, rfl, .nil _, .inl ⟨(runs_pollRound hs).mpr hround, rfl⟩⟩
    | failed hs hround =>
      refine ⟨[], _, _, rfl, .nil _, .inr (.inr (.inl ⟨_, ?_, rfl⟩))⟩
      exact (runs_pollRound hs).mpr hround
    | next hs hround _ ih =>
      obtain ⟨t₁, t₂, r', rfl, hrounds, hlast⟩ := ih
      refine ⟨_, t₂, r', (List.append_assoc ..).symm, ?_, hlast⟩
      exact .cons ((runs_pollRound hs).mpr hround) hrounds

/-! ## The whole poll -/

/-- What is made of the response that the loop leaves with. -/
def pollResult (hash : String) (response : GetTransactionResponse) :
    Except SorobanUtilsError GetTransactionResponse :=
  match response.status with
  | .success => .ok response
  | other => .error (.transactionFailed hash other.debug)

variable (sdk hash cfg) in
/-- The runs of `pollTransactionStatus`. -/
inductive PollRun : List Exchange →
    Outcome (Except SorobanUtilsError GetTransactionResponse) → Prop
  | starting : PollRun [] .running
  | overflow (start : Instant) (hstart : sdk.instantMax < start + cfg.timeout.nanos) :
      PollRun [⟨.now, start⟩] .panicked
  | asking (start : Instant) (hstart : start + cfg.timeout.nanos ≤ sdk.instantMax) :
      PollRun [⟨.now, start⟩] .running
  | failed (start : Instant) (hstart : start + cfg.timeout.nanos ≤ sdk.instantMax) (e : RpcError) :
      PollRun [⟨.now, start⟩, ⟨.getTransaction hash, .error e⟩]
        (.returned (.error (rpcError sdk e)))
  | loop (start : Instant) (hstart : start + cfg.timeout.nanos ≤ sdk.instantMax)
      (r : GetTransactionResponse) {t : List Exchange}
      {o : Outcome (Except SorobanUtilsError GetTransactionResponse)}
      (hloop : LoopRun sdk hash cfg (start + cfg.timeout.nanos) r t o) :
      PollRun (⟨.now, start⟩ :: ⟨.getTransaction hash, .ok r⟩ :: t)
        (o.map (· >>= pollResult hash))

theorem pollTransactionStatus_eq : pollTransactionStatus sdk hash cfg = (do
    let start ← now
    let deadline ← instantAdd sdk start cfg.timeout
    let response ← getTransaction sdk hash
    let response ← Prog.iterate (pollRound sdk hash cfg deadline) response
    Prog.lift (pollResult hash response)) := by
  refine congrArg (now >>= ·) (funext fun start ↦ ?_)
  refine congrArg (instantAdd sdk start cfg.timeout >>= ·) (funext fun deadline ↦ ?_)
  refine congrArg (getTransaction sdk hash >>= ·) (funext fun response ↦ ?_)
  refine congrArg (Prog.iterate _ response >>= ·) (funext fun response ↦ ?_)
  rw [pollResult]
  cases response.status <;> rfl

theorem runs_pollTransactionStatus {t : List Exchange}
    {o : Outcome (Except SorobanUtilsError GetTransactionResponse)} :
    Runs (pollTransactionStatus sdk hash cfg).run t o ↔ PollRun sdk hash cfg t o := by
  rw [pollTransactionStatus_eq]
  simp only [instantAdd]
  refine runs_ask_ok_bind.trans ?_
  constructor
  · rintro (⟨rfl, rfl⟩ | ⟨start, t, rfl, h₁⟩)
    · exact .starting
    by_cases hstart : start + cfg.timeout.nanos ≤ sdk.instantMax
    · rw [if_pos hstart, pure_bind] at h₁
      obtain ⟨rfl, rfl⟩ | ⟨e, rfl, rfl⟩ | ⟨r, t, rfl, h₂⟩ := runs_getTransaction_bind.mp h₁
      · exact .asking start hstart
      · exact .failed start hstart e
      · obtain ⟨o', h₃, rfl⟩ := runs_except_bind_lift.mp h₂
        exact .loop start hstart r (runs_iterate_pollRound.mp h₃)
    · rw [if_neg hstart] at h₁
      obtain ⟨rfl, rfl⟩ := runs_crash.mp h₁
      exact .overflow start (Nat.lt_of_not_le hstart)
  · intro h
    cases h with
    | starting => exact .inl ⟨rfl, rfl⟩
    | overflow start hstart =>
      refine .inr ⟨start, [], rfl, ?_⟩
      rw [if_neg (Nat.not_le.mpr hstart)]
      exact runs_crash.mpr ⟨rfl, rfl⟩
    | asking start hstart =>
      refine .inr ⟨start, [], rfl, ?_⟩
      rw [if_pos hstart, pure_bind]
      exact runs_getTransaction_bind.mpr .waiting
    | failed start hstart e =>
      refine .inr ⟨start, _, rfl, ?_⟩
      rw [if_pos hstart, pure_bind]
      exact runs_getTransaction_bind.mpr (.failed e)
    | loop start hstart r hloop =>
      refine .inr ⟨start, _, rfl, ?_⟩
      rw [if_pos hstart, pure_bind]
      refine runs_getTransaction_bind.mpr (.reply r (runs_except_bind_lift.mpr ⟨_, ?_, rfl⟩))
      exact runs_iterate_pollRound.mpr hloop

/-! ## What the replies decide -/

theorem PollOutcome.cons {x : Except RpcError GetTransactionResponse}
    {l : List (Except RpcError GetTransactionResponse)}
    {o : Outcome (Except SorobanUtilsError GetTransactionResponse)} (hx : IsNotFound x)
    (h : PollOutcome sdk hash l o) (hne : l ≠ []) : PollOutcome sdk hash (x :: l) o := by
  cases h with
  | running hl => exact .running (List.forall_mem_cons.mpr ⟨hx, hl⟩)
  | panicked => exact absurd rfl hne
  | @success l response hl hs =>
    exact .success (l := x :: l) (List.forall_mem_cons.mpr ⟨hx, hl⟩) hs
  | @failed l response hl hs =>
    exact .failed (l := x :: l) (List.forall_mem_cons.mpr ⟨hx, hl⟩) hs
  | @rpcFailed l e hl => exact .rpcFailed (l := x :: l) (List.forall_mem_cons.mpr ⟨hx, hl⟩)
  | timeout hl => exact .timeout (List.forall_mem_cons.mpr ⟨hx, hl⟩) (List.cons_ne_nil x _)

/-- The loop only polls, and goes on over `NotFound` replies to the first one that is not. -/
theorem LoopRun.spec {r : GetTransactionResponse} {t : List Exchange}
    {o : Outcome (Except SorobanUtilsError GetTransactionResponse)}
    (h : LoopRun sdk hash cfg deadline r t o) :
    (∀ x ∈ t, IsPollCall hash x.1) ∧
      PollOutcome sdk hash (.ok r :: queryReplies t) (o.map (· >>= pollResult hash)) := by
  induction h with
  | @final r hs =>
    refine ⟨by simp, ?_⟩
    have hresult : (Except.ok r >>= pollResult hash) = pollResult hash r := rfl
    rw [Outcome.map_returned, hresult, pollResult]
    cases hst : r.status with
    | notFound => exact absurd hst hs
    | success => exact .success (l := []) (by simp) hst
    | failed => exact .failed (l := []) (by simp) hst
  | waiting hs hround =>
    cases hround with
    | reading => exact ⟨by simp, .running (List.forall_mem_singleton.mpr hs)⟩
    | sleeping => exact ⟨by simp [IsPollCall], .running (List.forall_mem_singleton.mpr hs)⟩
    | asking => exact ⟨by simp [IsPollCall], .running (List.forall_mem_singleton.mpr hs)⟩
  | @failed r hs t e hround =>
    cases hround with
    | timeout =>
      exact ⟨by simp [IsPollCall], .timeout (List.forall_mem_singleton.mpr hs) (by simp)⟩
    | failed clock hclock e =>
      exact ⟨by simp [IsPollCall], .rpcFailed (l := [.ok r]) (List.forall_mem_singleton.mpr hs)⟩
  | next hs hround _ ih =>
    cases hround with
    | next clock hclock s =>
      exact ⟨by simpa [IsPollCall] using ih.1, ih.2.cons hs (List.cons_ne_nil _ _)⟩

/-- **Polling.** A poll for `hash` makes no other calls than its own, and its outcome is read off
the replies to `get_transaction`. -/
theorem pollTransactionStatus_spec {t : List Exchange}
    {o : Outcome (Except SorobanUtilsError GetTransactionResponse)}
    (h : Runs (pollTransactionStatus sdk hash cfg).run t o) :
    (∀ x ∈ t, IsPollCall hash x.1) ∧ PollOutcome sdk hash (queryReplies t) o := by
  cases runs_pollTransactionStatus.mp h with
  | starting => exact ⟨by simp, .running (List.forall_mem_nil _)⟩
  | overflow => exact ⟨by simp [IsPollCall], .panicked⟩
  | asking => exact ⟨by simp [IsPollCall], .running (List.forall_mem_nil _)⟩
  | failed start hstart e =>
    exact ⟨by simp [IsPollCall], .rpcFailed (l := []) (List.forall_mem_nil _)⟩
  | loop start hstart r hloop =>
    obtain ⟨hcalls, hout⟩ := hloop.spec
    exact ⟨by simpa [IsPollCall] using hcalls, hout⟩

theorem LoopRun.ne_panicked {r : GetTransactionResponse} {t : List Exchange}
    {o : Outcome (Except SorobanUtilsError GetTransactionResponse)}
    (h : LoopRun sdk hash cfg deadline r t o) : o ≠ .panicked := by
  induction h with
  | next _ _ _ ih => exact ih
  | _ => simp

/-- A poll reads the clock first, and panics exactly when the deadline counted from that reading is
not representable. -/
theorem runs_pollTransactionStatus_start {t : List Exchange}
    {o : Outcome (Except SorobanUtilsError GetTransactionResponse)}
    (h : Runs (pollTransactionStatus sdk hash cfg).run t o) :
    (t = [] ∧ o = .running) ∨ ∃ start t', t = ⟨.now, start⟩ :: t' ∧
      (o = .panicked ↔ sdk.instantMax < start + cfg.timeout.nanos) := by
  cases runs_pollTransactionStatus.mp h with
  | starting => exact .inl ⟨rfl, rfl⟩
  | overflow start hstart => exact .inr ⟨start, _, rfl, iff_of_true rfl hstart⟩
  | asking start hstart =>
    exact .inr ⟨start, _, rfl, iff_of_false (by simp) (Nat.not_lt.mpr hstart)⟩
  | failed start hstart e =>
    exact .inr ⟨start, _, rfl, iff_of_false (by simp) (Nat.not_lt.mpr hstart)⟩
  | loop start hstart r hloop =>
    refine .inr ⟨start, _, rfl, iff_of_false ?_ (Nat.not_lt.mpr hstart)⟩
    rw [Outcome.map_eq_panicked]
    exact hloop.ne_panicked

/-! ## Nothing after the final reply -/

/-- A reply that does not keep the poll going is the last exchange of the trace. -/
def StopsAtFinal (t : List Exchange) : Prop :=
  ∀ t₁ h r t₂, t = t₁ ++ ⟨.getTransaction h, r⟩ :: t₂ → ¬ IsNotFound r → t₂ = []

theorem mem_queryReplies {t : List Exchange} {r : Except RpcError GetTransactionResponse} :
    r ∈ queryReplies t ↔ ∃ h, (⟨.getTransaction h, r⟩ : Exchange) ∈ t := by
  constructor
  · intro hmem
    obtain ⟨⟨c, r'⟩, hx, hr⟩ := List.mem_filterMap.mp hmem
    cases c <;> simp [queryReply] at hr
    subst hr
    exact ⟨_, hx⟩
  · rintro ⟨h, hmem⟩
    exact List.mem_filterMap.mpr ⟨_, hmem, rfl⟩

theorem stopsAtFinal_append (t₁ : List Exchange) {t₂ : List Exchange}
    (h₁ : ∀ r ∈ queryReplies t₁, IsNotFound r) (h₂ : StopsAtFinal t₂) :
    StopsAtFinal (t₁ ++ t₂) := by
  intro u h r v ht hr
  obtain ⟨a, rfl, _⟩ | ⟨a, _, ha⟩ := append_cons_eq_append_iff.mp ht
  · exact absurd (h₁ r (mem_queryReplies.mpr ⟨h, List.mem_append_cons_self⟩)) hr
  · exact h₂ a h r v ha hr

theorem stopsAtFinal_of_quiet {t : List Exchange} (h : ∀ r ∈ queryReplies t, IsNotFound r) :
    StopsAtFinal t := by
  rintro t₁ hash r t₂ rfl hr
  exact absurd (h r (mem_queryReplies.mpr ⟨hash, List.mem_append_cons_self⟩)) hr

theorem stopsAtFinal_singleton (r : Except RpcError GetTransactionResponse) :
    StopsAtFinal [⟨.getTransaction hash, r⟩] := by
  intro t₁ h r t₂ ht _
  simp [List.singleton_eq_append_iff] at ht
  exact ht.2.2

/-- What is last in the trace of the loop stays last behind the response it starts from. -/
theorem LoopRun.stopsAtFinal {r : GetTransactionResponse} {t : List Exchange}
    {o : Outcome (Except SorobanUtilsError GetTransactionResponse)}
    (h : LoopRun sdk hash cfg deadline r t o) :
    StopsAtFinal (⟨.getTransaction hash, .ok r⟩ :: t) := by
  induction h with
  | final hs =>
    exact stopsAtFinal_singleton _
  | @waiting r hs t hround =>
    refine stopsAtFinal_append [_] (List.forall_mem_singleton.mpr hs) ?_
    cases hround with
    | reading => exact stopsAtFinal_of_quiet (by simp)
    | sleeping => exact stopsAtFinal_of_quiet (by simp)
    | asking => exact stopsAtFinal_of_quiet (by simp)
  | @failed r hs t e hround =>
    refine stopsAtFinal_append [_] (List.forall_mem_singleton.mpr hs) ?_
    cases hround with
    | timeout => exact stopsAtFinal_of_quiet (by simp)
    | failed clock hclock e =>
      exact stopsAtFinal_append [_, _] (by simp)
        (stopsAtFinal_singleton _)
  | @next r s hs t₁ t₂ o hround _ ih =>
    cases hround with
    | next clock hclock s =>
      exact stopsAtFinal_append [_, _, _] (List.forall_mem_singleton.mpr hs) ih

theorem pollTransactionStatus_stopsAtFinal {t : List Exchange}
    {o : Outcome (Except SorobanUtilsError GetTransactionResponse)}
    (h : Runs (pollTransactionStatus sdk hash cfg).run t o) : StopsAtFinal t := by
  have hquiet (start : Instant) : ∀ x ∈ queryReplies [⟨.now, start⟩], IsNotFound x :=
    List.forall_mem_nil _
  cases runs_pollTransactionStatus.mp h with
  | starting => exact stopsAtFinal_of_quiet (List.forall_mem_nil _)
  | overflow start => exact stopsAtFinal_of_quiet (hquiet start)
  | asking start => exact stopsAtFinal_of_quiet (hquiet start)
  | failed start hstart e => exact stopsAtFinal_append [_] (hquiet start) (stopsAtFinal_singleton _)
  | loop start hstart r hloop => exact stopsAtFinal_append [_] (hquiet start) hloop.stopsAtFinal

/-! ## Polls that end early

The shortest polls, as the runs that the results about whole operations are tried on. -/

section Early

variable {start : Instant} (hstart : start + cfg.timeout.nanos ≤ sdk.instantMax)
include hstart

theorem runs_poll_success {response : GetTransactionResponse} (hs : response.status = .success) :
    Runs (pollTransactionStatus sdk hash cfg).run
      [⟨.now, start⟩, ⟨.getTransaction hash, .ok response⟩] (.returned (.ok response)) := by
  have hfinal : response.status ≠ .notFound := by simp [hs]
  have hrun : PollRun sdk hash cfg _ _ := .loop start hstart response (.final hfinal)
  have hresult : (Except.ok response >>= pollResult hash) = .ok response := by
    change pollResult hash response = _
    rw [pollResult, hs]
  rw [Outcome.map_returned, hresult] at hrun
  exact runs_pollTransactionStatus.mpr hrun

theorem runs_poll_rpcFailed (e : RpcError) :
    Runs (pollTransactionStatus sdk hash cfg).run
      [⟨.now, start⟩, ⟨.getTransaction hash, .error e⟩] (.returned (.error (rpcError sdk e))) :=
  runs_pollTransactionStatus.mpr (.failed start hstart e)

theorem runs_poll_timeout {response : GetTransactionResponse} {clock : Instant}
    (hs : response.status = .notFound) (hclock : start + cfg.timeout.nanos ≤ clock) :
    Runs (pollTransactionStatus sdk hash cfg).run
      [⟨.now, start⟩, ⟨.getTransaction hash, .ok response⟩, ⟨.now, clock⟩]
      (.returned (.error (.timeout hash))) :=
  runs_pollTransactionStatus.mpr
    (.loop start hstart response (.failed hs (.timeout clock hclock)))

end Early

end StellarRustClient
