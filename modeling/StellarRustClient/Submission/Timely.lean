import Mathlib.Algebra.Order.Floor.Div
import StellarRustClient.Interaction.Productive
import StellarRustClient.Sdk.Sample
import StellarRustClient.Submission.Poll

/-!
# A poll against the clock

`Chronicle.world` is the poll's environment with the time in it: reading the clock takes no time,
sleeping takes at least what was asked for, a status query takes any time and reports the status at
the moment of its reply, and a query can fail at any moment.

Between two queries the loop sleeps once, and it only sleeps before the deadline. So the replies are
an interval apart, which bounds their number (`LoopRun.spaced`). The clock is read after a reply and
before the next sleep, so the reply that a timeout is decided on was itself received at or after the
deadline (`LoopRun.ended`): a transaction that is final by then is seen.
-/

namespace StellarRustClient

open Interaction

/-! ## Time -/

/-- The status of every transaction at every moment. A final status stays. -/
structure Chronicle where
  status : String → Instant → TransactionStatus
  final : ∀ {hash s s'}, status hash s ≠ .notFound → s ≤ s' → status hash s' = status hash s

/-- An exchange that starts at `s` and is over at `s'`. -/
def Chronicle.step (c : Chronicle) (s : Instant) (x : Exchange) (s' : Instant) : Prop :=
  match x with
  | ⟨.now, clock⟩ => clock = s ∧ s' = s
  | ⟨.sleep duration, _⟩ => s + duration.nanos ≤ s'
  | ⟨.getTransaction hash, .ok response⟩ => s ≤ s' ∧ response.status = c.status hash s'
  | _ => s ≤ s'

/-- The environment of a poll. Nothing happens to the time but in the exchanges. -/
def Chronicle.world (c : Chronicle) : World Call Reply Instant where
  drift := Eq
  step := c.step

/-- A trace with the time at which each exchange was over. -/
abbrev Timed := Stamped Call Reply Instant

/-- The replies to `get_transaction`, each with the time at which it was received. -/
def timedReplies (l : Timed) : List (Instant × Except RpcError GetTransactionResponse) :=
  l.filterMap fun y ↦ (queryReply y.1).map fun r ↦ (y.2, r)

variable {c : Chronicle} {s s' : Instant} {l : Timed}

@[simp] theorem Chronicle.takes_iff {x : Exchange} : c.world.Takes s x s' ↔ c.step s x s' := by
  constructor
  · rintro ⟨_, rfl, h⟩
    exact h
  · intro h
    exact ⟨s, rfl, h⟩

theorem Chronicle.keeps_cons {x : Exchange} :
    c.world.Keeps s ((x, s') :: l) ↔ c.step s x s' ∧ c.world.Keeps s' l :=
  and_congr_left' Chronicle.takes_iff

theorem map_snd_timedReplies : (timedReplies l).map Prod.snd = queryReplies l.trace := by
  rw [timedReplies, queryReplies, Stamped.trace, List.map_filterMap, List.filterMap_map]
  congr 1
  funext y
  rw [Option.map_map]
  exact Option.map_id' ..

/-! ### One exchange -/

section

variable {hash : String} {t : List Exchange}

theorem keeps_now {clock : Instant} (hl : l.trace = ⟨.now, clock⟩ :: t)
    (hkeeps : c.world.Keeps s l) :
    ∃ l', l'.trace = t ∧ timedReplies l = timedReplies l' ∧ c.world.Keeps s l' ∧ clock = s := by
  obtain ⟨s', l', rfl, htrace⟩ := Stamped.trace_eq_cons_iff.mp hl
  obtain ⟨⟨rfl, rfl⟩, hrest⟩ := Chronicle.keeps_cons.mp hkeeps
  exact ⟨l', htrace, rfl, hrest, rfl⟩

theorem keeps_sleep {duration : Duration} (hl : l.trace = ⟨.sleep duration, ()⟩ :: t)
    (hkeeps : c.world.Keeps s l) :
    ∃ s' l', l'.trace = t ∧ timedReplies l = timedReplies l' ∧ c.world.Keeps s' l' ∧
      s + duration.nanos ≤ s' := by
  obtain ⟨s', l', rfl, htrace⟩ := Stamped.trace_eq_cons_iff.mp hl
  obtain ⟨hsleep, hrest⟩ := Chronicle.keeps_cons.mp hkeeps
  exact ⟨s', l', htrace, rfl, hrest, hsleep⟩

theorem keeps_query {r : Except RpcError GetTransactionResponse}
    (hl : l.trace = ⟨.getTransaction hash, r⟩ :: t) (hkeeps : c.world.Keeps s l) :
    ∃ s' l', l'.trace = t ∧ timedReplies l = (s', r) :: timedReplies l' ∧
      c.world.Keeps s' l' ∧ s ≤ s' := by
  obtain ⟨s', l', rfl, htrace⟩ := Stamped.trace_eq_cons_iff.mp hl
  obtain ⟨hquery, hrest⟩ := Chronicle.keeps_cons.mp hkeeps
  cases r with
  | error e => exact ⟨s', l', htrace, rfl, hrest, hquery⟩
  | ok response => exact ⟨s', l', htrace, rfl, hrest, hquery.1⟩

theorem timedReplies_of_trace_eq_nil (hl : l.trace = []) : timedReplies l = [] := by
  rw [Stamped.trace_eq_nil_iff.mp hl]
  rfl

end

/-! ## The spacing of the replies -/

variable {sdk : Sdk} {hash : String} {cfg : PollConfig} {deadline : Instant}

/-- A round whose query is answered: it starts before the deadline, and the reply is received an
interval later. -/
private theorem keeps_round {clock : Instant} {r : Except RpcError GetTransactionResponse}
    {t : List Exchange} (hl : l.trace = ⟨.now, clock⟩ :: ⟨.sleep cfg.interval, ()⟩ ::
      ⟨.getTransaction hash, r⟩ :: t) (hkeeps : c.world.Keeps s l) :
    ∃ s' l', l'.trace = t ∧ timedReplies l = (s', r) :: timedReplies l' ∧
      c.world.Keeps s' l' ∧ clock = s ∧ s + cfg.interval.nanos ≤ s' := by
  obtain ⟨l₁, hl₁, heq₁, hkeeps₁, rfl⟩ := keeps_now hl hkeeps
  obtain ⟨s₂, l₂, hl₂, heq₂, hkeeps₂, hsleep⟩ := keeps_sleep hl₁ hkeeps₁
  obtain ⟨s₃, l₃, hl₃, heq₃, hkeeps₃, hquery⟩ := keeps_query hl₂ hkeeps₂
  refine ⟨s₃, l₃, hl₃, ?_, hkeeps₃, rfl, hsleep.trans hquery⟩
  rw [heq₁, heq₂, heq₃]

/-- A round that is not over has no reply. -/
theorem RoundRun.timedReplies_of_running {t : List Exchange}
    (h : RoundRun sdk hash cfg deadline t .running) (hl : l.trace = t)
    (hkeeps : c.world.Keeps s l) : timedReplies l = [] := by
  cases h with
  | reading => exact timedReplies_of_trace_eq_nil hl
  | sleeping clock hclock =>
    obtain ⟨l₁, hl₁, heq₁, -⟩ := keeps_now hl hkeeps
    rw [heq₁, timedReplies_of_trace_eq_nil hl₁]
  | asking clock hclock =>
    obtain ⟨l₁, hl₁, heq₁, hkeeps₁, -⟩ := keeps_now hl hkeeps
    obtain ⟨s₂, l₂, hl₂, heq₂, -⟩ := keeps_sleep hl₁ hkeeps₁
    rw [heq₁, heq₂, timedReplies_of_trace_eq_nil hl₂]

/-- **Spacing.** The last of `m + 1` replies that follow a response received at `s` is asked for in
a round that begins before the deadline, with `m` intervals behind it. -/
theorem LoopRun.spaced {r : GetTransactionResponse} {t : List Exchange}
    {o : Outcome (Except SorobanUtilsError GetTransactionResponse)}
    (h : LoopRun sdk hash cfg deadline r t o) (hl : l.trace = t) (hkeeps : c.world.Keeps s l) :
    ∀ m, (timedReplies l).length = m + 1 → s + m * cfg.interval.nanos < deadline := by
  induction h generalizing s l with
  | final hs =>
    intro m hm
    rw [timedReplies_of_trace_eq_nil hl] at hm
    cases hm
  | waiting hs hround =>
    intro m hm
    rw [hround.timedReplies_of_running hl hkeeps] at hm
    cases hm
  | failed hs hround =>
    intro m hm
    cases hround with
    | timeout clock hclock =>
      obtain ⟨l₁, hl₁, heq₁, -⟩ := keeps_now hl hkeeps
      rw [heq₁, timedReplies_of_trace_eq_nil hl₁] at hm
      cases hm
    | failed clock hclock e =>
      obtain ⟨s', l', hl', heq, -, rfl, -⟩ := keeps_round hl hkeeps
      rw [heq, timedReplies_of_trace_eq_nil hl'] at hm
      obtain rfl : m = 0 := by simpa using hm.symm
      simpa using hclock
  | next hs hround _ ih =>
    intro m hm
    cases hround with
    | next clock hclock response =>
      obtain ⟨s', l', hl', heq, hkeeps', rfl, hinterval⟩ := keeps_round hl hkeeps
      rw [heq, List.length_cons, Nat.add_right_cancel_iff] at hm
      cases m with
      | zero => simpa using hclock
      | succ m =>
        -- The next reply is received an interval later, and the rest is spaced from there.
        calc clock + (m + 1) * cfg.interval.nanos
            = clock + cfg.interval.nanos + m * cfg.interval.nanos := by
              rw [Nat.succ_mul, Nat.add_comm (m * _), Nat.add_assoc]
          _ ≤ s' + m * cfg.interval.nanos := Nat.add_le_add_right hinterval _
          _ < deadline := ih hl' hkeeps' m hm

/-! ## The last reply -/

variable (sdk hash deadline) in
/-- How a loop ends on a reply received at `s`. -/
inductive EndsOn : Instant → Except RpcError GetTransactionResponse →
    Except SorobanUtilsError GetTransactionResponse → Prop
  | failed (s : Instant) (e : RpcError) : EndsOn s (.error e) (.error (rpcError sdk e))
  | final (s : Instant) {r : GetTransactionResponse} (hs : r.status ≠ .notFound) :
      EndsOn s (.ok r) (pollResult hash r)
  | timeout {s : Instant} {r : GetTransactionResponse} (hs : r.status = .notFound)
      (hlate : deadline ≤ s) : EndsOn s (.ok r) (.error (.timeout hash))

variable (sdk hash deadline) in
/-- The replies of a poll that has returned `x`: early and `NotFound` ones, and the one that decides
the result. -/
def Decided (x : Except SorobanUtilsError GetTransactionResponse)
    (l : List (Instant × Except RpcError GetTransactionResponse)) : Prop :=
  ∃ u s r, l = u ++ [(s, r)] ∧ (∀ y ∈ u, y.1 < deadline ∧ IsNotFound y.2) ∧
    EndsOn sdk hash deadline s r x

theorem Decided.cons {x : Except SorobanUtilsError GetTransactionResponse}
    {l : List (Instant × Except RpcError GetTransactionResponse)}
    {r : Except RpcError GetTransactionResponse} (h : Decided sdk hash deadline x l)
    (hearly : s < deadline) (hr : IsNotFound r) : Decided sdk hash deadline x ((s, r) :: l) := by
  obtain ⟨u, s', r', rfl, hu, hends⟩ := h
  exact ⟨(s, r) :: u, s', r', rfl, List.forall_mem_cons.mpr ⟨⟨hearly, hr⟩, hu⟩, hends⟩

/-- The response under inspection was received at `s`, and the loop goes on from there to the reply
that ends it. -/
theorem LoopRun.decided {r : GetTransactionResponse} {t : List Exchange}
    {o : Outcome (Except SorobanUtilsError GetTransactionResponse)}
    {x : Except SorobanUtilsError GetTransactionResponse}
    (h : LoopRun sdk hash cfg deadline r t o) (hl : l.trace = t) (hkeeps : c.world.Keeps s l)
    (ho : o.map (· >>= pollResult hash) = .returned x) :
    Decided sdk hash deadline x ((s, .ok r) :: timedReplies l) := by
  induction h generalizing s l with
  | final hs =>
    rw [timedReplies_of_trace_eq_nil hl]
    obtain rfl := Outcome.returned.inj ho
    exact ⟨[], s, _, rfl, by simp, .final s hs⟩
  | waiting => cases ho
  | failed hs hround =>
    obtain rfl := Outcome.returned.inj ho
    cases hround with
    | timeout clock hclock =>
      obtain ⟨l₁, hl₁, heq₁, -, rfl⟩ := keeps_now hl hkeeps
      rw [heq₁, timedReplies_of_trace_eq_nil hl₁]
      exact ⟨[], clock, _, rfl, by simp, .timeout hs hclock⟩
    | failed clock hclock e =>
      obtain ⟨s', l', hl', heq, -, rfl, -⟩ := keeps_round hl hkeeps
      rw [heq, timedReplies_of_trace_eq_nil hl']
      exact Decided.cons ⟨[], s', _, rfl, by simp, .failed s' e⟩ hclock hs
  | next hs hround _ ih =>
    cases hround with
    | next clock hclock response =>
      obtain ⟨s', l', hl', heq, hkeeps', rfl, -⟩ := keeps_round hl hkeeps
      rw [heq]
      exact (ih hl' hkeeps' ho).cons hclock hs

/-! ## What the result says of the replies -/

/-- `r` is the first reply that is not `NotFound`. -/
def FirstAnswer (r : Except RpcError GetTransactionResponse)
    (l : List (Instant × Except RpcError GetTransactionResponse)) : Prop :=
  ∃ u s v, l = u ++ (s, r) :: v ∧ (∀ y ∈ u, IsNotFound y.2) ∧ ¬IsNotFound r

/-- The replies up to the first one that is received at or after the deadline, that one included,
are `NotFound`. -/
def TimedOut (deadline : Instant)
    (l : List (Instant × Except RpcError GetTransactionResponse)) : Prop :=
  ∃ u s r v, l = u ++ (s, r) :: v ∧ (∀ y ∈ u, y.1 < deadline) ∧ deadline ≤ s ∧
    ∀ y ∈ u ++ [(s, r)], IsNotFound y.2

variable (sdk hash deadline) in
/-- The result of a poll, case by case, from the replies it got. -/
structure PollLaw (x : Except SorobanUtilsError GetTransactionResponse)
    (l : List (Instant × Except RpcError GetTransactionResponse)) : Prop where
  ok_iff : ∀ response, x = .ok response ↔ FirstAnswer (.ok response) l ∧ response.status = .success
  failed_iff : ∀ h status, x = .error (.transactionFailed h status) ↔ h = hash ∧
    ∃ response, FirstAnswer (.ok response) l ∧ response.status ≠ .success ∧
      status = response.status.debug
  rpc_iff : ∀ msg, x = .error (.rpc msg) ↔
    ∃ e, FirstAnswer (.error e) l ∧ msg = sdk.displayRpcError e
  timeout_iff : ∀ h, x = .error (.timeout h) ↔ h = hash ∧ TimedOut deadline l
  /-- At least one query is made. -/
  asked : l ≠ []

section

variable {u : List (Instant × Except RpcError GetTransactionResponse)}
  {r : Except RpcError GetTransactionResponse}

theorem firstAnswer_iff (hu : ∀ y ∈ u, IsNotFound y.2)
    {r' : Except RpcError GetTransactionResponse} :
    FirstAnswer r' (u ++ [(s, r)]) ↔ r' = r ∧ ¬IsNotFound r := by
  constructor
  · rintro ⟨u', s', v, heq, hu', hr'⟩
    obtain ⟨a, rfl, -⟩ | ⟨a, rfl, ha⟩ := append_cons_eq_append_iff.mp heq
    · exact absurd (hu (s', r') List.mem_append_cons_self) hr'
    · simp only [List.singleton_eq_append_iff, reduceCtorEq, and_false, or_false,
        List.cons.injEq, Prod.mk.injEq] at ha
      obtain ⟨-, ⟨-, rfl⟩, -⟩ := ha
      exact ⟨rfl, hr'⟩
  · rintro ⟨rfl, hr⟩
    exact ⟨u, s, [], rfl, hu, hr⟩

theorem timedOut_iff (hu : ∀ y ∈ u, y.1 < deadline ∧ IsNotFound y.2) :
    TimedOut deadline (u ++ [(s, r)]) ↔ deadline ≤ s ∧ IsNotFound r := by
  constructor
  · rintro ⟨u', s', r', v, heq, -, hlate, hquiet⟩
    obtain ⟨a, rfl, -⟩ | ⟨a, rfl, ha⟩ := append_cons_eq_append_iff.mp heq
    · exact absurd (hu (s', r') List.mem_append_cons_self).1 (Nat.not_lt.mpr hlate)
    · simp only [List.singleton_eq_append_iff, reduceCtorEq, and_false, or_false,
        List.cons.injEq, Prod.mk.injEq] at ha
      obtain ⟨-, ⟨rfl, rfl⟩, -⟩ := ha
      exact ⟨hlate, hquiet _ (List.mem_append_right _ (List.mem_singleton_self _))⟩
  · rintro ⟨hlate, hr⟩
    refine ⟨u, s, r, [], rfl, fun y hy ↦ (hu y hy).1, hlate, ?_⟩
    exact List.forall_mem_append.mpr ⟨fun y hy ↦ (hu y hy).2, List.forall_mem_singleton.mpr hr⟩

end

theorem Decided.pollLaw {x : Except SorobanUtilsError GetTransactionResponse}
    {l : List (Instant × Except RpcError GetTransactionResponse)}
    (h : Decided sdk hash deadline x l) : PollLaw sdk hash deadline x l := by
  obtain ⟨u, s, r, rfl, hu, hends⟩ := h
  have hfirst (r' : Except RpcError GetTransactionResponse) :
      FirstAnswer r' (u ++ [(s, r)]) ↔ r' = r ∧ ¬IsNotFound r :=
    firstAnswer_iff fun y hy ↦ (hu y hy).2
  have htimedOut := timedOut_iff (s := s) (r := r) hu
  cases hends with
  | failed e =>
    refine ⟨?_, ?_, ?_, ?_, by simp⟩ <;>
      simp [hfirst, htimedOut, rpcError, IsNotFound, eq_comm]
  | @final r hs =>
    cases hst : r.status with
    | notFound => exact absurd hst hs
    | success =>
      have hresult : pollResult hash r = .ok r := by
        rw [pollResult, hst]
      rw [hresult]
      refine ⟨fun response ↦ ?_, ?_, ?_, ?_, by simp⟩
      · simp only [hfirst, Except.ok.injEq]
        constructor
        · rintro rfl
          exact ⟨⟨rfl, hs⟩, hst⟩
        · rintro ⟨⟨rfl, -⟩, -⟩
          rfl
      · simp [hfirst, IsNotFound, hst]
      · simp [hfirst]
      · simp [htimedOut, IsNotFound, hst]
    | failed =>
      have hresult : pollResult hash r =
          .error (.transactionFailed hash (TransactionStatus.debug .failed)) := by
        rw [pollResult, hst]
      rw [hresult]
      refine ⟨?_, ?_, ?_, ?_, by simp⟩
      · simp [hfirst, IsNotFound, hst]
      · simp [hfirst, IsNotFound, hst, eq_comm]
      · simp [hfirst]
      · simp [htimedOut, IsNotFound, hst]
  | timeout hs hlate =>
    refine ⟨?_, ?_, ?_, ?_, by simp⟩ <;>
      simp [hfirst, htimedOut, IsNotFound, hs, hlate, eq_comm]

/-! ## The number of queries -/

/-- A positive number of intervals that begin before the timeout is over. -/
private theorem lt_ceilDiv {m interval timeout : ℕ} (hinterval : 0 < interval)
    (h : m * interval < timeout) : m < timeout ⌈/⌉ interval := by
  by_contra hle
  have htimeout : timeout ≤ interval * m :=
    (ceilDiv_le_iff_le_mul hinterval).mp (Nat.le_of_not_lt hle)
  rw [Nat.mul_comm] at htimeout
  exact absurd h (Nat.not_lt.mpr htimeout)

/-- An interval apart, the replies to the queries before the deadline are limited in number. -/
theorem PollRun.length_timedReplies_le {start : Instant} {t : List Exchange}
    {o : Outcome (Except SorobanUtilsError GetTransactionResponse)}
    (h : PollRun sdk hash cfg t o) (hl : l.trace = t) (hkeeps : c.world.Keeps start l)
    (hinterval : 0 < cfg.interval.nanos) :
    (timedReplies l).length ≤ cfg.timeout.nanos ⌈/⌉ cfg.interval.nanos + 1 := by
  cases h with
  | starting => rw [timedReplies_of_trace_eq_nil hl]; exact Nat.zero_le _
  | overflow =>
    obtain ⟨l₁, hl₁, heq₁, -⟩ := keeps_now hl hkeeps
    rw [heq₁, timedReplies_of_trace_eq_nil hl₁]
    exact Nat.zero_le _
  | asking =>
    obtain ⟨l₁, hl₁, heq₁, -⟩ := keeps_now hl hkeeps
    rw [heq₁, timedReplies_of_trace_eq_nil hl₁]
    exact Nat.zero_le _
  | failed =>
    obtain ⟨l₁, hl₁, heq₁, hkeeps₁, -⟩ := keeps_now hl hkeeps
    obtain ⟨s₂, l₂, hl₂, heq₂, -⟩ := keeps_query hl₁ hkeeps₁
    rw [heq₁, heq₂, timedReplies_of_trace_eq_nil hl₂]
    exact Nat.le_add_left _ _
  | loop start hstart r hloop =>
    obtain ⟨l₁, hl₁, heq₁, hkeeps₁, rfl⟩ := keeps_now hl hkeeps
    obtain ⟨s₂, l₂, hl₂, heq₂, hkeeps₂, hle⟩ := keeps_query hl₁ hkeeps₁
    rw [heq₁, heq₂, List.length_cons, Nat.add_le_add_iff_right]
    cases hn : (timedReplies l₂).length with
    | zero => exact Nat.zero_le _
    | succ m =>
      have hspaced := hloop.spaced hl₂ hkeeps₂ m hn
      have hlt : m * cfg.interval.nanos < cfg.timeout.nanos :=
        Nat.lt_of_add_lt_add_left ((Nat.add_le_add_right hle _).trans_lt hspaced)
      exact lt_ceilDiv hinterval hlt

/-- No more than the two calls of a round that is not over come without a reply to a query. -/
theorem LoopRun.length_le {r : GetTransactionResponse} {t : List Exchange}
    {o : Outcome (Except SorobanUtilsError GetTransactionResponse)}
    (h : LoopRun sdk hash cfg deadline r t o) : t.length ≤ 3 * (queryReplies t).length + 2 := by
  induction h with
  | final hs => exact Nat.zero_le _
  | waiting hs hround => cases hround <;> simp
  | failed hs hround => cases hround <;> simp
  | next hs hround _ ih =>
    cases hround with
    | next clock hclock response =>
      simp only [queryReplies_append, queryReplies_now, queryReplies_sleep, queryReplies_query,
        queryReplies_nil, List.length_append, List.length_cons, List.length_nil]
      omega

theorem PollRun.length_le {t : List Exchange}
    {o : Outcome (Except SorobanUtilsError GetTransactionResponse)}
    (h : PollRun sdk hash cfg t o) : t.length ≤ 3 * (queryReplies t).length + 1 := by
  cases h with
  | starting => exact Nat.zero_le _
  | overflow => simp
  | asking => simp
  | failed => simp
  | loop start hstart r hloop =>
    have hle := hloop.length_le
    simp only [queryReplies_now, queryReplies_query, List.length_cons]
    omega

/-- The loop makes a call in every round that is followed by another one. -/
theorem productive_pollTransactionStatus :
    (pollTransactionStatus sdk hash cfg).run.Productive := by
  rw [pollTransactionStatus]
  refine .except_bind (.ask _ _) fun start ↦ .except_bind ?_ fun deadline ↦
    .except_bind (.ask _ _) fun response ↦ .except_bind (.iterate ?_ ?_ response) fun response ↦ ?_
  · rw [instantAdd]
    split
    · exact .pure _
    · exact .crash _
  · intro response
    rw [pollRound]
    split
    · refine .except_bind (.ask _ _) fun clock ↦ ?_
      split
      · exact .throw _
      · exact .except_bind (.ask _ _) fun _ ↦ .except_bind (.ask _ _) fun _ ↦ .pure _
    · exact .pure _
  · intro response response' hround
    by_cases hs : response.status = .notFound
    · cases (runs_pollRound hs).mp hround
    · rw [pollRound_of_final hs] at hround
      cases (runs_pure.mp hround).2
  · split
    · exact .pure _
    · exact .throw _

/-! ## Correctness and termination -/

variable (sdk hash cfg) in
/-- A run of a poll that starts at `start`. -/
structure Timely (c : Chronicle) (start : Instant) (l : Timed)
    (o : Outcome (Except SorobanUtilsError GetTransactionResponse)) : Prop where
  length_le : (timedReplies l).length ≤ cfg.timeout.nanos ⌈/⌉ cfg.interval.nanos + 1
  ne_panicked : o ≠ .panicked
  law : ∀ x, o = .returned x →
    PollLaw sdk hash (start + cfg.timeout.nanos) x (timedReplies l)
  /-- What is final at the deadline does not time out. -/
  seen : c.status hash (start + cfg.timeout.nanos) ≠ .notFound → ∀ h,
    o ≠ .returned (.error (.timeout h))

theorem PollRun.decided {start : Instant} {t : List Exchange}
    {o : Outcome (Except SorobanUtilsError GetTransactionResponse)}
    {x : Except SorobanUtilsError GetTransactionResponse} (h : PollRun sdk hash cfg t o)
    (hl : l.trace = t) (hkeeps : c.world.Keeps start l) (ho : o = .returned x) :
    Decided sdk hash (start + cfg.timeout.nanos) x (timedReplies l) := by
  cases h with
  | failed start' hstart e =>
    obtain ⟨l₁, hl₁, heq₁, hkeeps₁, -⟩ := keeps_now hl hkeeps
    obtain ⟨s₂, l₂, hl₂, heq₂, -⟩ := keeps_query hl₁ hkeeps₁
    rw [heq₁, heq₂, timedReplies_of_trace_eq_nil hl₂]
    obtain rfl := Outcome.returned.inj ho
    exact ⟨[], s₂, _, rfl, by simp, .failed s₂ e⟩
  | loop start' hstart r hloop =>
    obtain ⟨l₁, hl₁, heq₁, hkeeps₁, rfl⟩ := keeps_now hl hkeeps
    obtain ⟨s₂, l₂, hl₂, heq₂, hkeeps₂, -⟩ := keeps_query hl₁ hkeeps₁
    rw [heq₁, heq₂]
    exact hloop.decided hl₂ hkeeps₂ ho
  | _ => cases ho

/-- A poll that starts where its deadline is an instant does not panic. -/
theorem PollRun.not_panicked {start : Instant} {t : List Exchange}
    (h : PollRun sdk hash cfg t .panicked) (hl : l.trace = t) (hkeeps : c.world.Keeps start l)
    (hdeadline : start + cfg.timeout.nanos ≤ sdk.instantMax) : False := by
  generalize ho : (Outcome.panicked : Outcome (Except SorobanUtilsError _)) = o at h
  cases h with
  | overflow start' hstart =>
    obtain ⟨-, -, -, -, rfl⟩ := keeps_now hl hkeeps
    exact Nat.not_le.mpr hstart hdeadline
  | loop start' hstart r hloop => exact hloop.ne_panicked (Outcome.map_eq_panicked.mp ho.symm)
  | _ => cases ho

/-- A response carries the status at the time it was received. -/
theorem status_of_mem_timedReplies {start : Instant} {r : GetTransactionResponse}
    (hkeeps : c.world.Keeps start l) (hpolls : ∀ x ∈ l.trace, IsPollCall hash x.1)
    (hmem : (s, .ok r) ∈ timedReplies l) : r.status = c.status hash s := by
  obtain ⟨⟨⟨call, reply⟩, s'⟩, hy, heq⟩ := List.mem_filterMap.mp hmem
  have hcall := hpolls _ (List.mem_map_of_mem hy)
  obtain ⟨s₁, htakes⟩ := hkeeps.exists_takes hy
  cases call with
  | getTransaction h =>
    simp only [queryReply, Option.map_some, Option.some.injEq, Prod.mk.injEq] at heq
    obtain ⟨rfl, rfl⟩ := heq
    obtain rfl : h = hash := hcall
    exact (Chronicle.takes_iff.mp htakes).2
  | _ => simp [queryReply] at heq

/-- **Polling in time.** Every run of a poll keeps to the bound on its queries and to the law of its
results, and in every environment that goes on answering the poll returns. -/
theorem pollTransactionStatus_timely {start : Instant} (c : Chronicle)
    (hinterval : 0 < cfg.interval.nanos)
    (hdeadline : start + cfg.timeout.nanos ≤ sdk.instantMax) :
    (∀ l o, c.world.Keeps start l → Runs (pollTransactionStatus sdk hash cfg).run l.trace o →
      Timely sdk hash cfg c start l o) ∧
    ∀ answer, c.world.Serves start answer → ∃ l x, Answered answer l ∧
      Runs (pollTransactionStatus sdk hash cfg).run l.trace (.returned x) := by
  have htimely (l : Timed) (o : Outcome (Except SorobanUtilsError GetTransactionResponse))
      (hkeeps : c.world.Keeps start l)
      (hrun : Runs (pollTransactionStatus sdk hash cfg).run l.trace o) :
      Timely sdk hash cfg c start l o := by
    have hpoll := runs_pollTransactionStatus.mp hrun
    have hlaw (x) (ho : o = .returned x) :=
      (hpoll.decided rfl hkeeps ho).pollLaw
    refine ⟨hpoll.length_timedReplies_le rfl hkeeps hinterval, ?_, hlaw, fun hfinal h ho ↦ ?_⟩
    · rintro rfl
      exact hpoll.not_panicked rfl hkeeps hdeadline
    · -- The reply that the timeout is decided on came at or after the deadline.
      obtain ⟨-, u, s, r, v, hl, -, hlate, hquiet⟩ := ((hlaw _ ho).timeout_iff h).mp rfl
      have hr : IsNotFound r :=
        hquiet (s, r) (List.mem_append_right u (List.mem_singleton_self _))
      cases r with
      | error e => exact hr
      | ok response =>
        have hstatus := status_of_mem_timedReplies hkeeps (pollTransactionStatus_spec hrun).1
          (hl ▸ List.mem_append_cons_self)
        rw [c.final hfinal hlate] at hstatus
        exact hfinal (hstatus.symm.trans hr)
  refine ⟨htimely, fun answer hserves ↦ ?_⟩
  -- The bound on the replies bounds the whole trace, so going on ends in a result.
  refine exists_returned (n := 3 * (cfg.timeout.nanos ⌈/⌉ cfg.interval.nanos + 1) + 1)
    productive_pollTransactionStatus fun l o hl hrun ↦ ?_
  obtain ⟨hle, hne, -, -⟩ := htimely l o (hl.keeps hserves) hrun
  refine ⟨?_, hne⟩
  have hlength := (runs_pollTransactionStatus.mp hrun).length_le
  rw [← map_snd_timedReplies, List.length_map, Stamped.trace, List.length_map] at hlength
  omega

/-! ## An environment that answers at once -/

instance : Inhabited RpcError := ⟨.other ""⟩

instance : Inhabited SorobanUtilsError := ⟨.missingReturnValue⟩

instance (call : Call) : Inhabited (Reply call) := by
  cases call <;> exact inferInstance

/-- Every call is answered as soon as the world allows it. -/
def Chronicle.promptly (c : Chronicle) (start : Instant) : Answers Call Reply Instant :=
  fun l call ↦ match call with
  | .now => (l.last start, l.last start)
  | .sleep duration => ((), l.last start + duration.nanos)
  | .getTransaction hash => (.ok ⟨c.status hash (l.last start), none⟩, l.last start)
  | _ => (default, l.last start)

theorem Chronicle.serves_promptly (c : Chronicle) (start : Instant) :
    c.world.Serves start (c.promptly start) := by
  intro l call _
  rw [Chronicle.takes_iff]
  cases call with
  | now => exact ⟨rfl, rfl⟩
  | sleep duration => exact le_rfl
  | getTransaction hash => exact ⟨le_rfl, rfl⟩
  | _ => exact le_rfl

/-- A transaction that is final five seconds after the clock was started. -/
def Chronicle.sample : Chronicle where
  status _ s := if s < 5000000000 then .notFound else .success
  final := by
    intro hash s s' hs hle
    split at hs
    · exact absurd rfl hs
    · rename_i hlate
      rw [if_neg hlate, if_neg fun h ↦ hlate (hle.trans_lt h)]

/-- With the default configuration the poll for it returns, and does so in time. -/
theorem timely_promptly : ∃ l x, Answered (Chronicle.sample.promptly 0) l ∧
    Runs (pollTransactionStatus .sample "ab" .default).run l.trace (.returned x) ∧
    Timely .sample "ab" .default .sample 0 l (.returned x) := by
  obtain ⟨htimely, hreturns⟩ :=
    @pollTransactionStatus_timely .sample "ab" .default 0 .sample (by decide) (by decide)
  obtain ⟨l, x, hl, hrun⟩ := hreturns _ (Chronicle.sample.serves_promptly 0)
  exact ⟨l, x, hl, hrun, htimely l _ (hl.keeps (Chronicle.sample.serves_promptly 0)) hrun⟩

end StellarRustClient
