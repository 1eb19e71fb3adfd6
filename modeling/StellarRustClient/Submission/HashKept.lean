import StellarRustClient.Interaction.Trace
import StellarRustClient.Submission.Paths

/-!
# Whether the hash of a submitted transaction reaches the caller

Once the node has a transaction as pending, the caller can only find out about it through its hash.
A success, `TransactionFailed` and `Timeout` carry the hash. The other exits past the send do not:
an RPC error from a status query is passed on as it is, and a deadline that the clock cannot
represent is a panic.

`hashKept_iff_pollAnswered` says that these are all the ways in which the hash is lost.
-/

namespace StellarRustClient

open Interaction

variable {α β : Type}

/-- What is known of the transaction with hash `h` from the outcome of a run, where a success
carries the hash `hashOf`. A run that is not over has not lost anything yet. -/
def Identifies (hashOf : α → Option String) (h : String) :
    Outcome (Except SorobanUtilsError α) → Prop
  | .running => True
  | .panicked => False
  | .returned (.ok a) => hashOf a = some h
  | .returned (.error (.transactionFailed h' _)) => h' = h
  | .returned (.error (.timeout h')) => h' = h
  | .returned (.error _) => False

theorem identifies_map_iff (hashOf : β → Option String) {h : String} (f : α → β)
    {o : Outcome (Except SorobanUtilsError α)} :
    Identifies hashOf h (o.map (Except.map f)) ↔ Identifies (fun a ↦ hashOf (f a)) h o := by
  rcases o with _ | _ | e | a
  · rfl
  · rfl
  · cases e <;> rfl
  · rfl

variable (sdk : Sdk)

/-- Every transaction that the node answered to be pending is identified by the outcome. -/
def HashKept (hashOf : α → Option String) (t : List Exchange)
    (o : Outcome (Except SorobanUtilsError α)) : Prop :=
  ∀ tx response, ⟨.sendTransaction tx, .ok response⟩ ∈ t → response.status = .pending →
    Identifies hashOf (tx.hexHash sdk) o

/-- Some transaction was answered to be pending. -/
def PendingSend (t : List Exchange) : Prop :=
  ∃ tx response, ⟨.sendTransaction tx, .ok response⟩ ∈ t ∧ response.status = .pending

/-- The poll is answered: no status query fails as a call, and the deadline counted from the clock
after the send is representable. -/
structure PollAnswered (pollCfg : PollConfig) (t : List Exchange) : Prop where
  query : ∀ h e, (⟨.getTransaction h, .error e⟩ : Exchange) ∉ t
  deadline : ∀ t₁ tx r start t₂, t = t₁ ++ ⟨.sendTransaction tx, r⟩ :: ⟨.now, start⟩ :: t₂ →
    start + pollCfg.timeout.nanos ≤ sdk.instantMax

variable {sdk} {networkPassphrase hash : String} {signer : Signer} {prepared : Transaction}
  {pollCfg : PollConfig} {t t₀ : List Exchange}

/-! ## The poll -/

/-- A poll whose replies are all read as responses. -/
private theorem error_notMem {l : List (Except RpcError GetTransactionResponse)}
    (hl : ∀ r ∈ l, IsNotFound r) (e : RpcError) : .error e ∉ l := fun hmem ↦ hl _ hmem

/-- A poll loses its hash exactly when it panics or a query fails as a call. -/
theorem PollOutcome.identifies_iff {l : List (Except RpcError GetTransactionResponse)}
    {o : Outcome (Except SorobanUtilsError GetTransactionResponse)}
    (h : PollOutcome sdk hash l o) :
    Identifies (fun _ ↦ some hash) hash o ↔ o ≠ .panicked ∧ ∀ e, .error e ∉ l := by
  cases h with
  | running hl => exact iff_of_true trivial ⟨by simp, error_notMem hl⟩
  | panicked => exact iff_of_false id fun h ↦ h.1 rfl
  | success hl hs => exact iff_of_true rfl ⟨by simp, by simpa using error_notMem hl⟩
  | failed hl hs => exact iff_of_true rfl ⟨by simp, by simpa using error_notMem hl⟩
  | @rpcFailed l e hl =>
    exact iff_of_false id fun h ↦ h.2 e (List.mem_append_right l (List.mem_singleton_self _))
  | timeout hl hne => exact iff_of_true rfl ⟨by simp, error_notMem hl⟩

/-- A poll keeps its hash exactly when no query of it fails as a call and its deadline is an
instant. -/
theorem identifies_poll_iff {o : Outcome (Except SorobanUtilsError GetTransactionResponse)}
    (hpoll : Runs (pollTransactionStatus sdk hash pollCfg).run t o) :
    Identifies (fun _ ↦ some hash) hash o ↔
      (∀ h e, (⟨.getTransaction h, .error e⟩ : Exchange) ∉ t) ∧
        ∀ start v, t = ⟨.now, start⟩ :: v → start + pollCfg.timeout.nanos ≤ sdk.instantMax := by
  rw [(pollTransactionStatus_spec hpoll).2.identifies_iff, and_comm]
  refine and_congr ⟨fun herror h e hmem ↦ ?_, fun hquery e hmem ↦ ?_⟩
    ⟨fun hpanic start v ht ↦ ?_, fun hdeadline hpanic ↦ ?_⟩
  · exact herror e (mem_queryReplies.mpr ⟨h, hmem⟩)
  · obtain ⟨h, hmem⟩ := mem_queryReplies.mp hmem
    exact hquery h e hmem
  · obtain ⟨rfl, _⟩ | ⟨start', t', rfl, hstart⟩ := runs_pollTransactionStatus_start hpoll
    · cases ht
    · cases ht
      exact Nat.le_of_not_lt fun hlt ↦ hpanic (hstart.mpr hlt)
  · obtain ⟨_, ho⟩ | ⟨start, t', rfl, hstart⟩ := runs_pollTransactionStatus_start hpoll
    · cases ho.symm.trans hpanic
    · exact absurd (hdeadline start t' rfl) (Nat.not_le.mpr (hstart.mp hpanic))

/-! ## One leg -/

section

variable {signed : Transaction} {response : SendTransactionResponse}
  {o : Outcome (Except SorobanUtilsError GetTransactionResponse)}

/-- The poll of a leg is answered when the poll after its send is. -/
theorem pollAnswered_leg_iff
    (hpoll : Runs (pollTransactionStatus sdk (signed.hexHash sdk) pollCfg).run t o) :
    PollAnswered sdk pollCfg (⟨.sign signer prepared networkPassphrase, .ok signed⟩ ::
      ⟨.sendTransaction signed, .ok response⟩ :: t) ↔
      (∀ h e, (⟨.getTransaction h, .error e⟩ : Exchange) ∉ t) ∧
        ∀ start v, t = ⟨.now, start⟩ :: v → start + pollCfg.timeout.nanos ≤ sdk.instantMax := by
  constructor
  · rintro ⟨hquery, hdeadline⟩
    refine ⟨fun h e hmem ↦ ?_, ?_⟩
    · exact hquery h e (List.mem_cons_of_mem _ (List.mem_cons_of_mem _ hmem))
    · rintro start v rfl
      exact hdeadline [_] signed _ start v rfl
  · rintro ⟨hquery, hdeadline⟩
    refine ⟨fun h e hmem ↦ ?_, fun t₁ tx r start t₂ ht ↦ ?_⟩
    · simp only [List.mem_cons] at hmem
      obtain hmem | hmem | hmem := hmem
      · cases hmem
      · cases hmem
      · exact hquery h e hmem
    · -- The clock reading after the send is the one the poll starts with.
      rw [(LegRun.polling signed response hpoll).send_position ht] at ht
      cases ht
      exact hdeadline start t₂ rfl

/-- A leg whose transaction is pending keeps its hash when its poll does. -/
theorem hashKept_leg_iff
    (hpoll : Runs (pollTransactionStatus sdk (signed.hexHash sdk) pollCfg).run t o)
    (hstatus : response.status = .pending) :
    HashKept sdk (fun x ↦ some x.1)
      (⟨.sign signer prepared networkPassphrase, .ok signed⟩ ::
        ⟨.sendTransaction signed, .ok response⟩ :: t)
      (o.map (Except.map fun r ↦ (signed.hexHash sdk, r))) ↔
      Identifies (fun _ ↦ some (signed.hexHash sdk)) (signed.hexHash sdk) o := by
  rw [← identifies_map_iff (fun x ↦ some x.1) fun r ↦ (signed.hexHash sdk, r)]
  constructor
  · intro h
    exact h signed response (by simp) hstatus
  · intro h tx r hmem _
    rw [(eq_of_send_mem hpoll hmem).1]
    exact h

end

theorem LegRun.hashKept_iff {o : SubmissionOutcome}
    (h : LegRun sdk networkPassphrase signer prepared pollCfg t o) :
    HashKept sdk (fun x ↦ some x.1) t o ↔ (PendingSend t → PollAnswered sdk pollCfg t) := by
  cases h with
  | signing => exact iff_of_true (by simp [HashKept]) (by simp [PendingSend])
  | signFailed e => exact iff_of_true (by simp [HashKept]) (by simp [PendingSend])
  | sending signed => exact iff_of_true (by simp [HashKept]) (by simp [PendingSend])
  | sendFailed signed e => exact iff_of_true (by simp [HashKept]) (by simp [PendingSend])
  | @polling signed response t o hpoll =>
    by_cases hstatus : response.status = .pending
    · have hpending : PendingSend (⟨.sign signer prepared networkPassphrase, .ok signed⟩ ::
          ⟨.sendTransaction signed, .ok response⟩ :: t) := ⟨signed, response, by simp, hstatus⟩
      rw [hashKept_leg_iff hpoll hstatus, identifies_poll_iff hpoll, ← pollAnswered_leg_iff hpoll,
        forall_prop_of_true hpending]
    · -- Nothing is pending.
      have hnone {tx : Transaction} {r : SendTransactionResponse}
          (hmem : (⟨.sendTransaction tx, .ok r⟩ : Exchange) ∈
            ⟨.sign signer prepared networkPassphrase, .ok signed⟩ ::
              ⟨.sendTransaction signed, .ok response⟩ :: t) : r.status ≠ .pending := by
        cases (eq_of_send_mem hpoll hmem).2
        exact hstatus
      refine iff_of_true (fun tx r hmem hr ↦ ?_) fun ⟨tx, r, hmem, hr⟩ ↦ ?_
      · exact absurd hr (hnone hmem)
      · exact absurd hr (hnone hmem)

/-! ## Calls before the signature -/

theorem hashKept_append_iff {hashOf : α → Option String}
    {o : Outcome (Except SorobanUtilsError α)} (ht₀ : ∀ x ∈ t₀, IsPreamble x.1) :
    HashKept sdk hashOf (t₀ ++ t) o ↔ HashKept sdk hashOf t o := by
  constructor
  · intro h tx response hmem
    exact h tx response (List.mem_append_right t₀ hmem)
  · intro h tx response hmem
    rcases List.mem_append.mp hmem with hmem | hmem
    · exact (ht₀ _ hmem).elim
    · exact h tx response hmem

theorem pendingSend_append_iff (ht₀ : ∀ x ∈ t₀, IsPreamble x.1) :
    PendingSend (t₀ ++ t) ↔ PendingSend t := by
  constructor
  · rintro ⟨tx, response, hmem, hstatus⟩
    rcases List.mem_append.mp hmem with hmem | hmem
    · exact (ht₀ _ hmem).elim
    · exact ⟨tx, response, hmem, hstatus⟩
  · rintro ⟨tx, response, hmem, hstatus⟩
    exact ⟨tx, response, List.mem_append_right t₀ hmem, hstatus⟩

theorem pollAnswered_append_iff (ht₀ : ∀ x ∈ t₀, IsPreamble x.1) :
    PollAnswered sdk pollCfg (t₀ ++ t) ↔ PollAnswered sdk pollCfg t := by
  constructor
  · intro h
    refine ⟨fun hash e hmem ↦ h.query hash e (List.mem_append_right t₀ hmem), ?_⟩
    intro t₁ tx r start t₂ ht
    exact h.deadline (t₀ ++ t₁) tx r start t₂ (by rw [ht, List.append_assoc])
  · intro h
    refine ⟨fun hash e hmem ↦ ?_, fun t₁ tx r start t₂ ht ↦ ?_⟩
    · rcases List.mem_append.mp hmem with hmem | hmem
      · exact (ht₀ _ hmem).elim
      · exact h.query hash e hmem
    · obtain ⟨a, rfl, _⟩ | ⟨a, _, hv⟩ := append_cons_eq_append_iff.mp ht
      · exact (ht₀ ⟨.sendTransaction tx, r⟩ List.mem_append_cons_self).elim
      · exact h.deadline a tx r start t₂ hv

theorem SubmissionRun.hashKept_iff {o : SubmissionOutcome}
    (h : SubmissionRun sdk networkPassphrase signer pollCfg t o) :
    HashKept sdk (fun x ↦ some x.1) t o ↔ (PendingSend t → PollAnswered sdk pollCfg t) := by
  cases h with
  | unsigned ht =>
    rw [← List.append_nil t, hashKept_append_iff ht, pendingSend_append_iff ht]
    exact iff_of_true (by simp [HashKept]) (by simp [PendingSend])
  | failed ht he =>
    rw [← List.append_nil t, hashKept_append_iff ht, pendingSend_append_iff ht]
    exact iff_of_true (by simp [HashKept]) (by simp [PendingSend])
  | leg ht₀ hleg =>
    rw [hashKept_append_iff ht₀, pendingSend_append_iff ht₀, pollAnswered_append_iff ht₀]
    exact hleg.hashKept_iff

/-! ## Both paths -/

/-- The hash that a successful `submit` carries. -/
def InvokeOutcome.txHash : InvokeOutcome → Option String
  | executed txHash => some txHash
  | skippedNoStateChange _ => none

/-- **Hashes.** A run of either path keeps the hash of a pending transaction exactly when its poll
is answered. -/
theorem hashKept_iff_pollAnswered (sdk : Sdk) :
    (∀ networkPassphrase callerAddress operation fee signer pollCfg t o,
      Runs (prepareAndSend sdk networkPassphrase callerAddress operation fee signer pollCfg).run
          t o →
        (HashKept sdk (fun x ↦ some x.1) t o ↔ (PendingSend t → PollAnswered sdk pollCfg t))) ∧
      ∀ signer networkPassphrase prepared pollCfg t o,
        Runs (submit sdk signer networkPassphrase prepared pollCfg).run t o →
          (HashKept sdk InvokeOutcome.txHash t o ↔
            (PendingSend t → PollAnswered sdk pollCfg t)) := by
  constructor
  · intro networkPassphrase callerAddress operation fee signer pollCfg t o h
    exact (runs_prepareAndSend.mp h).submissionRun.hashKept_iff
  · intro signer networkPassphrase prepared pollCfg t o h
    obtain ⟨o', hleg, rfl⟩ := runs_submit.mp h
    rw [← hleg.submissionRun.hashKept_iff]
    simp only [HashKept, identifies_map_iff, InvokeOutcome.txHash]

/-- A poll whose first query fails as a call. -/
def failedPoll : List Exchange :=
  [⟨.now, 0⟩, ⟨.getTransaction (Transaction.sample.hexHash .sample), .error (.other "")⟩]

theorem runs_failedPoll :
    Runs (pollTransactionStatus .sample (Transaction.sample.hexHash .sample) .default).run
      failedPoll (.returned (.error (.rpc "RPC error"))) :=
  runs_poll_rpcFailed (by decide) _

/-- A poll that sees the transaction succeed. -/
def successfulPoll : List Exchange :=
  [⟨.now, 0⟩, ⟨.getTransaction (Transaction.sample.hexHash .sample), .ok ⟨.success, none⟩⟩]

theorem runs_successfulPoll :
    Runs (pollTransactionStatus .sample (Transaction.sample.hexHash .sample) .default).run
      successfulPoll (.returned (.ok ⟨.success, none⟩)) :=
  runs_poll_success (by decide) rfl

/-- A pending transaction that succeeds is reported with its hash. -/
theorem hashKept_of_success :
    HashKept .sample InvokeOutcome.txHash (sampleLeg .pending successfulPoll)
      (.returned (.ok (.executed (Transaction.sample.hexHash .sample)))) := by
  refine ((hashKept_iff_pollAnswered .sample).2 _ _ _ _ _ _
    (runs_submit_sample runs_successfulPoll)).mpr fun _ ↦ ⟨?_, fun t₁ tx r start t₂ ht ↦ ?_⟩
  · simp [sampleLeg, successfulPoll]
  · simp only [sampleLeg, successfulPoll, cons_eq_append_cons_iff] at ht
    simp at ht
    rw [ht.2.2.1]
    decide

/-- After a failed status query both paths report an RPC error for a transaction that the node has
as pending. -/
theorem pending_hash_is_lost :
    (Runs (prepareAndSend .sample NetworkConfig.testnet.networkPassphrase "G" .restoreFootprint 100
        .sample .default).run
        (⟨.getAccount "G", .ok ⟨"G", 7⟩⟩ :: ⟨.prepareTransaction .sample, .ok .sample⟩ ::
          sampleLeg .pending failedPoll)
        (.returned (.error (.rpc "RPC error"))) ∧
      ¬ HashKept (α := String × GetTransactionResponse) .sample (fun x ↦ some x.1)
        (⟨.getAccount "G", .ok ⟨"G", 7⟩⟩ :: ⟨.prepareTransaction .sample, .ok .sample⟩ ::
          sampleLeg .pending failedPoll)
        (.returned (.error (.rpc "RPC error")))) ∧
    Runs (submit .sample .sample NetworkConfig.testnet.networkPassphrase .sample .default).run
        (sampleLeg .pending failedPoll) (.returned (.error (.rpc "RPC error"))) ∧
      ¬ HashKept .sample InvokeOutcome.txHash (sampleLeg .pending failedPoll)
        (.returned (.error (.rpc "RPC error"))) := by
  refine ⟨⟨runs_prepareAndSend_sample runs_failedPoll, fun h ↦ ?_⟩,
    runs_submit_sample runs_failedPoll, fun h ↦ ?_⟩
  · exact h .sample ⟨.pending, Transaction.sample.hexHash .sample⟩ (by simp [sampleLeg]) rfl
  · exact h .sample ⟨.pending, Transaction.sample.hexHash .sample⟩ (by simp [sampleLeg]) rfl

end StellarRustClient
