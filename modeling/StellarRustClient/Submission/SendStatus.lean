import StellarRustClient.Interaction.Trace
import StellarRustClient.Submission.Paths

/-!
# What the node said to the submission

`send_transaction` succeeds as a call whatever the node decided about the transaction; the decision
is the status in the reply. Neither submission path looks at it. The poll loop is entered for a
transaction that the node refused, and since such a transaction never turns up, the loop ends with
the error of a transaction that is still in flight.

`pollsOnlyAccepted_iff_neverRejected` says when a run of either path keeps to what is expected of
it: exactly when no reply of the run carries a refusal, and no signer makes up a timeout of its own.
-/

namespace StellarRustClient

open Interaction

/-- The statuses with which the node has not taken a transaction. -/
def SendTransactionStatus.Rejected (status : SendTransactionStatus) : Prop :=
  status = .error ∨ status = .tryAgainLater

theorem SendTransactionStatus.not_rejected_iff {status : SendTransactionStatus} :
    ¬ status.Rejected ↔ status = .pending ∨ status = .duplicate := by
  cases status <;> simp [Rejected]

variable (sdk : Sdk) {α β : Type}

/-- A run enters the poll loop only for a transaction the node accepted. -/
structure PollsOnlyAccepted (t : List Exchange) (o : Outcome (Except SorobanUtilsError α)) :
    Prop where
  /-- A refusal is the last exchange of the run, and the result is an error. -/
  rejected : ∀ t₁ tx response t₂, t = t₁ ++ ⟨.sendTransaction tx, .ok response⟩ :: t₂ →
    response.status.Rejected → t₂ = [] ∧ ∃ e, o = .returned (.error e)
  /-- A timeout is the timeout of a transaction that the node accepted. -/
  timeout : ∀ h, o = .returned (.error (.timeout h)) → ∃ tx response,
    ⟨.sendTransaction tx, .ok response⟩ ∈ t ∧ tx.hexHash sdk = h ∧
      (response.status = .pending ∨ response.status = .duplicate)

/-- The replies of a run that do not lead the submission paths astray: no refusal, and no timeout
that comes from a signer. -/
structure NeverRejected (t : List Exchange) : Prop where
  send : ∀ tx response, ⟨.sendTransaction tx, .ok response⟩ ∈ t → ¬ response.status.Rejected
  sign : ∀ signer tx networkPassphrase h,
    (⟨.sign signer tx networkPassphrase, .error (.timeout h)⟩ : Exchange) ∉ t

variable {sdk} {networkPassphrase : String} {signer : Signer} {prepared : Transaction}
  {pollCfg : PollConfig} {t t₀ : List Exchange}

/-! ## Preamble and result -/

theorem pollsOnlyAccepted_append_iff {o : Outcome (Except SorobanUtilsError α)}
    (ht₀ : ∀ x ∈ t₀, IsPreamble x.1) :
    PollsOnlyAccepted sdk (t₀ ++ t) o ↔ PollsOnlyAccepted sdk t o := by
  have hsend {tx : Transaction} {response : SendTransactionResponse} :
      (⟨.sendTransaction tx, .ok response⟩ : Exchange) ∉ t₀ := fun hmem ↦ ht₀ _ hmem
  constructor
  · intro h
    refine ⟨fun t₁ tx response t₂ ht ↦ ?_, fun hash ho ↦ ?_⟩
    · exact h.rejected (t₀ ++ t₁) tx response t₂ (by rw [ht, List.append_assoc])
    · obtain ⟨tx, response, hmem, hrest⟩ := h.timeout hash ho
      exact ⟨tx, response, (List.mem_append.mp hmem).resolve_left hsend, hrest⟩
  · intro h
    refine ⟨fun t₁ tx response t₂ ht ↦ ?_, fun hash ho ↦ ?_⟩
    · obtain ⟨a, rfl, _⟩ | ⟨a, _, hv⟩ := append_cons_eq_append_iff.mp ht
      · exact absurd List.mem_append_cons_self hsend
      · exact h.rejected a tx response t₂ hv
    · obtain ⟨tx, response, hmem, hrest⟩ := h.timeout hash ho
      exact ⟨tx, response, List.mem_append_right t₀ hmem, hrest⟩

theorem neverRejected_append_iff (ht₀ : ∀ x ∈ t₀, IsPreamble x.1) :
    NeverRejected (t₀ ++ t) ↔ NeverRejected t := by
  constructor
  · intro h
    exact ⟨fun tx response hmem ↦ h.send tx response (List.mem_append_right t₀ hmem),
      fun s tx n hash hmem ↦ h.sign s tx n hash (List.mem_append_right t₀ hmem)⟩
  · intro h
    refine ⟨fun tx response hmem ↦ ?_, fun s tx n hash hmem ↦ ?_⟩
    · rcases List.mem_append.mp hmem with hmem | hmem
      · exact (ht₀ _ hmem).elim
      · exact h.send tx response hmem
    · rcases List.mem_append.mp hmem with hmem | hmem
      · exact (ht₀ _ hmem).elim
      · exact h.sign s tx n hash hmem

theorem pollsOnlyAccepted_map_iff {o : Outcome (Except SorobanUtilsError α)} {f : α → β} :
    PollsOnlyAccepted sdk t (o.map (Except.map f)) ↔ PollsOnlyAccepted sdk t o := by
  have herror (e : SorobanUtilsError) :
      o.map (Except.map f) = .returned (.error e) ↔ o = .returned (.error e) := by
    rcases o with _ | _ | e' | a <;> simp [Except.map]
  constructor
  · rintro ⟨hrejected, htimeout⟩
    simp only [herror] at hrejected htimeout
    exact ⟨hrejected, htimeout⟩
  · rintro ⟨hrejected, htimeout⟩
    simp only [← herror] at hrejected htimeout
    exact ⟨hrejected, htimeout⟩

/-! ## One leg -/

theorem PollOutcome.timeout_eq {hash h : String} {l : List (Except RpcError GetTransactionResponse)}
    (hpoll : PollOutcome sdk hash l (.returned (.error (.timeout h)))) : hash = h := by
  generalize ho : Outcome.returned (Except.error (SorobanUtilsError.timeout h)) = o at hpoll
  cases hpoll <;> simp [rpcError] at ho
  exact ho.symm

theorem LegRun.pollsOnlyAccepted_iff {o : SubmissionOutcome}
    (h : LegRun sdk networkPassphrase signer prepared pollCfg t o) :
    PollsOnlyAccepted sdk t o ↔ NeverRejected t := by
  cases h with
  | signing =>
    exact iff_of_true ⟨by simp, by simp⟩ ⟨by simp, by simp⟩
  | signFailed e =>
    constructor
    · intro h
      refine ⟨by simp, fun s tx n hash hmem ↦ ?_⟩
      cases List.mem_singleton.mp hmem
      obtain ⟨tx, response, hmem, _⟩ := h.timeout hash rfl
      cases List.mem_singleton.mp hmem
    · intro h
      refine ⟨by simp [cons_eq_append_cons_iff], ?_⟩
      · rintro hash ⟨⟩
        exact (h.sign _ _ _ _ (List.mem_singleton_self _)).elim
  | sending signed =>
    exact iff_of_true ⟨by simp [cons_eq_append_cons_iff], by simp⟩ ⟨by simp, by simp⟩
  | sendFailed signed e =>
    exact iff_of_true ⟨by simp [cons_eq_append_cons_iff], by simp [rpcError]⟩
      ⟨by simp, by simp⟩
  | @polling signed response t o hpoll =>
    have hcalls := (pollTransactionStatus_spec hpoll).1
    have hmem : (⟨.sendTransaction signed, .ok response⟩ : Exchange) ∈
        ⟨.sign signer prepared networkPassphrase, .ok signed⟩ ::
          ⟨.sendTransaction signed, .ok response⟩ :: t := by simp
    constructor
    · intro h
      refine ⟨fun tx response' hsend hrej ↦ ?_, fun s tx n hash hsign ↦ ?_⟩
      · obtain ⟨rfl, hr⟩ := eq_of_send_mem hpoll hsend
        cases hr
        obtain ⟨rfl, e, ho⟩ := h.rejected [_] _ _ t rfl hrej
        -- After the refusal the run would have to be over, but a poll starts with a call.
        obtain ⟨_, rfl⟩ | ⟨_, _, ht, _⟩ := runs_pollTransactionStatus_start hpoll
        · cases ho
        · cases ht
      · simp only [List.mem_cons] at hsign
        obtain hsign | hsign | hsign := hsign
        · cases hsign
        · cases hsign
        · exact (hcalls _ hsign).elim
    · intro h
      have hstatus := h.send _ _ hmem
      refine ⟨fun t₁ tx response' t₂ ht hrej ↦ ?_, fun hash ho ↦ ?_⟩
      · exact absurd hrej (h.send tx response' (ht ▸ List.mem_append_cons_self))
      · rw [Outcome.map_map_eq_returned_error] at ho
        have heq := (ho ▸ (pollTransactionStatus_spec hpoll).2).timeout_eq
        exact ⟨signed, response, hmem, heq, SendTransactionStatus.not_rejected_iff.mp hstatus⟩

theorem SubmissionRun.pollsOnlyAccepted_iff {o : SubmissionOutcome}
    (h : SubmissionRun sdk networkPassphrase signer pollCfg t o) :
    PollsOnlyAccepted sdk t o ↔ NeverRejected t := by
  cases h with
  | unsigned ht =>
    rw [← List.append_nil t, pollsOnlyAccepted_append_iff ht, neverRejected_append_iff ht]
    exact iff_of_true ⟨by simp, by simp⟩ ⟨by simp, by simp⟩
  | failed ht he =>
    rw [← List.append_nil t, pollsOnlyAccepted_append_iff ht, neverRejected_append_iff ht]
    obtain ⟨msg, rfl | rfl⟩ := he
    · exact iff_of_true ⟨by simp, by simp⟩ ⟨by simp, by simp⟩
    · exact iff_of_true ⟨by simp, by simp⟩ ⟨by simp, by simp⟩
  | leg ht₀ hleg =>
    rw [pollsOnlyAccepted_append_iff ht₀, neverRejected_append_iff ht₀]
    exact hleg.pollsOnlyAccepted_iff

/-! ## Both paths -/

/-- **Refusals.** A run of either path polls only for an accepted transaction exactly when no reply
of it is a refusal, and no signer answers with a timeout. -/
theorem pollsOnlyAccepted_iff_neverRejected (sdk : Sdk) :
    (∀ networkPassphrase callerAddress operation fee signer pollCfg t o,
      Runs (prepareAndSend sdk networkPassphrase callerAddress operation fee signer pollCfg).run
          t o →
        (PollsOnlyAccepted sdk t o ↔ NeverRejected t)) ∧
      ∀ signer networkPassphrase prepared pollCfg t o,
        Runs (submit sdk signer networkPassphrase prepared pollCfg).run t o →
          (PollsOnlyAccepted sdk t o ↔ NeverRejected t) := by
  constructor
  · intro networkPassphrase callerAddress operation fee signer pollCfg t o h
    exact (runs_prepareAndSend.mp h).submissionRun.pollsOnlyAccepted_iff
  · intro signer networkPassphrase prepared pollCfg t o h
    obtain ⟨o', hleg, rfl⟩ := runs_submit.mp h
    rw [pollsOnlyAccepted_map_iff]
    exact hleg.submissionRun.pollsOnlyAccepted_iff

/-- The poll that a refused transaction gets: it is not found, and an hour later still not. -/
def hourLongPoll : List Exchange :=
  [⟨.now, 0⟩,
    ⟨.getTransaction (Transaction.sample.hexHash .sample), .ok ⟨.notFound, none⟩⟩,
    ⟨.now, PollConfig.default.timeout.nanos⟩]

theorem runs_hourLongPoll :
    Runs (pollTransactionStatus .sample (Transaction.sample.hexHash .sample) .default).run
      hourLongPoll (.returned (.error (.timeout (Transaction.sample.hexHash .sample)))) :=
  runs_poll_timeout (by decide) rfl (by decide)

/-- `submit` keeps to the property on a transaction that the node takes as pending. -/
theorem pollsOnlyAccepted_of_pending :
    PollsOnlyAccepted (α := InvokeOutcome) .sample (sampleLeg .pending hourLongPoll)
      (.returned (.error (.timeout (Transaction.sample.hexHash .sample)))) := by
  refine ((pollsOnlyAccepted_iff_neverRejected .sample).2 _ _ _ _ _ _
    (runs_submit_sample runs_hourLongPoll)).mpr ⟨fun tx response hmem ↦ ?_, ?_⟩
  · simp only [sampleLeg, hourLongPoll, List.mem_cons, List.not_mem_nil, or_false] at hmem
    obtain h | h | h | h | h := hmem <;> cases h
    simp [SendTransactionStatus.Rejected]
  · simp [sampleLeg, hourLongPoll]

/-- On a refusal both paths poll, for as long as the timeout lets them, and report that the
transaction timed out. -/
theorem refused_transaction_is_polled :
    (Runs (prepareAndSend .sample NetworkConfig.testnet.networkPassphrase "G" .restoreFootprint 100
        .sample .default).run
        (⟨.getAccount "G", .ok ⟨"G", 7⟩⟩ :: ⟨.prepareTransaction .sample, .ok .sample⟩ ::
          sampleLeg .error hourLongPoll)
        (.returned (.error (.timeout (Transaction.sample.hexHash .sample)))) ∧
      ¬ PollsOnlyAccepted (α := String × GetTransactionResponse) .sample
        (⟨.getAccount "G", .ok ⟨"G", 7⟩⟩ :: ⟨.prepareTransaction .sample, .ok .sample⟩ ::
          sampleLeg .error hourLongPoll)
        (.returned (.error (.timeout (Transaction.sample.hexHash .sample))))) ∧
    Runs (submit .sample .sample NetworkConfig.testnet.networkPassphrase .sample .default).run
        (sampleLeg .tryAgainLater hourLongPoll)
        (.returned (.error (.timeout (Transaction.sample.hexHash .sample)))) ∧
      ¬ PollsOnlyAccepted (α := InvokeOutcome) .sample (sampleLeg .tryAgainLater hourLongPoll)
        (.returned (.error (.timeout (Transaction.sample.hexHash .sample)))) := by
  refine ⟨⟨runs_prepareAndSend_sample runs_hourLongPoll, fun h ↦ ?_⟩,
    runs_submit_sample runs_hourLongPoll, fun h ↦ ?_⟩
  · cases (h.rejected [_, _, _] _ _ _ rfl (.inl rfl)).1
  · cases (h.rejected [_] _ _ _ rfl (.inr rfl)).1

end StellarRustClient
