import StellarRustClient.Client
import StellarRustClient.Submission.Paths

/-!
# The deadline after a send

Once a transaction is sent, the poll computes its deadline from the clock and the configured
timeout. The sum may not be an instant, and then the thread panics with the transaction on its way.
Nothing on the way from `Client::with_poll_config` to this sum looks at the timeout, so whether a
run goes on is decided by the reading of the clock alone.
-/

namespace StellarRustClient

open Interaction

variable {α β : Type}

/-! ## Polling -/

/-- What comes after a send whose transaction has this hash: the clock is read, the status is asked
for, and from then on nothing panics. -/
inductive Polling (hash : String) : List Exchange → Outcome α → Prop
  | reading : Polling hash [] .running
  | asking (start : Instant) : Polling hash [⟨.now, start⟩] .running
  | asked (start : Instant) (r : Except RpcError GetTransactionResponse) (t : List Exchange)
      {o : Outcome α} (ho : o ≠ .panicked) :
      Polling hash (⟨.now, start⟩ :: ⟨.getTransaction hash, r⟩ :: t) o

/-- What comes after each send that the node has taken, as `P` says of it. -/
def AfterSends (P : Transaction → List Exchange → Prop) (t : List Exchange) : Prop :=
  ∀ u tx response v, t = u ++ ⟨.sendTransaction tx, .ok response⟩ :: v → P tx v

variable (sdk : Sdk)

/-- A run that has sent a transaction goes on to poll for it. -/
def ContinuesToPolling (t : List Exchange) (o : Outcome α) : Prop :=
  AfterSends (fun tx v ↦ Polling (tx.hexHash sdk) v o) t

/-- The deadline counted from this reading of the clock is an instant. -/
def Representable (pollCfg : PollConfig) (start : Instant) : Prop :=
  start + pollCfg.timeout.nanos ≤ sdk.instantMax

instance (pollCfg : PollConfig) (start : Instant) : Decidable (Representable sdk pollCfg start) :=
  inferInstanceAs (Decidable (_ ≤ _))

/-- The deadline counted from the clock after a send is an instant. -/
def DeadlineFits (pollCfg : PollConfig) (t : List Exchange) : Prop :=
  AfterSends (fun _ v ↦ ∀ start v', v = ⟨.now, start⟩ :: v' → Representable sdk pollCfg start) t

variable {sdk} {networkPassphrase hash : String} {signer : Signer} {prepared : Transaction}
  {pollCfg : PollConfig} {t t₀ : List Exchange}

theorem Outcome.map_ne_panicked {f : α → β} {o : Outcome α} :
    o.map f ≠ .panicked ↔ o ≠ .panicked :=
  not_congr Outcome.map_eq_panicked

theorem polling_map_iff (f : α → β) {o : Outcome α} :
    Polling hash t (o.map f) ↔ Polling hash t o := by
  constructor
  · intro h
    generalize ho : o.map f = o' at h
    cases h with
    | reading => cases o <;> cases ho; exact .reading
    | asking start => cases o <;> cases ho; exact .asking start
    | asked start r t hne =>
      rw [← ho, Outcome.map_ne_panicked] at hne
      exact .asked start r t hne
  · intro h
    cases h with
    | reading => exact .reading
    | asking start => exact .asking start
    | asked start r t hne => exact .asked start r t (Outcome.map_ne_panicked.mpr hne)

/-- A poll comes through exactly when its deadline is an instant. -/
theorem poll_ne_panicked_iff {o : Outcome (Except SorobanUtilsError GetTransactionResponse)}
    (h : Runs (pollTransactionStatus sdk hash pollCfg).run t o) :
    o ≠ .panicked ↔ ∀ start v, t = ⟨.now, start⟩ :: v → Representable sdk pollCfg start := by
  obtain ⟨rfl, rfl⟩ | ⟨start, t', rfl, hpanic⟩ := runs_pollTransactionStatus_start h
  · exact iff_of_true (by simp) (by simp)
  · rw [Ne, hpanic, Nat.not_lt]
    refine ⟨?_, fun hall ↦ hall start t' rfl⟩
    rintro hstart start' v ⟨⟩
    exact hstart

/-- A poll goes on exactly when its deadline is an instant. -/
theorem polling_iff {o : Outcome (Except SorobanUtilsError GetTransactionResponse)}
    (h : Runs (pollTransactionStatus sdk hash pollCfg).run t o) :
    Polling hash t o ↔ ∀ start v, t = ⟨.now, start⟩ :: v → Representable sdk pollCfg start := by
  rw [← poll_ne_panicked_iff h]
  cases runs_pollTransactionStatus.mp h with
  | starting => exact iff_of_true .reading (by simp)
  | overflow start hstart => exact iff_of_false (by rintro ⟨⟩) (by simp)
  | asking start hstart => exact iff_of_true (.asking start) (by simp)
  | failed start hstart e => exact iff_of_true (.asked start (.error e) [] (by simp)) (by simp)
  | loop start hstart r hloop =>
    refine iff_of_true (.asked start (.ok r) _ ?_) ?_ <;>
      exact Outcome.map_ne_panicked.mpr hloop.ne_panicked

/-! ## Submissions -/

section

variable {P : Transaction → List Exchange → Prop}

theorem afterSends_append_iff (ht₀ : ∀ x ∈ t₀, sentTransaction x = none) :
    AfterSends P (t₀ ++ t) ↔ AfterSends P t := by
  constructor
  · intro h u tx response v ht
    exact h (t₀ ++ u) tx response v (by rw [ht, List.append_assoc])
  · intro h u tx response v ht
    obtain ⟨a, rfl, _⟩ | ⟨a, _, hv⟩ := append_cons_eq_append_iff.mp ht
    · cases ht₀ ⟨.sendTransaction tx, .ok response⟩ List.mem_append_cons_self
    · exact h a tx response v hv

theorem afterSends_of_unsent (ht : ∀ x ∈ t, sentTransaction x = none) : AfterSends P t := by
  rintro u tx response v rfl
  cases ht ⟨.sendTransaction tx, .ok response⟩ List.mem_append_cons_self

theorem unsent_of_preamble (ht : ∀ x ∈ t, IsPreamble x.1) :
    ∀ x ∈ t, sentTransaction x = none := by
  rintro ⟨c, r⟩ hx
  have hc := ht ⟨c, r⟩ hx
  cases c with
  | sendTransaction tx => exact hc.elim
  | _ => rfl

/-- A leg sends behind its signature, and nowhere else. -/
theorem afterSends_leg_iff {signed : Transaction} {response : SendTransactionResponse}
    {o : Outcome (Except SorobanUtilsError GetTransactionResponse)}
    (hpoll : Runs (pollTransactionStatus sdk (signed.hexHash sdk) pollCfg).run t o) :
    AfterSends P (⟨.sign signer prepared networkPassphrase, .ok signed⟩ ::
      ⟨.sendTransaction signed, .ok response⟩ :: t) ↔ P signed t := by
  refine ⟨fun h ↦ h [_] signed response t rfl, fun h u tx response' v ht ↦ ?_⟩
  rw [(LegRun.polling signed response hpoll).send_position ht] at ht
  cases ht
  exact h

end

theorem LegRun.continuesToPolling_iff {o : SubmissionOutcome}
    (h : LegRun sdk networkPassphrase signer prepared pollCfg t o) :
    ContinuesToPolling sdk t o ↔ DeadlineFits sdk pollCfg t := by
  cases h with
  | polling signed response hpoll =>
    rw [ContinuesToPolling, DeadlineFits, afterSends_leg_iff hpoll, afterSends_leg_iff hpoll,
      polling_map_iff]
    exact polling_iff hpoll
  | _ =>
    exact iff_of_true (by simp [ContinuesToPolling, AfterSends, cons_eq_append_cons_iff])
      (by simp [DeadlineFits, AfterSends, cons_eq_append_cons_iff])

theorem SubmissionRun.continuesToPolling_iff {o : SubmissionOutcome}
    (h : SubmissionRun sdk networkPassphrase signer pollCfg t o) :
    ContinuesToPolling sdk t o ↔ DeadlineFits sdk pollCfg t := by
  cases h with
  | unsigned ht =>
    have hunsent := unsent_of_preamble ht
    exact iff_of_true (afterSends_of_unsent hunsent) (afterSends_of_unsent hunsent)
  | failed ht he =>
    have hunsent := unsent_of_preamble ht
    exact iff_of_true (afterSends_of_unsent hunsent) (afterSends_of_unsent hunsent)
  | leg ht₀ hleg =>
    have hunsent := unsent_of_preamble ht₀
    rw [ContinuesToPolling, DeadlineFits, afterSends_append_iff hunsent,
      afterSends_append_iff hunsent]
    exact hleg.continuesToPolling_iff

/-! ## Panics -/

theorem LegRun.ne_panicked_iff {o : SubmissionOutcome}
    (h : LegRun sdk networkPassphrase signer prepared pollCfg t o) :
    o ≠ .panicked ↔ DeadlineFits sdk pollCfg t := by
  cases h with
  | polling signed response hpoll =>
    rw [DeadlineFits, afterSends_leg_iff hpoll, Outcome.map_ne_panicked]
    exact poll_ne_panicked_iff hpoll
  | _ =>
    exact iff_of_true (by simp) (by simp [DeadlineFits, AfterSends, cons_eq_append_cons_iff])

/-- A submission panics exactly when the deadline after its send is no instant. -/
theorem SubmissionRun.ne_panicked_iff {o : SubmissionOutcome}
    (h : SubmissionRun sdk networkPassphrase signer pollCfg t o) :
    o ≠ .panicked ↔ DeadlineFits sdk pollCfg t := by
  cases h with
  | unsigned ht => exact iff_of_true (by simp) (afterSends_of_unsent (unsent_of_preamble ht))
  | failed ht he => exact iff_of_true (by simp) (afterSends_of_unsent (unsent_of_preamble ht))
  | leg ht₀ hleg =>
    rw [DeadlineFits, afterSends_append_iff (unsent_of_preamble ht₀)]
    exact hleg.ne_panicked_iff

/-! ## From the configuration to the deadline -/

variable {serverNew : String → Except RpcError Unit} {publicKeyOf : String → Except String String}
  {network : NetworkConfig} {signerConfig : SignerConfig} {client : Client}

/-- What of a client can be refused: the node, the signer, and the public key. -/
private def resolve (sdk : Sdk) (serverNew : String → Except RpcError Unit)
    (publicKeyOf : String → Except String String) (network : NetworkConfig)
    (signerConfig : SignerConfig) : Async String := do
  Prog.lift ((serverNew network.rpcUrl).mapError (rpcError sdk))
  let signerFactory ← Prog.lift (signerConfig.intoFactory publicKeyOf)
  signerFactory.getPublicKey

private theorem withPollConfig_eq :
    Client.withPollConfig sdk serverNew publicKeyOf network signerConfig pollCfg =
      (fun publicKey ↦ { network, publicKey, pollCfg }) <$>
        resolve sdk serverNew publicKeyOf network signerConfig := by
  simp only [Client.withPollConfig, resolve, map_bind, bind_pure_comp]

/-- A client keeps the configuration of the poll, and no such configuration is refused. -/
theorem of_runs_withPollConfig
    (h : Runs (Client.withPollConfig sdk serverNew publicKeyOf network signerConfig pollCfg).run t
      (.returned (.ok client))) :
    client.pollCfg = pollCfg ∧ ∀ pollCfg', Runs
      (Client.withPollConfig sdk serverNew publicKeyOf network signerConfig pollCfg').run t
      (.returned (.ok { client with pollCfg := pollCfg' })) := by
  rw [withPollConfig_eq] at h
  obtain ⟨o', hresolve, ho⟩ := runs_except_map.mp h
  obtain ⟨publicKey, rfl, hclient⟩ := Outcome.map_map_eq_returned_ok.mp ho.symm
  subst hclient
  refine ⟨rfl, fun pollCfg' ↦ ?_⟩
  rw [withPollConfig_eq]
  exact runs_except_map.mpr ⟨_, hresolve, rfl⟩

/-- **The deadline.** A submission by a client goes on from the send to the poll exactly when the
clock and the timeout add up to an instant. -/
theorem continuesToPolling_iff_deadlineFits
    (h : Runs (Client.withPollConfig sdk serverNew publicKeyOf network signerConfig pollCfg).run t₀
      (.returned (.ok client))) :
    (∀ hash start t o,
      Runs (pollTransactionStatus sdk hash client.pollCfg).run (⟨.now, start⟩ :: t) o →
        (o ≠ .panicked ↔ Representable sdk pollCfg start)) ∧
    (∀ networkPassphrase callerAddress operation fee signer t o,
      Runs (prepareAndSend sdk networkPassphrase callerAddress operation fee signer
        client.pollCfg).run t o →
        (ContinuesToPolling sdk t o ↔ DeadlineFits sdk pollCfg t)) ∧
    ∀ signer networkPassphrase prepared t o,
      Runs (submit sdk signer networkPassphrase prepared client.pollCfg).run t o →
        (ContinuesToPolling sdk t o ↔ DeadlineFits sdk pollCfg t) := by
  obtain ⟨rfl, -⟩ := of_runs_withPollConfig h
  refine ⟨fun hash start t o h ↦ ?_, ?_, ?_⟩
  · rw [poll_ne_panicked_iff h]
    exact ⟨fun hall ↦ hall start t rfl, by rintro hstart _ _ ⟨⟩; exact hstart⟩
  · intro networkPassphrase callerAddress operation fee signer t o h
    exact (runs_prepareAndSend.mp h).submissionRun.continuesToPolling_iff
  · intro signer networkPassphrase prepared t o h
    obtain ⟨o', hleg, rfl⟩ := runs_submit.mp h
    rw [← hleg.submissionRun.continuesToPolling_iff]
    simp only [ContinuesToPolling, polling_map_iff]

/-! ## Two timeouts -/

/-- A client on the test network with this configuration of the poll. -/
def Client.polling (pollCfg : PollConfig) : Client where
  network := .testnet
  publicKey := "G"
  pollCfg := pollCfg

theorem runs_withPollConfig_sample (pollCfg : PollConfig) :
    Runs (Client.withPollConfig .sample (fun _ ↦ .ok ()) (fun _ ↦ .ok "G") .testnet (.secret "S")
      pollCfg).run [] (.returned (.ok (.polling pollCfg))) :=
  .ret _

/-- A poll that reads the clock when the deadline counted from it is no instant. -/
theorem runs_poll_unrepresentable {start : Instant} (h : ¬Representable sdk pollCfg start) :
    Runs (pollTransactionStatus sdk hash pollCfg).run [⟨.now, start⟩] .panicked := by
  rw [pollTransactionStatus]
  refine runs_ask_ok_bind.mpr (.inr ⟨start, [], rfl, ?_⟩)
  have hdeadline : ¬start + pollCfg.timeout.nanos ≤ sdk.instantMax := h
  rw [instantAdd, if_neg hdeadline]
  exact runs_crash.mpr ⟨rfl, rfl⟩

/-- The exchanges of a poll that sees the transaction succeed. -/
def samplePoll : List Exchange :=
  [⟨.now, 0⟩, ⟨.getTransaction (Transaction.sample.hexHash .sample), .ok ⟨.success, none⟩⟩]

theorem runs_samplePoll :
    Runs (pollTransactionStatus .sample (Transaction.sample.hexHash .sample) .default).run
      samplePoll (.returned (.ok ⟨.success, none⟩)) :=
  runs_poll_success (by decide) rfl

/-- With the default timeout the run goes on. -/
theorem continuesToPolling_default :
    ContinuesToPolling .sample (sampleLeg .pending samplePoll)
      (.returned (.ok (.executed (Transaction.sample.hexHash .sample))) :
        Outcome (Except SorobanUtilsError InvokeOutcome)) := by
  refine ((continuesToPolling_iff_deadlineFits (runs_withPollConfig_sample .default)).2.2
    .sample NetworkConfig.testnet.networkPassphrase .sample _ _
    (runs_submit_sample runs_samplePoll)).mpr ?_
  rintro u tx response v ht start v' rfl
  simp only [sampleLeg, samplePoll, cons_eq_append_cons_iff] at ht
  simp at ht
  rw [ht.2.2.1]
  decide

/-- `Duration::MAX` is accepted as a timeout, and once the clock has gone on for a second the
submission panics. -/
theorem panics_after_send : ∃ pollCfg t, pollCfg.timeout = .max ∧
    Runs (Client.withPollConfig .sample (fun _ ↦ .ok ()) (fun _ ↦ .ok "G") .testnet (.secret "S")
      pollCfg).run [] (.returned (.ok (.polling pollCfg))) ∧
    Runs (submit .sample .sample NetworkConfig.testnet.networkPassphrase .sample
      (Client.polling pollCfg).pollCfg).run t .panicked ∧
    ¬ContinuesToPolling .sample t
      (.panicked : Outcome (Except SorobanUtilsError InvokeOutcome)) := by
  have hlarge : ¬Representable .sample ⟨.fromSecs 2, .max⟩ 1000000000 := by decide
  refine ⟨⟨.fromSecs 2, .max⟩, sampleLeg .pending [⟨.now, 1000000000⟩], rfl,
    runs_withPollConfig_sample _, runs_submit_sample (runs_poll_unrepresentable hlarge), ?_⟩
  intro hcontinues
  cases hcontinues [_] .sample _ _ rfl

end StellarRustClient
