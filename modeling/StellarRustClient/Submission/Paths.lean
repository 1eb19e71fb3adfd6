import StellarRustClient.Fee
import StellarRustClient.Sdk.Sample
import StellarRustClient.Submission.Leg
import StellarRustClient.TxBuilder

/-!
# The two submission paths

`prepare_and_send` fetches an account and prepares before it signs; `ttl::submit` is handed what it
signs. `PrepareAndSendRun` lists the runs of the first call by call. `SubmissionRun` is what the two
paths have in common: some calls before anything is signed, and then at most one leg.
-/

namespace StellarRustClient

open Interaction

variable (sdk : Sdk)

/-- The transaction that `prepare_and_send` builds from the account it fetched. -/
abbrev unprepared (networkPassphrase : String) (operation : Operation) (fee : UInt32)
    (account : Account) : Transaction :=
  (TransactionBuilder.build account networkPassphrase fee operation none).1

/-- The runs of `prepareAndSend`. -/
inductive PrepareAndSendRun (networkPassphrase callerAddress : String) (operation : Operation)
    (fee : UInt32) (signer : Signer) (pollCfg : PollConfig) :
    List Exchange → SubmissionOutcome → Prop
  | fetching : PrepareAndSendRun networkPassphrase callerAddress operation fee signer pollCfg
      [] .running
  | fetchFailed (e : RpcError) :
      PrepareAndSendRun networkPassphrase callerAddress operation fee signer pollCfg
        [⟨.getAccount callerAddress, .error e⟩] (.returned (.error (rpcError sdk e)))
  | preparing (account : Account) :
      PrepareAndSendRun networkPassphrase callerAddress operation fee signer pollCfg
        [⟨.getAccount callerAddress, .ok account⟩] .running
  | prepareFailed (account : Account) (e : RpcError) :
      PrepareAndSendRun networkPassphrase callerAddress operation fee signer pollCfg
        [⟨.getAccount callerAddress, .ok account⟩,
          ⟨.prepareTransaction (unprepared networkPassphrase operation fee account), .error e⟩]
        (.returned (.error (simulationError sdk e)))
  | leg (account : Account) (prepared : Transaction) {t : List Exchange} {o : SubmissionOutcome}
      (hleg : LegRun sdk networkPassphrase signer prepared pollCfg t o) :
      PrepareAndSendRun networkPassphrase callerAddress operation fee signer pollCfg
        (⟨.getAccount callerAddress, .ok account⟩ ::
          ⟨.prepareTransaction (unprepared networkPassphrase operation fee account),
            .ok prepared⟩ :: t) o

variable {sdk} {networkPassphrase callerAddress : String} {operation : Operation} {fee : UInt32}
  {signer : Signer} {prepared : Transaction} {pollCfg : PollConfig} {t : List Exchange}

theorem runs_prepareAndSend {o : SubmissionOutcome} :
    Runs (prepareAndSend sdk networkPassphrase callerAddress operation fee signer pollCfg).run t o ↔
      PrepareAndSendRun sdk networkPassphrase callerAddress operation fee signer pollCfg t o := by
  rw [prepareAndSend_eq, runs_getAccount_bind]
  constructor
  · intro h
    obtain ⟨rfl, rfl⟩ | ⟨e, rfl, rfl⟩ | ⟨account, t, rfl, h₁⟩ := h
    · exact .fetching
    · exact .fetchFailed e
    obtain ⟨rfl, rfl⟩ | ⟨e, rfl, rfl⟩ | ⟨prepared, t, rfl, h₂⟩ := runs_prepare_bind.mp h₁
    · exact .preparing account
    · exact .prepareFailed account e
    · exact .leg account prepared (runs_signSendPoll.mp h₂)
  · intro h
    cases h with
    | fetching => exact .waiting
    | fetchFailed e => exact .failed e
    | preparing account => exact .reply account (runs_prepare_bind.mpr .waiting)
    | prepareFailed account e => exact .reply account (runs_prepare_bind.mpr (.failed e))
    | leg account prepared hleg =>
      refine .reply account (runs_prepare_bind.mpr (.reply prepared ?_))
      exact runs_signSendPoll.mpr hleg

theorem runs_submit {o : Outcome (Except SorobanUtilsError InvokeOutcome)} :
    Runs (submit sdk signer networkPassphrase prepared pollCfg).run t o ↔
      ∃ o', LegRun sdk networkPassphrase signer prepared pollCfg t o' ∧
        o = o'.map (Except.map fun x ↦ .executed x.1) := by
  rw [submit_eq, runs_except_map]
  simp only [runs_signSendPoll]

/-! ## The fee -/

/-- The fee that is bid on the answer to the fee statistics, whatever it is. -/
def feeBid : Except RpcError FeeStats → UInt32
  | .error _ => minBaseFee
  | .ok stats => ((parseU32 stats.p90).map fun p90 ↦ max p90 minBaseFee).toOption.getD minBaseFee

theorem inclusionFee_eq : inclusionFee sdk = Prog.ask .getFeeStats fun r ↦ .ok (feeBid r) := by
  have hparsed (x : Except ParseIntError UInt32) :
      (Prog.unwrapOr (do
        let p90 ← Prog.lift (x.mapError fun e ↦
          .rpc s!"failed to parse fee stats p90: {e.display}")
        pure (max p90 minBaseFee) : Async UInt32) minBaseFee : Async UInt32) =
        Prog.lift (.ok ((x.map fun p90 ↦ max p90 minBaseFee).toOption.getD minBaseFee)) := by
    cases x <;> rfl
  refine congrArg (Prog.call Call.getFeeStats) (funext fun r ↦ ?_)
  cases r with
  | error e => rfl
  | ok stats => exact hparsed (parseU32 stats.p90)

theorem runs_inclusionFee_bind {α : Type} {k : UInt32 → Async α}
    {o : Outcome (Except SorobanUtilsError α)} :
    Runs (inclusionFee sdk >>= k).run t o ↔ (t = [] ∧ o = .running) ∨
      ∃ r t', t = ⟨.getFeeStats, r⟩ :: t' ∧ Runs (k (feeBid r)).run t' o := by
  rw [inclusionFee_eq, runs_ask_bind]
  simp

/-! ## The whole of `prepareAndSend` -/

/-- The calls of a submission before anything is signed. -/
def IsPreamble : Call → Prop
  | .getAccount _ => True
  | .prepareTransaction _ => True
  | _ => False

namespace PrepareAndSendRun

variable {o : SubmissionOutcome}
  (h : PrepareAndSendRun sdk networkPassphrase callerAddress operation fee signer pollCfg t o)
include h

theorem length_sends_le : (sends t).length ≤ 1 := by
  cases h with
  | leg account prepared hleg => exact hleg.length_sends_le
  | _ => exact Nat.zero_le 1

theorem calls : ∀ x ∈ t, IsPreamble x.1 ∨ IsLegCall x.1 := by
  cases h with
  | leg account prepared hleg =>
    refine List.forall_mem_cons.mpr ⟨.inl trivial, List.forall_mem_cons.mpr ⟨.inl trivial, ?_⟩⟩
    exact fun x hx ↦ .inr (hleg.isLegCall x hx)
  | _ => simp [IsPreamble]

theorem prepare_eq {q : Transaction} {r : Except RpcError Transaction}
    (hmem : (⟨.prepareTransaction q, r⟩ : Exchange) ∈ t) :
    ∃ account, q = unprepared networkPassphrase operation fee account := by
  cases h with
  | fetching => simp at hmem
  | fetchFailed e => simp at hmem
  | preparing account => simp at hmem
  | prepareFailed account e =>
    simp at hmem
    exact ⟨account, hmem.1⟩
  | leg account prepared hleg =>
    simp only [List.mem_cons] at hmem
    obtain hmem | hmem | hmem := hmem
    · cases hmem
    · cases hmem
      exact ⟨account, rfl⟩
    · exact (hleg.isLegCall _ hmem).elim

/-- A failed prepare ends the run, before anything is signed. -/
theorem of_prepareFailed {q : Transaction} {e : RpcError}
    (hmem : (⟨.prepareTransaction q, .error e⟩ : Exchange) ∈ t) :
    (∀ x ∈ t, IsUnsubmitted x.1) ∧ ∃ e, o = .returned (.error e) := by
  cases h with
  | fetching => simp at hmem
  | fetchFailed e => simp at hmem
  | preparing account => simp at hmem
  | prepareFailed account e => exact ⟨by simp [IsUnsubmitted], _, rfl⟩
  | leg account prepared hleg =>
    simp only [List.mem_cons] at hmem
    obtain hmem | hmem | hmem := hmem
    · cases hmem
    · cases hmem
    · exact (hleg.isLegCall _ hmem).elim

/-- A run that succeeds has sent one transaction: what the signer made of what the node prepared. -/
theorem firstFinalStatus_of_returned_ok {x : String × GetTransactionResponse}
    (ho : o = .returned (.ok x)) : ∃ account prepared tx, sends t = [tx] ∧
      x.1 = tx.hexHash sdk ∧ ⟨.getAccount callerAddress, .ok account⟩ ∈ t ∧
      ⟨.prepareTransaction (unprepared networkPassphrase operation fee account), .ok prepared⟩ ∈ t ∧
      ⟨.sign signer prepared networkPassphrase, .ok tx⟩ ∈ t ∧ FirstFinalStatus x.1 .success t := by
  cases h with
  | leg account prepared hleg =>
    obtain ⟨tx, hsends, hx, hsign, hfinal⟩ := hleg.firstFinalStatus_of_returned_ok ho
    refine ⟨account, prepared, tx, hsends, hx, by simp, by simp, ?_, hfinal⟩
    exact List.mem_cons_of_mem _ (List.mem_cons_of_mem _ hsign)
  | _ => cases ho

/-- A submission succeeds exactly when what it sent is polled as a success. -/
theorem returned_ok_iff (x : String × GetTransactionResponse) :
    o = .returned (.ok x) ↔ ∃ u tx r v, t = u ++ ⟨.sendTransaction tx, r⟩ :: v ∧
      x.1 = tx.hexHash sdk ∧ ⟨.getTransaction x.1, .ok x.2⟩ ∈ v ∧ x.2.status = .success := by
  cases h with
  | fetching => exact iff_of_false (by simp) (by simp)
  | fetchFailed e => exact iff_of_false (by simp) (by simp [cons_eq_append_cons_iff])
  | preparing account => exact iff_of_false (by simp) (by simp [cons_eq_append_cons_iff])
  | prepareFailed account e => exact iff_of_false (by simp) (by simp [cons_eq_append_cons_iff])
  | leg account prepared hleg =>
    rw [hleg.returned_ok_iff_send]
    constructor
    · rintro ⟨u, tx, r, v, rfl, hx⟩
      exact ⟨_ :: _ :: u, tx, r, v, rfl, hx⟩
    · rintro ⟨u, tx, r, v, ht, hx⟩
      obtain ⟨_, rfl, ht₁⟩ := (cons_eq_append_cons_iff_of_ne (by simp)).mp ht
      obtain ⟨u', rfl, ht₂⟩ := (cons_eq_append_cons_iff_of_ne (by simp)).mp ht₁
      exact ⟨u', tx, r, v, ht₂, hx⟩

end PrepareAndSendRun

/-! ## What is assumed of the node and of the signer -/

/-- Preparing a transaction keeps its operations. -/
def PrepareKeepsOperations (t : List Exchange) : Prop :=
  ∀ q prepared, (⟨.prepareTransaction q, .ok prepared⟩ : Exchange) ∈ t →
    prepared.contents.operations = q.contents.operations

/-- Signing a transaction only adds signatures. -/
def SignerKeepsContents (t : List Exchange) : Prop :=
  ∀ signer tx networkPassphrase signed,
    (⟨.sign signer tx networkPassphrase, .ok signed⟩ : Exchange) ∈ t →
      signed.contents = tx.contents

theorem PrepareKeepsOperations.mono {t' : List Exchange} (h : PrepareKeepsOperations t)
    (hsub : t' ⊆ t) : PrepareKeepsOperations t' :=
  fun q prepared hmem ↦ h q prepared (hsub hmem)

theorem SignerKeepsContents.mono {t' : List Exchange} (h : SignerKeepsContents t)
    (hsub : t' ⊆ t) : SignerKeepsContents t' :=
  fun signer tx networkPassphrase signed hmem ↦ h signer tx networkPassphrase signed (hsub hmem)

/-- Under both assumptions, what is sent carries the operation it was built from. -/
theorem PrepareAndSendRun.operations_eq {o : SubmissionOutcome}
    (h : PrepareAndSendRun sdk networkPassphrase callerAddress operation fee signer pollCfg t o)
    (hprepare : PrepareKeepsOperations t) (hsigner : SignerKeepsContents t) {tx : Transaction}
    (htx : tx ∈ sends t) : tx.contents.operations = [operation] := by
  cases h with
  | @leg account prepared t o hleg =>
    obtain ⟨r, hmem⟩ := mem_sends.mp htx
    have hmem' : (⟨.sendTransaction tx, r⟩ : Exchange) ∈ t := by
      simpa using hmem
    obtain ⟨u, v, rfl⟩ := List.append_of_mem hmem'
    have hsign := hleg.send_position rfl
    rw [hsigner signer prepared networkPassphrase tx (by simp [hsign]),
      hprepare (unprepared networkPassphrase operation fee account) prepared (by simp)]
    rfl
  | _ => simp [sends, sentTransaction] at htx

/-! ## What they have in common -/

variable (sdk)

/-- A submission: calls before anything is signed, and then at most one leg. -/
inductive SubmissionRun (networkPassphrase : String) (signer : Signer) (pollCfg : PollConfig) :
    List Exchange → SubmissionOutcome → Prop
  | unsigned {t : List Exchange} (ht : ∀ x ∈ t, IsPreamble x.1) :
      SubmissionRun networkPassphrase signer pollCfg t .running
  | failed {t : List Exchange} {e : SorobanUtilsError} (ht : ∀ x ∈ t, IsPreamble x.1)
      (he : ∃ msg, e = .rpc msg ∨ e = .simulation msg) :
      SubmissionRun networkPassphrase signer pollCfg t (.returned (.error e))
  | leg {t₀ t : List Exchange} {o : SubmissionOutcome} {prepared : Transaction}
      (ht₀ : ∀ x ∈ t₀, IsPreamble x.1)
      (hleg : LegRun sdk networkPassphrase signer prepared pollCfg t o) :
      SubmissionRun networkPassphrase signer pollCfg (t₀ ++ t) o

variable {sdk}

theorem PrepareAndSendRun.submissionRun {o : SubmissionOutcome}
    (h : PrepareAndSendRun sdk networkPassphrase callerAddress operation fee signer pollCfg t o) :
    SubmissionRun sdk networkPassphrase signer pollCfg t o := by
  cases h with
  | fetching => exact .unsigned (List.forall_mem_nil _)
  | fetchFailed e => exact .failed (by simp [IsPreamble]) ⟨_, .inl rfl⟩
  | preparing account => exact .unsigned (by simp [IsPreamble])
  | prepareFailed account e => exact .failed (by simp [IsPreamble]) ⟨_, .inr rfl⟩
  | leg account prepared hleg =>
    have ht₀ : ∀ x ∈ ([⟨.getAccount callerAddress, .ok account⟩,
        ⟨.prepareTransaction (unprepared networkPassphrase operation fee account),
          .ok prepared⟩] : List Exchange), IsPreamble x.1 := by
      simp [IsPreamble]
    exact .leg ht₀ hleg

theorem LegRun.submissionRun {o : SubmissionOutcome}
    (h : LegRun sdk networkPassphrase signer prepared pollCfg t o) :
    SubmissionRun sdk networkPassphrase signer pollCfg t o :=
  .leg (List.forall_mem_nil _) h

/-! ## A submission on given replies -/

/-- The exchanges of a submission in which every call succeeds up to the send, which is answered
with `status`; `poll` follows. -/
def sampleLeg (status : SendTransactionStatus) (poll : List Exchange) : List Exchange :=
  ⟨.sign .sample .sample NetworkConfig.testnet.networkPassphrase, .ok .sample⟩ ::
    ⟨.sendTransaction .sample, .ok ⟨status, Transaction.sample.hexHash .sample⟩⟩ :: poll

theorem runs_submit_sample {status : SendTransactionStatus}
    {o : Outcome (Except SorobanUtilsError GetTransactionResponse)}
    (h : Runs (pollTransactionStatus .sample (Transaction.sample.hexHash .sample) pollCfg).run
      t o) :
    Runs (submit .sample .sample NetworkConfig.testnet.networkPassphrase .sample pollCfg).run
      (sampleLeg status t)
      (o.map (Except.map fun _ ↦ .executed (Transaction.sample.hexHash .sample))) := by
  refine runs_submit.mpr ⟨_, .polling .sample _ h, ?_⟩
  rcases o with _ | _ | _ | _ <;> rfl

theorem runs_prepareAndSend_sample {status : SendTransactionStatus}
    {o : Outcome (Except SorobanUtilsError GetTransactionResponse)}
    (h : Runs (pollTransactionStatus .sample (Transaction.sample.hexHash .sample) pollCfg).run
      t o) :
    Runs (prepareAndSend .sample NetworkConfig.testnet.networkPassphrase "G" .restoreFootprint 100
      .sample pollCfg).run
      (⟨.getAccount "G", .ok ⟨"G", 7⟩⟩ :: ⟨.prepareTransaction .sample, .ok .sample⟩ ::
        sampleLeg status t)
      (o.map (Except.map fun r ↦ (Transaction.sample.hexHash .sample, r))) :=
  runs_prepareAndSend.mpr (.leg ⟨"G", 7⟩ .sample (.polling .sample _ h))

/-- The exchanges of a submission of `tx`, signed as it is, that is polled as a success with the
given result. -/
def resultLeg (tx : Transaction) (toResultMeta : Option (Option ScVal)) : List Exchange :=
  [⟨.sign .sample tx NetworkConfig.testnet.networkPassphrase, .ok tx⟩,
    ⟨.sendTransaction tx, .ok ⟨.pending, tx.hexHash .sample⟩⟩, ⟨.now, 0⟩,
    ⟨.getTransaction (tx.hexHash .sample), .ok ⟨.success, toResultMeta⟩⟩]

theorem legRun_resultLeg (tx : Transaction) (toResultMeta : Option (Option ScVal)) :
    LegRun .sample NetworkConfig.testnet.networkPassphrase .sample tx .default
      (resultLeg tx toResultMeta)
      (.returned (.ok (tx.hexHash .sample, ⟨.success, toResultMeta⟩))) :=
  .polling tx ⟨.pending, tx.hexHash .sample⟩ (runs_poll_success (by decide) rfl)

/-- `resultLeg` without a result. -/
def successfulLeg (tx : Transaction) : List Exchange :=
  resultLeg tx none

theorem legRun_successfulLeg (tx : Transaction) :
    LegRun .sample NetworkConfig.testnet.networkPassphrase .sample tx .default (successfulLeg tx)
      (.returned (.ok (tx.hexHash .sample, ⟨.success, none⟩))) :=
  legRun_resultLeg tx none

end StellarRustClient
