import StellarRustClient.Interaction.Interleave
import StellarRustClient.Ledger
import StellarRustClient.Submission.Paths

/-!
# Two submissions at once

Every write method takes `&self`, so two calls may overlap, and nothing in the crate orders them or
hands out sequence numbers. Two calls that fetch the same number race for it. If they build
different transactions, one of them is never applied and its call fails or times out; if they build
the same one, the network takes the second for a repetition of the first, and both calls succeed on
one application. `noLostUpdate` says what a pair of successes stands for.
-/

namespace StellarRustClient

open Interaction

variable {sdk : Sdk} {address networkPassphrase : String} {signer : Signer} {pollCfg : PollConfig}
  {op : Operation} {fee : UInt32} {t t' t'' : List Exchange} {h : History Call Reply Ledger}
  {s s' : Ledger}

/-- What a call that returned `hash` has done: it sent one transaction, built from an account that
it fetched, with that hash. -/
structure Accounted (sdk : Sdk) (address : String) (op : Operation) (t : List Exchange)
    (hash : String) (tx : Transaction) : Prop where
  sends_eq : sends t = [tx]
  hash_eq : hash = tx.hexHash sdk
  /-- The number after the one it fetched. -/
  sequence_eq : ∃ account : Account, ⟨.getAccount address, .ok account⟩ ∈ t ∧
    tx.contents.sequence = account.sequence + 1
  operations_eq : PrepareKeepsOperations t → tx.contents.operations = [op]

/-- What two calls that returned `hash₁` and `hash₂` stand for. -/
structure NoLostUpdate (sdk : Sdk) (address : String) (s : Ledger) (op₁ op₂ : Operation)
    (t₁ t₂ : List Exchange) (hash₁ hash₂ : String) (tx₁ tx₂ : Transaction) : Prop where
  first : Accounted sdk address op₁ t₁ hash₁ tx₁
  second : Accounted sdk address op₂ t₂ hash₂ tx₂
  /-- Both transactions are applied, and nothing is applied twice. -/
  applied₁ : tx₁.contents ∈ s.applied
  applied₂ : tx₂.contents ∈ s.applied
  nodup : s.applied.Nodup
  /-- The hashes differ exactly when the transactions do. -/
  hash_eq_iff : hash₁ = hash₂ ↔ tx₁.contents = tx₂.contents
  /-- Different operations make different transactions. -/
  hash_ne : PrepareKeepsOperations t₁ → PrepareKeepsOperations t₂ → op₁ ≠ op₂ → hash₁ ≠ hash₂

/-- Every exchange of a history is one that the world answers. -/
theorem answers_of_path (hpath : (ledgerWorld sdk address).Path s h s') :
    ∀ y ∈ h, y.1.Answers sdk address y.2 := by
  induction hpath with
  | nil s => simp
  | cons hdrift hstep _ ih => exact List.forall_mem_cons.mpr ⟨hstep.1, ih⟩

/-- One of two calls that overlap. -/
theorem accounted_of_interleaves {x : String × GetTransactionResponse}
    (hpath : (ledgerWorld sdk address).Path s h s')
    (hmerge : Interleaves t t' h.trace)
    (hrun : Runs (prepareAndSend sdk networkPassphrase address op fee signer pollCfg).run t
      (.returned (.ok x))) :
    ∃ tx, Accounted sdk address op t x.1 tx ∧ tx.contents ∈ s'.applied := by
  have hsend := runs_prepareAndSend.mp hrun
  have hanswers {y : Exchange} (hy : y ∈ t) : ∃ s : Ledger, s.Answers sdk address y := by
    obtain ⟨z, hz, rfl⟩ := List.mem_map.mp (hmerge.sublist_left.subset hy)
    exact ⟨z.1, answers_of_path hpath z hz⟩
  obtain ⟨account, prepared, tx, hsends, hhash, haccount, hprepared, hsign, -⟩ :=
    hsend.firstFinalStatus_of_returned_ok rfl
  obtain ⟨_, hsequence⟩ := hanswers hprepared
  obtain ⟨_, hcontents⟩ := hanswers hsign
  refine ⟨tx, ⟨hsends, hhash, ?_, fun hprepare ↦ ?_⟩, ?_⟩
  · refine ⟨account, haccount, ?_⟩
    rw [hcontents, hsequence]
    rfl
  · rw [hcontents, hprepare _ _ hprepared]
    rfl
  · obtain ⟨u, tx', r, v, rfl, hhash', hmem, hs⟩ := (hsend.returned_ok_iff x).mp rfl
    have htx : tx' = tx := by
      rw [← List.mem_singleton, ← hsends]
      exact mem_sends.mpr ⟨r, List.mem_append_cons_self⟩
    subst htx
    obtain ⟨t₁, t₂, ht, hsub⟩ := hmerge.exists_of_left rfl
    exact Ledger.applied_of_final hpath ht (hsub (hhash' ▸ hmem)) (by simp [hs])

/-- **Concurrent submissions.** Two calls that overlap and both succeed stand for two applications
if their transactions differ, and for one if they are the same. -/
theorem noLostUpdate (sdk : Sdk) (address networkPassphrase : String) (signer₁ signer₂ : Signer)
    (op₁ op₂ : Operation) (fee₁ fee₂ : UInt32) (cfg₁ cfg₂ : PollConfig) (n : ℤ)
    (h : History Call Reply Ledger) (s : Ledger) (t₁ t₂ : List Exchange)
    (x₁ x₂ : String × GetTransactionResponse)
    (hpath : (ledgerWorld sdk address).Path (.start n) h s) (hmerge : Interleaves t₁ t₂ h.trace)
    (h₁ : Runs (prepareAndSend sdk networkPassphrase address op₁ fee₁ signer₁ cfg₁).run t₁
      (.returned (.ok x₁)))
    (h₂ : Runs (prepareAndSend sdk networkPassphrase address op₂ fee₂ signer₂ cfg₂).run t₂
      (.returned (.ok x₂)))
    (hhash : Set.InjOn sdk.hash {c | c ∈ s.applied}) :
    ∃ tx₁ tx₂, NoLostUpdate sdk address s op₁ op₂ t₁ t₂ x₁.1 x₂.1 tx₁ tx₂ := by
  obtain ⟨tx₁, hfirst, happlied₁⟩ := accounted_of_interleaves hpath hmerge h₁
  obtain ⟨tx₂, hsecond, happlied₂⟩ := accounted_of_interleaves hpath hmerge.symm h₂
  have hiff : x₁.1 = x₂.1 ↔ tx₁.contents = tx₂.contents := by
    rw [hfirst.hash_eq, hsecond.hash_eq]
    constructor
    · intro heq
      exact hhash happlied₁ happlied₂ (Vector.toList_inj.mp (hexEncode_injective heq))
    · intro heq
      rw [Transaction.hexHash, heq, Transaction.hexHash]
  refine ⟨tx₁, tx₂, hfirst, hsecond, happlied₁, happlied₂,
    ((Ledger.wellFormed_start n).path hpath).1.nodup, hiff, ?_⟩
  intro hprepare₁ hprepare₂ hne heq
  refine hne ?_
  rw [← List.singleton_inj, ← hfirst.operations_eq hprepare₁, ← hsecond.operations_eq hprepare₂,
    hiff.mp heq]

/-! ## Two calls that build the same transaction -/

/-- A node answers the repetition of a transaction it knows with `DUPLICATE`. -/
def AnswersDuplicate (h : History Call Reply Ledger) : Prop :=
  ∀ y ∈ h, ∀ tx response, y.2 = ⟨.sendTransaction tx, .ok response⟩ →
    tx.contents ∈ y.1.submitted → response.status = .duplicate

/-- The exchanges of a call that succeeds, after a send that is answered with `status`. -/
def overlappingCall (status : SendTransactionStatus) : List Exchange :=
  ⟨.getAccount "G", .ok ⟨"G", 7⟩⟩ :: ⟨.prepareTransaction .sample, .ok .sample⟩ ::
    sampleLeg status [⟨.now, 0⟩,
      ⟨.getTransaction (Transaction.sample.hexHash .sample), .ok ⟨.success, none⟩⟩]

theorem runs_overlappingCall (status : SendTransactionStatus) :
    Runs (prepareAndSend .sample NetworkConfig.testnet.networkPassphrase "G" .restoreFootprint 100
      .sample .default).run (overlappingCall status)
      (.returned (.ok (Transaction.sample.hexHash .sample, ⟨.success, none⟩))) :=
  runs_prepareAndSend_sample (runs_poll_success (by decide) rfl)

/-- The ledger once both calls have sent. -/
def bothSent : Ledger :=
  { Ledger.start 7 with
    submitted := insert Transaction.sample.contents (insert Transaction.sample.contents ∅) }

/-- The two calls step by step, with the ledger at each exchange. -/
def overlappingCalls : History Call Reply Ledger :=
  let sent : Ledger := { Ledger.start 7 with submitted := insert Transaction.sample.contents ∅ }
  let applied := bothSent.apply Transaction.sample.contents
  let hash := Transaction.sample.hexHash .sample
  let passphrase := NetworkConfig.testnet.networkPassphrase
  [(.start 7, ⟨.getAccount "G", .ok ⟨"G", 7⟩⟩), (.start 7, ⟨.getAccount "G", .ok ⟨"G", 7⟩⟩),
    (.start 7, ⟨.prepareTransaction .sample, .ok .sample⟩),
    (.start 7, ⟨.prepareTransaction .sample, .ok .sample⟩),
    (.start 7, ⟨.sign .sample .sample passphrase, .ok .sample⟩),
    (.start 7, ⟨.sign .sample .sample passphrase, .ok .sample⟩),
    (.start 7, ⟨.sendTransaction .sample, .ok ⟨.pending, hash⟩⟩),
    (sent, ⟨.sendTransaction .sample, .ok ⟨.duplicate, hash⟩⟩),
    (bothSent, ⟨.now, 0⟩), (bothSent, ⟨.now, 0⟩),
    (applied, ⟨.getTransaction hash, .ok ⟨.success, none⟩⟩),
    (applied, ⟨.getTransaction hash, .ok ⟨.success, none⟩⟩)]

theorem path_overlappingCalls : (ledgerWorld .sample "G").Path (.start 7) overlappingCalls
    (bothSent.apply Transaction.sample.contents) := by
  have hdrift : (ledgerWorld .sample "G").drift bothSent
      (bothSent.apply Transaction.sample.contents) :=
    .single ⟨_, Set.mem_insert _ _, rfl, by decide, rfl⟩
  have hfinal : (bothSent.apply Transaction.sample.contents).Answers .sample "G"
      ⟨.getTransaction (Transaction.sample.hexHash .sample), .ok ⟨.success, none⟩⟩ := by
    rintro - c (rfl | rfl | hc) -
    · exact List.mem_singleton_self _
    · exact List.mem_singleton_self _
    · exact hc.elim
  refine .cons .refl ⟨fun _ ↦ rfl, rfl⟩ (.cons .refl ⟨fun _ ↦ rfl, rfl⟩ ?_)
  refine .cons .refl ⟨rfl, rfl⟩ (.cons .refl ⟨rfl, rfl⟩ ?_)
  refine .cons .refl ⟨rfl, rfl⟩ (.cons .refl ⟨rfl, rfl⟩ ?_)
  refine .cons .refl ⟨trivial, rfl⟩ (.cons .refl ⟨trivial, rfl⟩ ?_)
  refine .cons .refl ⟨trivial, rfl⟩ (.cons .refl ⟨trivial, rfl⟩ ?_)
  exact .cons hdrift ⟨hfinal, rfl⟩ (.cons .refl ⟨hfinal, rfl⟩ (.nil _))

theorem interleaves_overlappingCalls :
    Interleaves (overlappingCall .pending) (overlappingCall .duplicate) overlappingCalls.trace :=
  .left _ (.right _ (.left _ (.right _ (.left _ (.right _ (.left _ (.right _ (.left _ (.right _
    (.left _ (.right _ .nil)))))))))))

theorem injOn_overlappingCalls : Set.InjOn Sdk.sample.hash
    {c | c ∈ (bothSent.apply Transaction.sample.contents).applied} := by
  intro c hc c' hc' _
  rw [List.mem_singleton.mp hc, List.mem_singleton.mp hc']

theorem noLostUpdate_overlappingCalls : ∃ tx₁ tx₂, NoLostUpdate .sample "G"
    (bothSent.apply Transaction.sample.contents) .restoreFootprint .restoreFootprint
    (overlappingCall .pending) (overlappingCall .duplicate)
    (Transaction.sample.hexHash .sample) (Transaction.sample.hexHash .sample) tx₁ tx₂ :=
  noLostUpdate .sample "G" _ _ _ _ _ _ _ _ _ 7 overlappingCalls _ _ _ _ _ path_overlappingCalls
    interleaves_overlappingCalls (runs_overlappingCall .pending) (runs_overlappingCall .duplicate)
    injOn_overlappingCalls

/-- Two calls can return the same hash, on a ledger that keeps every rule there is. -/
theorem equal_submissions_share_an_application :
    ¬ ∀ (sdk : Sdk) (address networkPassphrase : String) (signer₁ signer₂ : Signer)
      (op₁ op₂ : Operation) (fee₁ fee₂ : UInt32) (cfg₁ cfg₂ : PollConfig) (n : ℤ)
      (h : History Call Reply Ledger) (s : Ledger) (t₁ t₂ : List Exchange)
      (x₁ x₂ : String × GetTransactionResponse),
      (ledgerWorld sdk address).Path (.start n) h s → Interleaves t₁ t₂ h.trace →
      Runs (prepareAndSend sdk networkPassphrase address op₁ fee₁ signer₁ cfg₁).run t₁
        (.returned (.ok x₁)) →
      Runs (prepareAndSend sdk networkPassphrase address op₂ fee₂ signer₂ cfg₂).run t₂
        (.returned (.ok x₂)) →
      Set.InjOn sdk.hash {c | c ∈ s.applied} → AnswersDuplicate h → x₁.1 ≠ x₂.1 := by
  intro hclaim
  refine hclaim .sample "G" _ _ _ _ _ _ _ _ _ 7 overlappingCalls _ _ _ _ _ path_overlappingCalls
    interleaves_overlappingCalls (runs_overlappingCall .pending) (runs_overlappingCall .duplicate)
    injOn_overlappingCalls ?_ rfl
  intro y hy tx response hsend hknown
  simp only [overlappingCalls, List.mem_cons, List.not_mem_nil, or_false] at hy
  rcases hy with rfl | rfl | rfl | rfl | rfl | rfl | rfl | rfl | rfl | rfl | rfl | rfl <;>
    cases hsend
  · exact hknown.elim
  · rfl

end StellarRustClient
