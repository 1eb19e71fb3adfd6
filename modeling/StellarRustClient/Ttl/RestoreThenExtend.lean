import StellarRustClient.Interaction.Trace
import StellarRustClient.Ttl.Runs

/-!
# Restore, then extend

What a run of `extend_ledger_key_ttl` sends, in which order, and what it reports, for every reply of
the node and of the signer.

A signer may return any transaction and the node may prepare any, so a transaction is told by what
was handed to the signer: the extend is what the node prepared, and the restore is what was signed
without having been prepared. `RestoreThenExtend` collects the rules of the protocol in these terms.
-/

namespace StellarRustClient

open Interaction

variable (sdk : Sdk) (networkPassphrase : String) (signer : Signer)

/-- The node has returned `tx` as prepared. -/
def Prepared (tx : Transaction) (t : List Exchange) : Prop :=
  ∃ q, (⟨.prepareTransaction q, .ok tx⟩ : Exchange) ∈ t

/-- The first prepare of a trace was answered with `r`. -/
def FirstPrepare (r : Except RpcError Transaction) (t : List Exchange) : Prop :=
  ∃ u q v, t = u ++ ⟨.prepareTransaction q, r⟩ :: v ∧
    ∀ q' r', (⟨.prepareTransaction q', r'⟩ : Exchange) ∉ u

/-- A prepare was answered with a restoration to make. -/
def AskedToRestore (t : List Exchange) : Prop :=
  ∃ q fee data, (⟨.prepareTransaction q, .error (.restorationRequired fee data)⟩ : Exchange) ∈ t

/-- A trace with the submission of `tx`, signed from `unsigned`, after `u` and before `v`. -/
def submission (unsigned tx : Transaction) (r : Except RpcError SendTransactionResponse)
    (u v : List Exchange) : List Exchange :=
  u ++ ⟨.sign signer unsigned networkPassphrase, .ok tx⟩ :: ⟨.sendTransaction tx, r⟩ :: v

/-- A restore was sent and its own hash polled as a success. -/
def RestoreConfirmed (t : List Exchange) : Prop :=
  ∃ unsigned tx response u v,
    t = submission networkPassphrase signer unsigned tx (.ok response) u v ∧
      ¬ Prepared unsigned u ∧ PolledSuccess sdk tx v

/-- The rules that a run of the workflow keeps to. -/
structure RestoreThenExtend (ledgerKey : LedgerKey) (extendTo : UInt32) (t : List Exchange)
    (o : Outcome (Except SorobanUtilsError InvokeOutcome)) : Prop where
  atMostTwo : (sends t).length ≤ 2
  /-- What is sent is what the signer has just returned. -/
  signed : ∀ u tx r v, t = u ++ ⟨.sendTransaction tx, r⟩ :: v →
    ∃ u' unsigned, u = u' ++ [⟨.sign signer unsigned networkPassphrase, .ok tx⟩]
  /-- A restore answers the first prepare, and carries the data of that answer. -/
  restore : ∀ unsigned tx r u v, t = submission networkPassphrase signer unsigned tx r u v →
    ¬ Prepared unsigned u → ∃ fee data,
      FirstPrepare (.error (.restorationRequired fee data)) u ∧
        unsigned.contents.operations = [.restoreFootprint] ∧
        unsigned.contents.sorobanData = some data
  /-- Once a restore is asked for, no extend is sent before the restore is confirmed. -/
  extendAfterRestore : ∀ unsigned tx r u v,
    t = submission networkPassphrase signer unsigned tx r u v → Prepared unsigned u →
      AskedToRestore u → RestoreConfirmed sdk networkPassphrase signer u
  /-- A restore that is not confirmed leaves the run with an error, and without an extend. -/
  unconfirmed : AskedToRestore t → ¬ RestoreConfirmed sdk networkPassphrase signer t →
    (∀ result, o = .returned result → ∃ e, result = .error e) ∧
      ∀ unsigned tx r u v, t = submission networkPassphrase signer unsigned tx r u v →
        ¬ Prepared unsigned u
  /-- A step that fails, in the restore or in the extend, ends the run with an error. -/
  failure : ∀ u x v, t = u ++ x :: v → IsFailure x → v = [] ∧ ∃ e, o = .returned (.error e)
  /-- A second prepare that fails in any way ends the run with that error. -/
  secondPrepare : ∀ u q e v, t = u ++ ⟨.prepareTransaction q, .error e⟩ :: v →
    (∃ q' r', ⟨.prepareTransaction q', r'⟩ ∈ u) →
      v = [] ∧ o = .returned (.error (simulationError sdk e))
  /-- Every prepare is of an extend of the one key to the ledger asked for. -/
  prepare : ∀ q r, ⟨.prepareTransaction q, r⟩ ∈ t →
    q.contents.operations = [.extendFootprintTtl extendTo] ∧
      ∃ data : SorobanTransactionData, q.contents.sorobanData = some data ∧
        data.resources.footprint.readOnly.toList = [ledgerKey] ∧
        data.resources.footprint.readWrite.toList = []
  /-- The result is a success exactly when the extend was sent and polled as a success, and it is
  the hash of that extend. -/
  executed : ∀ result, o = .returned (.ok result) ↔ ∃ unsigned tx response u v,
    t = submission networkPassphrase signer unsigned tx (.ok response) u v ∧
      Prepared unsigned u ∧ PolledSuccess sdk tx v ∧ result = .executed (tx.hexHash sdk)

variable {sdk networkPassphrase signer} {extendTo : UInt32}
  {data restoreData : SorobanTransactionData} {pollCfg : PollConfig} {fee : Int64}
  {t : List Exchange}

/-! ## One attempt -/

namespace AttemptRun

variable {o : Outcome (Except SorobanUtilsError InvokeOutcome)}
  (h : AttemptRun sdk networkPassphrase signer extendTo data pollCfg t o)
include h

theorem length_sends_le : (sends t).length ≤ 1 := by
  cases h with
  | submitted account op hop prepared hleg => exact hleg.length_sends_le
  | _ => exact Nat.zero_le 1

theorem send_position {t₁ t₂ : List Exchange} {tx : Transaction}
    {r : Except RpcError SendTransactionResponse} (ht : t = t₁ ++ ⟨.sendTransaction tx, r⟩ :: t₂) :
    ∃ account q prepared, t₁ = [⟨.getAccount signer.publicKey, .ok account⟩,
      ⟨.prepareTransaction q, .ok prepared⟩] ++
        [⟨.sign signer prepared networkPassphrase, .ok tx⟩] := by
  cases h with
  | fetching => simp at ht
  | fetchFailed e => simp [cons_eq_append_cons_iff] at ht
  | notBuilt account e hop => simp [cons_eq_append_cons_iff] at ht
  | preparing account op hop => simp [cons_eq_append_cons_iff] at ht
  | prepareFailed account op hop e => simp [cons_eq_append_cons_iff] at ht
  | submitted account op hop prepared hleg =>
    obtain ⟨_, rfl, ht₁⟩ := (cons_eq_append_cons_iff_of_ne (by simp)).mp ht
    obtain ⟨_, rfl, ht₂⟩ := (cons_eq_append_cons_iff_of_ne (by simp)).mp ht₁
    exact ⟨account, _, prepared, by rw [hleg.send_position ht₂]; rfl⟩

theorem prepare_eq {q : Transaction} {r : Except RpcError Transaction}
    (hmem : (⟨.prepareTransaction q, r⟩ : Exchange) ∈ t) : ∃ op account,
      sdk.extendFootprintTtl extendTo = .ok op ∧
        q = extendTransaction networkPassphrase op data account := by
  cases h with
  | fetching => simp at hmem
  | fetchFailed e => simp at hmem
  | notBuilt account e hop => simp at hmem
  | preparing account op hop => simp at hmem
  | prepareFailed account op hop e =>
    simp at hmem
    exact ⟨op, account, hop, hmem.1⟩
  | submitted account op hop prepared hleg =>
    simp only [List.mem_cons] at hmem
    obtain hmem | hmem | hmem := hmem
    · cases hmem
    · cases hmem
      exact ⟨op, account, hop, rfl⟩
    · exact (hleg.isLegCall _ hmem).elim

theorem prepareFailed_last {t₁ t₂ : List Exchange} {q : Transaction} {e : RpcError}
    (ht : t = t₁ ++ ⟨.prepareTransaction q, .error e⟩ :: t₂) :
    t₂ = [] ∧ o = .returned (.error (simulationError sdk e)) := by
  cases h with
  | fetching => simp at ht
  | fetchFailed e => simp [cons_eq_append_cons_iff] at ht
  | notBuilt account e hop => simp [cons_eq_append_cons_iff] at ht
  | preparing account op hop => simp [cons_eq_append_cons_iff] at ht
  | prepareFailed account op hop e =>
    simp [cons_eq_append_cons_iff] at ht
    obtain ⟨_, ⟨_, rfl⟩, rfl⟩ := ht
    exact ⟨rfl, rfl⟩
  | submitted account op hop prepared hleg =>
    obtain ⟨_, rfl, ht₁⟩ := (cons_eq_append_cons_iff_of_ne (by simp)).mp ht
    obtain ⟨_, rfl, rfl⟩ := (cons_eq_append_cons_iff_of_ne (by simp)).mp ht₁
    exact (hleg.isLegCall _ List.mem_append_cons_self).elim

theorem failure_last {t₁ t₂ : List Exchange} {x : Exchange} (ht : t = t₁ ++ x :: t₂)
    (hx : IsFailure x) : t₂ = [] ∧ ∃ e, o = .returned (.error e) := by
  cases h with
  | fetching => simp at ht
  | fetchFailed e =>
    simp [cons_eq_append_cons_iff] at ht
    exact ⟨ht.2.2, _, rfl⟩
  | notBuilt account e hop =>
    simp [cons_eq_append_cons_iff] at ht
    exact ⟨ht.2.2, _, rfl⟩
  | preparing account op hop =>
    simp [cons_eq_append_cons_iff] at ht
    rw [ht.2.1] at hx
    exact hx.elim
  | prepareFailed account op hop e =>
    obtain ⟨_, rfl, _⟩ | ⟨_, rfl, ht₁⟩ := cons_eq_append_cons_iff.mp ht
    · exact hx.elim
    · simp [cons_eq_append_cons_iff] at ht₁
      exact ⟨ht₁.2.2, _, rfl⟩
  | submitted account op hop prepared hleg =>
    obtain ⟨_, rfl, _⟩ | ⟨_, rfl, ht₁⟩ := cons_eq_append_cons_iff.mp ht
    · exact hx.elim
    obtain ⟨_, rfl, _⟩ | ⟨_, rfl, ht₂⟩ := cons_eq_append_cons_iff.mp ht₁
    · exact hx.elim
    obtain ⟨hnil, e, rfl⟩ := hleg.failure_last ht₂ hx
    exact ⟨hnil, e, rfl⟩

/-- An attempt succeeds exactly when the extend it sent is polled as a success. -/
theorem returned_ok_iff (result : InvokeOutcome) :
    o = .returned (.ok result) ↔ ∃ account q prepared tx response v,
      t = submission networkPassphrase signer prepared tx (.ok response)
        [⟨.getAccount signer.publicKey, .ok account⟩, ⟨.prepareTransaction q, .ok prepared⟩] v ∧
      PolledSuccess sdk tx v ∧ result = .executed (tx.hexHash sdk) := by
  cases h with
  | @submitted account op hop prepared t o hleg =>
    rw [Outcome.map_map_eq_returned_ok]
    constructor
    · rintro ⟨x, ho, rfl⟩
      obtain ⟨tx, response, v, rfl, hx, hmem, hs⟩ := (hleg.returned_ok_iff x).mp ho
      rw [hx] at hmem ⊢
      exact ⟨account, _, prepared, tx, response, v, rfl, ⟨x.2, hmem, hs⟩, rfl⟩
    · rintro ⟨_, _, _, tx, response, v, ht, ⟨poll, hmem, hs⟩, rfl⟩
      cases ht
      exact ⟨(tx.hexHash sdk, poll), (hleg.returned_ok_iff _).mpr
        ⟨tx, response, v, rfl, rfl, hmem, hs⟩, rfl⟩
  | _ => exact iff_of_false (by simp) (by simp [submission])

end AttemptRun

/-! ## The restore -/

namespace RestoreRun

variable {o : Outcome (Except SorobanUtilsError Unit)}
  (h : RestoreRun sdk networkPassphrase signer fee restoreData pollCfg t o)
include h

theorem length_sends_le : (sends t).length ≤ 1 := by
  cases h with
  | submitted op hop account hleg => exact hleg.length_sends_le
  | _ => exact Nat.zero_le 1

theorem prepare_notMem (q : Transaction) (r : Except RpcError Transaction) :
    (⟨.prepareTransaction q, r⟩ : Exchange) ∉ t := by
  cases h with
  | submitted op hop account hleg =>
    intro hmem
    simp only [List.mem_cons] at hmem
    obtain hmem | hmem := hmem
    · cases hmem
    · exact hleg.isLegCall _ hmem
  | _ => simp

theorem send_position {t₁ t₂ : List Exchange} {tx : Transaction}
    {r : Except RpcError SendTransactionResponse} (ht : t = t₁ ++ ⟨.sendTransaction tx, r⟩ :: t₂) :
    ∃ op account, sdk.restoreFootprint = .ok op ∧
      t₁ = [⟨.getAccount signer.publicKey, .ok account⟩] ++ [⟨.sign signer
        (restoreTransaction networkPassphrase op fee restoreData account) networkPassphrase,
        .ok tx⟩] := by
  cases h with
  | notBuilt e hop => simp at ht
  | fetching op hop => simp at ht
  | fetchFailed op hop e => simp [cons_eq_append_cons_iff] at ht
  | submitted op hop account hleg =>
    obtain ⟨_, rfl, ht₁⟩ := (cons_eq_append_cons_iff_of_ne (by simp)).mp ht
    exact ⟨op, account, hop, by rw [hleg.send_position ht₁]; rfl⟩

theorem failure_last {t₁ t₂ : List Exchange} {x : Exchange} (ht : t = t₁ ++ x :: t₂)
    (hx : IsFailure x) : t₂ = [] ∧ ∃ e, o = .returned (.error e) := by
  cases h with
  | notBuilt e hop => simp at ht
  | fetching op hop => simp at ht
  | fetchFailed op hop e =>
    simp [cons_eq_append_cons_iff] at ht
    exact ⟨ht.2.2, _, rfl⟩
  | submitted op hop account hleg =>
    obtain ⟨_, rfl, _⟩ | ⟨_, rfl, ht₁⟩ := cons_eq_append_cons_iff.mp ht
    · exact hx.elim
    obtain ⟨hnil, e, rfl⟩ := hleg.failure_last ht₁ hx
    exact ⟨hnil, e, rfl⟩

/-- A restore succeeds only when its own hash is polled as a success. -/
theorem confirmed (ho : o = .returned (.ok ())) : ∃ account unsigned tx response v,
    t = submission networkPassphrase signer unsigned tx (.ok response)
      [⟨.getAccount signer.publicKey, .ok account⟩] v ∧ PolledSuccess sdk tx v := by
  cases h with
  | @submitted op hop account t o hleg =>
    obtain ⟨x, rfl, -⟩ := Outcome.map_map_eq_returned_ok.mp ho
    obtain ⟨tx, response, v, rfl, hx, hmem, hs⟩ := (hleg.returned_ok_iff x).mp rfl
    exact ⟨account, _, tx, response, v, rfl, x.2, hx ▸ hmem, hs⟩
  | _ => cases ho

end RestoreRun

/-! ## The whole workflow -/

theorem submission_eq (unsigned tx : Transaction) (r : Except RpcError SendTransactionResponse)
    (u v : List Exchange) : submission networkPassphrase signer unsigned tx r u v =
      (u ++ [⟨.sign signer unsigned networkPassphrase, .ok tx⟩]) ++
        ⟨.sendTransaction tx, r⟩ :: v := by
  rw [submission, List.append_assoc, List.singleton_append]

theorem RestoreConfirmed.append {u : List Exchange}
    (h : RestoreConfirmed sdk networkPassphrase signer u) (v : List Exchange) :
    RestoreConfirmed sdk networkPassphrase signer (u ++ v) := by
  obtain ⟨unsigned, tx, response, u', v', rfl, hprepared, r, hmem, hs⟩ := h
  refine ⟨unsigned, tx, response, u', v' ++ v, ?_, hprepared, r, ?_, hs⟩
  · simp [submission]
  · exact List.mem_append_left v hmem

/-- A restore is signed without having been prepared. -/
private theorem not_prepared_restore {account account' : Account} {q unsigned : Transaction}
    {r : RpcError} : ¬ Prepared unsigned [⟨.getAccount signer.publicKey, .ok account⟩,
      ⟨.prepareTransaction q, .error r⟩, ⟨.getAccount signer.publicKey, .ok account'⟩] := by
  rintro ⟨q', hmem⟩
  simp at hmem

/-- A restore that has succeeded is confirmed in what follows it. -/
theorem RestoreRun.restoreConfirmed {account account' : Account} {q q' prepared : Transaction}
    {u : List Exchange}
    (h : RestoreRun sdk networkPassphrase signer fee restoreData pollCfg u
      (.returned (.ok ()))) :
    RestoreConfirmed sdk networkPassphrase signer
      (⟨.getAccount signer.publicKey, .ok account⟩ ::
        ⟨.prepareTransaction q, .error (.restorationRequired fee restoreData)⟩ ::
        (u ++ [⟨.getAccount signer.publicKey, .ok account'⟩,
          ⟨.prepareTransaction q', .ok prepared⟩])) := by
  obtain ⟨account'', unsigned, tx, response, v, rfl, hpolled⟩ := h.confirmed rfl
  have hconf : RestoreConfirmed sdk networkPassphrase signer
      (submission networkPassphrase signer unsigned tx (.ok response)
        [⟨.getAccount signer.publicKey, .ok account⟩,
          ⟨.prepareTransaction q, .error (.restorationRequired fee restoreData)⟩,
          ⟨.getAccount signer.publicKey, .ok account''⟩] v) :=
    ⟨unsigned, tx, response, _, v, rfl, not_prepared_restore, hpolled⟩
  have happend := hconf.append [⟨.getAccount signer.publicKey, .ok account'⟩,
    ⟨.prepareTransaction q', .ok prepared⟩]
  simpa [submission] using happend

namespace ExtendRun

variable {o : Outcome (Except SorobanUtilsError InvokeOutcome)}
  (h : ExtendRun sdk networkPassphrase signer extendTo data pollCfg t o)
include h

/-- The three places of a send: the first attempt, the restore, and the second attempt. -/
theorem send_position {t₁ t₂ : List Exchange} {tx : Transaction}
    {r : Except RpcError SendTransactionResponse} (ht : t = t₁ ++ ⟨.sendTransaction tx, r⟩ :: t₂) :
    (¬ AskedToRestore t ∧ ∃ account q prepared, t₁ = [⟨.getAccount signer.publicKey, .ok account⟩,
      ⟨.prepareTransaction q, .ok prepared⟩] ++
        [⟨.sign signer prepared networkPassphrase, .ok tx⟩]) ∨
    (∃ account q fee restoreData op account', sdk.restoreFootprint = .ok op ∧
      t₁ = [⟨.getAccount signer.publicKey, .ok account⟩,
        ⟨.prepareTransaction q, .error (.restorationRequired fee restoreData)⟩,
        ⟨.getAccount signer.publicKey, .ok account'⟩] ++
        [⟨.sign signer (restoreTransaction networkPassphrase op fee restoreData account')
          networkPassphrase, .ok tx⟩]) ∨
    ∃ account q fee restoreData u account' q' prepared,
      RestoreRun sdk networkPassphrase signer fee restoreData pollCfg u (.returned (.ok ())) ∧
      t₁ = ⟨.getAccount signer.publicKey, .ok account⟩ ::
        ⟨.prepareTransaction q, .error (.restorationRequired fee restoreData)⟩ ::
        (u ++ [⟨.getAccount signer.publicKey, .ok account'⟩,
          ⟨.prepareTransaction q', .ok prepared⟩]) ++
        [⟨.sign signer prepared networkPassphrase, .ok tx⟩] := by
  cases h with
  | once hattempt hno =>
    refine .inl ⟨fun ⟨q, fee, restoreData, hmem⟩ ↦ hno q fee restoreData hmem, ?_⟩
    exact hattempt.send_position ht
  | restoring account op hop fee restoreData f hrestore ho =>
    obtain ⟨_, rfl, ht₁⟩ := (cons_eq_append_cons_iff_of_ne (by simp)).mp ht
    obtain ⟨_, rfl, ht₂⟩ := (cons_eq_append_cons_iff_of_ne (by simp)).mp ht₁
    obtain ⟨op', account', hop', rfl⟩ := hrestore.send_position ht₂
    exact .inr (.inl ⟨account, _, fee, restoreData, op', account', hop', rfl⟩)
  | restored account op hop fee restoreData hrestore hattempt =>
    obtain ⟨_, rfl, ht₁⟩ := (cons_eq_append_cons_iff_of_ne (by simp)).mp ht
    obtain ⟨_, rfl, ht₂⟩ := (cons_eq_append_cons_iff_of_ne (by simp)).mp ht₁
    obtain ⟨a, ht₃, _⟩ | ⟨a, rfl, ht₃⟩ := append_cons_eq_append_iff.mp ht₂
    · obtain ⟨op', account', hop', rfl⟩ := hrestore.send_position ht₃
      exact .inr (.inl ⟨account, _, fee, restoreData, op', account', hop', rfl⟩)
    · obtain ⟨account', q', prepared, rfl⟩ := hattempt.send_position ht₃
      refine .inr (.inr ⟨account, extendTransaction networkPassphrase op data account, fee,
        restoreData, _, account', q', prepared, hrestore, ?_⟩)
      simp

/-- What is sent has just been signed. -/
theorem signed {t₁ t₂ : List Exchange} {tx : Transaction}
    {r : Except RpcError SendTransactionResponse} (ht : t = t₁ ++ ⟨.sendTransaction tx, r⟩ :: t₂) :
    ∃ u unsigned, t₁ = u ++ [⟨.sign signer unsigned networkPassphrase, .ok tx⟩] := by
  obtain ⟨_, _, _, prepared, rfl⟩ | ⟨_, _, fee, restoreData, op, account, _, rfl⟩ |
    ⟨_, _, _, _, _, _, _, prepared, _, rfl⟩ := h.send_position ht
  · exact ⟨_, prepared, rfl⟩
  · exact ⟨_, _, rfl⟩
  · exact ⟨_, prepared, rfl⟩

/-- What is sent without having been prepared is the restore that the first prepare asked for. -/
theorem restore_of_not_prepared (hsdk : sdk.Lawful) {unsigned tx : Transaction}
    {r : Except RpcError SendTransactionResponse} {u v : List Exchange}
    (ht : t = submission networkPassphrase signer unsigned tx r u v)
    (hprepared : ¬ Prepared unsigned u) :
    ∃ fee data, FirstPrepare (.error (.restorationRequired fee data)) u ∧
      unsigned.contents.operations = [.restoreFootprint] ∧
      unsigned.contents.sorobanData = some data := by
  obtain ⟨_, account, q, prepared, hu⟩ | ⟨account, q, fee, restoreData, op, account', hop, hu⟩ |
    ⟨_, _, _, _, _, _, q', prepared, _, hu⟩ := h.send_position (ht.trans (submission_eq ..))
  · obtain ⟨rfl, hsign⟩ := eq_of_append_singleton hu
    cases hsign
    exact absurd ⟨q, by simp⟩ hprepared
  · obtain ⟨rfl, hsign⟩ := eq_of_append_singleton hu
    cases hsign
    cases hop.symm.trans hsdk.restoreFootprint
    exact ⟨fee, restoreData, ⟨[_], q, [_], rfl, by simp⟩, rfl, rfl⟩
  · obtain ⟨rfl, hsign⟩ := eq_of_append_singleton hu
    cases hsign
    exact absurd ⟨q', by simp⟩ hprepared

/-- An extend that is sent although a restore was asked for comes after that restore. -/
theorem restoreConfirmed_of_prepared {unsigned tx : Transaction}
    {r : Except RpcError SendTransactionResponse} {u v : List Exchange}
    (ht : t = submission networkPassphrase signer unsigned tx r u v)
    (hprepared : Prepared unsigned u) (hasked : AskedToRestore t) :
    RestoreConfirmed sdk networkPassphrase signer u := by
  obtain ⟨hno, _⟩ | ⟨_, _, _, _, _, _, _, hu⟩ | ⟨_, _, _, _, _, _, _, _, hrestore, hu⟩ :=
    h.send_position (ht.trans (submission_eq ..))
  · exact absurd hasked hno
  · obtain ⟨rfl, _⟩ := eq_of_append_singleton hu
    exact absurd hprepared not_prepared_restore
  · obtain ⟨rfl, _⟩ := eq_of_append_singleton hu
    exact hrestore.restoreConfirmed

theorem length_sends_le : (sends t).length ≤ 2 := by
  cases h with
  | once hattempt hno => exact hattempt.length_sends_le.trans (by decide)
  | restoring account op hop fee restoreData f hrestore ho =>
    exact hrestore.length_sends_le.trans (by decide)
  | @restored account op hop fee restoreData t₁ t₂ o hrestore hattempt =>
    have hsends : sends (⟨.getAccount signer.publicKey, .ok account⟩ ::
        ⟨.prepareTransaction (extendTransaction networkPassphrase op data account),
          .error (.restorationRequired fee restoreData)⟩ :: (t₁ ++ t₂)) =
        sends t₁ ++ sends t₂ := sends_append t₁ t₂
    rw [hsends, List.length_append]
    exact Nat.add_le_add hrestore.length_sends_le hattempt.length_sends_le

theorem failure_last {t₁ t₂ : List Exchange} {x : Exchange} (ht : t = t₁ ++ x :: t₂)
    (hx : IsFailure x) : t₂ = [] ∧ ∃ e, o = .returned (.error e) := by
  cases h with
  | once hattempt hno => exact hattempt.failure_last ht hx
  | restoring account op hop fee restoreData f hrestore ho =>
    obtain ⟨_, rfl, _⟩ | ⟨_, rfl, ht₁⟩ := cons_eq_append_cons_iff.mp ht
    · exact hx.elim
    obtain ⟨_, rfl, _⟩ | ⟨_, rfl, ht₂⟩ := cons_eq_append_cons_iff.mp ht₁
    · exact hx.elim
    obtain ⟨hnil, e, rfl⟩ := hrestore.failure_last ht₂ hx
    exact ⟨hnil, e, rfl⟩
  | restored account op hop fee restoreData hrestore hattempt =>
    obtain ⟨_, rfl, _⟩ | ⟨_, rfl, ht₁⟩ := cons_eq_append_cons_iff.mp ht
    · exact hx.elim
    obtain ⟨_, rfl, _⟩ | ⟨_, rfl, ht₂⟩ := cons_eq_append_cons_iff.mp ht₁
    · exact hx.elim
    obtain ⟨a, ht₃, _⟩ | ⟨a, rfl, ht₃⟩ := append_cons_eq_append_iff.mp ht₂
    · -- The restore succeeded, so none of its steps failed.
      obtain ⟨_, e, he⟩ := hrestore.failure_last ht₃ hx
      cases he
    · exact hattempt.failure_last ht₃ hx

theorem secondPrepare_last {t₁ t₂ : List Exchange} {q : Transaction} {e : RpcError}
    (ht : t = t₁ ++ ⟨.prepareTransaction q, .error e⟩ :: t₂)
    (hfirst : ∃ q' r', (⟨.prepareTransaction q', r'⟩ : Exchange) ∈ t₁) :
    t₂ = [] ∧ o = .returned (.error (simulationError sdk e)) := by
  obtain ⟨q', r', hmem⟩ := hfirst
  cases h with
  | once hattempt hno => exact hattempt.prepareFailed_last ht
  | restoring account op hop fee restoreData f hrestore ho =>
    obtain ⟨_, rfl, ht₁⟩ := (cons_eq_append_cons_iff_of_ne (by simp)).mp ht
    obtain ⟨rfl, _, _⟩ | ⟨_, rfl, rfl⟩ := cons_eq_append_cons_iff.mp ht₁
    · simp at hmem
    · exact absurd List.mem_append_cons_self (hrestore.prepare_notMem q (.error e))
  | restored account op hop fee restoreData hrestore hattempt =>
    obtain ⟨_, rfl, ht₁⟩ := (cons_eq_append_cons_iff_of_ne (by simp)).mp ht
    obtain ⟨rfl, _, _⟩ | ⟨_, rfl, ht₂⟩ := cons_eq_append_cons_iff.mp ht₁
    · simp at hmem
    obtain ⟨a, rfl, _⟩ | ⟨a, rfl, ht₃⟩ := append_cons_eq_append_iff.mp ht₂
    · exact absurd List.mem_append_cons_self (hrestore.prepare_notMem q (.error e))
    · exact hattempt.prepareFailed_last ht₃

theorem prepare_eq {q : Transaction} {r : Except RpcError Transaction}
    (hmem : (⟨.prepareTransaction q, r⟩ : Exchange) ∈ t) : ∃ op account,
      sdk.extendFootprintTtl extendTo = .ok op ∧
        q = extendTransaction networkPassphrase op data account := by
  cases h with
  | once hattempt hno => exact hattempt.prepare_eq hmem
  | restoring account op hop fee restoreData f hrestore ho =>
    simp only [List.mem_cons] at hmem
    obtain hmem | hmem | hmem := hmem
    · cases hmem
    · cases hmem
      exact ⟨op, account, hop, rfl⟩
    · exact absurd hmem (hrestore.prepare_notMem q r)
  | restored account op hop fee restoreData hrestore hattempt =>
    simp only [List.mem_cons, List.mem_append] at hmem
    obtain hmem | hmem | hmem | hmem := hmem
    · cases hmem
    · cases hmem
      exact ⟨op, account, hop, rfl⟩
    · exact absurd hmem (hrestore.prepare_notMem q r)
    · exact hattempt.prepare_eq hmem

/-- A submission of something prepared is that of an attempt. -/
theorem returned_ok_iff (result : InvokeOutcome) :
    o = .returned (.ok result) ↔ ∃ unsigned tx response u v,
      t = submission networkPassphrase signer unsigned tx (.ok response) u v ∧
        Prepared unsigned u ∧ PolledSuccess sdk tx v ∧ result = .executed (tx.hexHash sdk) := by
  cases h with
  | once hattempt hno =>
    rw [hattempt.returned_ok_iff]
    constructor
    · rintro ⟨account, q, prepared, tx, response, v, rfl, hpolled, rfl⟩
      exact ⟨prepared, tx, response, _, v, rfl, ⟨q, by simp⟩, hpolled, rfl⟩
    · rintro ⟨unsigned, tx, response, u, v, ht, hprepared, hpolled, rfl⟩
      obtain ⟨account, q, prepared, hu⟩ := hattempt.send_position (ht.trans (submission_eq ..))
      obtain ⟨rfl, hsign⟩ := eq_of_append_singleton hu
      cases hsign
      exact ⟨account, q, unsigned, tx, response, v, ht, hpolled, rfl⟩
  | @restoring account op hop fee restoreData f t o hrestore ho =>
    refine iff_of_false (fun hok ↦ ?_) ?_
    · obtain ⟨_, rfl, -⟩ := Outcome.map_map_eq_returned_ok.mp hok
      exact ho rfl
    · -- The restore is submitted as it was built, never as something that was prepared.
      rintro ⟨unsigned, tx, response, u, v, ht, ⟨q, hmem⟩, hpolled, rfl⟩
      rw [submission_eq] at ht
      obtain ⟨_, hu, ht₁⟩ := (cons_eq_append_cons_iff_of_ne (by simp)).mp ht
      obtain ⟨_, rfl, ht₂⟩ := (cons_eq_append_cons_iff_of_ne (by simp)).mp ht₁
      obtain ⟨op', account', hop', rfl⟩ := hrestore.send_position ht₂
      obtain ⟨rfl, _⟩ := eq_of_append_singleton (v := [_, _, _]) hu
      simp at hmem
  | @restored account op hop fee restoreData t₁ t₂ o hrestore hattempt =>
    rw [hattempt.returned_ok_iff]
    constructor
    · rintro ⟨account', q, prepared, tx, response, v, rfl, hpolled, rfl⟩
      refine ⟨prepared, tx, response, ⟨.getAccount signer.publicKey, .ok account⟩ ::
        ⟨.prepareTransaction (extendTransaction networkPassphrase op data account),
          .error (.restorationRequired fee restoreData)⟩ ::
        (t₁ ++ [⟨.getAccount signer.publicKey, .ok account'⟩,
          ⟨.prepareTransaction q, .ok prepared⟩]), v, ?_, ⟨q, by simp⟩, hpolled, rfl⟩
      simp [submission]
    · rintro ⟨unsigned, tx, response, u, v, ht, ⟨q, hmem⟩, hpolled, rfl⟩
      rw [submission_eq] at ht
      obtain ⟨_, hu, ht₁⟩ := (cons_eq_append_cons_iff_of_ne (by simp)).mp ht
      obtain ⟨_, rfl, ht₂⟩ := (cons_eq_append_cons_iff_of_ne (by simp)).mp ht₁
      obtain ⟨a, ht₃, _⟩ | ⟨a, rfl, rfl⟩ := append_cons_eq_append_iff.mp ht₂
      · obtain ⟨op', account', hop', rfl⟩ := hrestore.send_position ht₃
        obtain ⟨rfl, _⟩ := eq_of_append_singleton (v := [_, _, _]) hu
        simp at hmem
      · obtain ⟨account', q', prepared, rfl⟩ := hattempt.send_position rfl
        rw [← List.append_assoc] at hu
        obtain ⟨rfl, hsign⟩ := eq_of_append_singleton (v := _ :: _ :: (t₁ ++ [_, _])) hu
        cases hsign
        exact ⟨account', q', unsigned, tx, response, v, rfl, hpolled, rfl⟩

end ExtendRun

/-- **Restore, then extend.** Every run of the workflow keeps to the rules. -/
theorem restoreThenExtend (sdk : Sdk) (hsdk : sdk.Lawful) (networkPassphrase : String)
    (signer : Signer) (ledgerKey : LedgerKey) (extendTo : UInt32) (pollCfg : PollConfig)
    (t : List Exchange) (o : Outcome (Except SorobanUtilsError InvokeOutcome))
    (h : Runs (extendLedgerKeyTtl sdk networkPassphrase signer ledgerKey extendTo pollCfg).run
      t o) :
    RestoreThenExtend sdk networkPassphrase signer ledgerKey extendTo t o := by
  have hrun := runs_extendLedgerKeyTtl.mp h
  refine
    { atMostTwo := hrun.length_sends_le
      signed := fun u tx r v ht ↦ hrun.signed ht
      restore := fun unsigned tx r u v ht ↦ hrun.restore_of_not_prepared hsdk ht
      extendAfterRestore := ?_
      unconfirmed := ?_
      failure := fun u x v ht hx ↦ hrun.failure_last ht hx
      secondPrepare := fun u q e v ht hfirst ↦ hrun.secondPrepare_last ht hfirst
      prepare := ?_
      executed := hrun.returned_ok_iff }
  · rintro unsigned tx r u v rfl hprepared ⟨q, fee, restoreData, hmem⟩
    exact hrun.restoreConfirmed_of_prepared rfl hprepared
      ⟨q, fee, restoreData, List.mem_append_left _ hmem⟩
  · intro hasked hunconfirmed
    have hnone (unsigned tx r u v)
        (ht : t = submission networkPassphrase signer unsigned tx r u v) :
        ¬ Prepared unsigned u := fun hprepared ↦ by
      have hconf := hrun.restoreConfirmed_of_prepared ht hprepared hasked
      rw [ht] at hunconfirmed
      exact hunconfirmed (hconf.append _)
    refine ⟨fun result ho ↦ ?_, hnone⟩
    cases result with
    | error e => exact ⟨e, rfl⟩
    | ok result =>
      obtain ⟨unsigned, tx, response, u, v, ht, hprepared, _⟩ :=
        (hrun.returned_ok_iff result).mp ho
      exact absurd hprepared (hnone unsigned tx (.ok response) u v ht)
  · intro q r hmem
    obtain ⟨op, account, hop, rfl⟩ := hrun.prepare_eq hmem
    cases hsdk.extendFootprintTtl hop
    exact ⟨rfl, extendData ledgerKey, rfl, rfl, rfl⟩

/-! ## A run through the restore -/

/-- The exchanges of an extend that needs a restore, on which everything succeeds. -/
def restoredRun : List Exchange :=
  let key := LedgerKey.contractCode zeroHash
  let extend (sequence : ℤ) := extendTransaction NetworkConfig.testnet.networkPassphrase
    (.extendFootprintTtl 1000) (extendData key) ⟨"G", sequence⟩
  ⟨.getAccount "G", .ok ⟨"G", 7⟩⟩ ::
    ⟨.prepareTransaction (extend 7), .error (.restorationRequired 50 (extendData key))⟩ ::
    (⟨.getAccount "G", .ok ⟨"G", 7⟩⟩ :: successfulLeg
      (restoreTransaction NetworkConfig.testnet.networkPassphrase .restoreFootprint 50
        (extendData key) ⟨"G", 7⟩) ++
      ⟨.getAccount "G", .ok ⟨"G", 8⟩⟩ :: ⟨.prepareTransaction (extend 8), .ok (extend 8)⟩ ::
        successfulLeg (extend 8))

theorem restoreThenExtend_restoredRun :
    RestoreThenExtend .sample NetworkConfig.testnet.networkPassphrase .sample
      (.contractCode zeroHash) 1000 restoredRun
      (.returned (.ok (.executed ((extendTransaction NetworkConfig.testnet.networkPassphrase
        (.extendFootprintTtl 1000) (extendData (.contractCode zeroHash)) ⟨"G", 8⟩).hexHash
          .sample)))) :=
  restoreThenExtend .sample Sdk.sample_lawful _ _ _ _ .default _ _
    (runs_extendLedgerKeyTtl.mpr (.restored ⟨"G", 7⟩ (.extendFootprintTtl 1000) rfl 50
      (extendData (.contractCode zeroHash))
      (.submitted .restoreFootprint rfl ⟨"G", 7⟩ (legRun_successfulLeg _))
      (.submitted ⟨"G", 8⟩ (.extendFootprintTtl 1000) rfl _ (legRun_successfulLeg _))))

end StellarRustClient
