import StellarRustClient.Ttl.ExtendCall
import StellarRustClient.Ttl.LiveEntry
import StellarRustClient.Ttl.RestoreThenExtend

/-!
# An absolute target as a relative argument

The functions that extend an entry are documented to take the ledger that the entry is to live until
at least. They hand it on as it is to `ExtendFootprintTTL`, which counts ledgers from the current
one. `ReachesTarget` is what the documentation asks of a run, `ExtendCall.MeetsTarget` of every run
of a call, and `meetsTarget_iff` says on which ledgers and for which targets the code does it.
-/

namespace StellarRustClient

open Interaction

/-! ## What is asked of a run -/

/-- Preparing a transaction keeps the footprint that it was given. -/
def PrepareKeepsFootprint (t : List Exchange) : Prop :=
  ∀ q prepared, (⟨.prepareTransaction q, .ok prepared⟩ : Exchange) ∈ t →
    q.contents.sorobanData ≠ none → prepared.contents.readOnly = q.contents.readOnly

/-- What is assumed of the node and of the signers in a run. -/
structure KeepsContents (t : List Exchange) : Prop where
  operations : PrepareKeepsOperations t
  footprint : PrepareKeepsFootprint t
  signed : SignerKeepsContents t

/-- What is asked of a run of a call about the entry `target`: the network does not reject an extend
that is built, and a run that executes has the entry live until `extendTo`, or as long as it did. -/
structure ReachesTarget (sdk : Sdk) (s : LiveEntry) (target : Except SorobanUtilsError LedgerKey)
    (extendTo : UInt32) (t : List Exchange)
    (o : Outcome (Except SorobanUtilsError InvokeOutcome)) : Prop where
  notRejected : ∀ q r n, ⟨.prepareTransaction q, r⟩ ∈ t →
    .extendFootprintTtl n ∈ q.contents.operations → ¬ s.Rejects n
  liveUntil : ∀ key hash, target = .ok key → o = .returned (.ok (.executed hash)) →
    (s.afterRun sdk key t).liveUntil = max s.liveUntil extendTo.toNat

/-- Every run of the call reaches the target. -/
def ExtendCall.MeetsTarget (sdk : Sdk) (e : ExtendCall) (s : LiveEntry) (extendTo : UInt32) :
    Prop :=
  ∀ t o, KeepsContents t → Runs (e.call sdk extendTo).run t o →
    ReachesTarget sdk s (e.ledgerKey sdk) extendTo t o

variable {sdk : Sdk} {networkPassphrase : String} {signer : Signer} {extendTo : UInt32}
  {data restoreData : SorobanTransactionData} {pollCfg : PollConfig} {fee : Int64}
  {t : List Exchange}

theorem KeepsContents.of_inScope {t' : List Exchange} (h : KeepsContents t')
    (hscope : InScope t t') : KeepsContents t where
  operations q prepared hmem := h.operations q prepared ((hscope.mem_iff id).mpr hmem)
  footprint q prepared hmem := h.footprint q prepared ((hscope.mem_iff id).mpr hmem)
  signed signer tx passphrase signed hmem :=
    h.signed signer tx passphrase signed ((hscope.mem_iff id).mpr hmem)

theorem KeepsContents.inScope {t' : List Exchange} (h : KeepsContents t) (hscope : InScope t t') :
    KeepsContents t' where
  operations q prepared hmem := h.operations q prepared ((hscope.mem_iff id).mp hmem)
  footprint q prepared hmem := h.footprint q prepared ((hscope.mem_iff id).mp hmem)
  signed signer tx passphrase signed hmem :=
    h.signed signer tx passphrase signed ((hscope.mem_iff id).mp hmem)

theorem LiveEntry.afterRun_of_inScope {t' : List Exchange} {s : LiveEntry} {key : LedgerKey}
    (hscope : InScope t t') : s.afterRun sdk key t' = s.afterRun sdk key t := by
  classical
  have hfilter : (sends t).filter (fun tx ↦ PolledSuccess sdk tx t') =
      (sends t).filter fun tx ↦ PolledSuccess sdk tx t :=
    List.filter_congr fun tx _ ↦ decide_eq_decide.mpr hscope.polledSuccess_iff
  rw [LiveEntry.afterRun, LiveEntry.confirmed, hscope.sends_eq, hfilter]
  rfl

/-! ## What a run that executes has sent -/

section Executed

variable {result : InvokeOutcome} {o : Outcome (Except SorobanUtilsError InvokeOutcome)}
  (ho : o = .returned (.ok result))
include ho

theorem AttemptRun.sends_of_returned_ok
    (h : AttemptRun sdk networkPassphrase signer extendTo data pollCfg t o) :
    ∃ account op prepared tx, sends t = [tx] ∧ PolledSuccess sdk tx t ∧
      sdk.extendFootprintTtl extendTo = .ok op ∧
      ⟨.prepareTransaction (extendTransaction networkPassphrase op data account),
        .ok prepared⟩ ∈ t ∧ ⟨.sign signer prepared networkPassphrase, .ok tx⟩ ∈ t := by
  cases h with
  | @submitted account op hop prepared t o hleg =>
    obtain ⟨x, rfl, -⟩ := Outcome.map_map_eq_returned_ok.mp ho
    obtain ⟨tx, hsends, -, hsign, r, hmem, hs⟩ := hleg.sends_of_returned_ok rfl
    refine ⟨account, op, prepared, tx, hsends, ⟨r, ?_, hs⟩, hop, by simp, ?_⟩
    · exact List.mem_cons_of_mem _ (List.mem_cons_of_mem _ hmem)
    · exact List.mem_cons_of_mem _ (List.mem_cons_of_mem _ hsign)
  | _ => cases ho

omit ho in
theorem RestoreRun.sends_of_returned_ok {o : Outcome (Except SorobanUtilsError Unit)}
    (ho : o = .returned (.ok ()))
    (h : RestoreRun sdk networkPassphrase signer fee restoreData pollCfg t o) :
    ∃ account op tx, sends t = [tx] ∧ sdk.restoreFootprint = .ok op ∧
      ⟨.sign signer (restoreTransaction networkPassphrase op fee restoreData account)
        networkPassphrase, .ok tx⟩ ∈ t := by
  cases h with
  | @submitted op hop account t o hleg =>
    obtain ⟨x, rfl, -⟩ := Outcome.map_map_eq_returned_ok.mp ho
    obtain ⟨tx, hsends, -, hsign, -⟩ := hleg.sends_of_returned_ok rfl
    exact ⟨account, op, tx, hsends, hop, List.mem_cons_of_mem _ hsign⟩
  | _ => cases ho

/-- Under the assumptions, a run that executes moves the entry by its own target. -/
theorem ExtendRun.afterRun_eq {key : LedgerKey} (hsdk : sdk.Lawful) (hkeeps : KeepsContents t)
    (h : ExtendRun sdk networkPassphrase signer extendTo (extendData key) pollCfg t o)
    (s : LiveEntry) : s.afterRun sdk key t = s.extend extendTo := by
  -- What the attempt that executes has sent, in whatever trace it is part of.
  have hattempt {account : Account} {op : Operation} {prepared tx : Transaction}
      (hop : sdk.extendFootprintTtl extendTo = .ok op)
      (hprepare : ⟨.prepareTransaction (extendTransaction networkPassphrase op (extendData key)
        account), .ok prepared⟩ ∈ t)
      (hsign : ⟨.sign signer prepared networkPassphrase, .ok tx⟩ ∈ t) :
      key ∈ tx.contents.readOnly ∧ tx.contents.operations = [.extendFootprintTtl extendTo] := by
    cases hsdk.extendFootprintTtl hop
    rw [hkeeps.signed _ _ _ _ hsign, hkeeps.operations _ _ hprepare,
      hkeeps.footprint _ _ hprepare (by simp [extendTransaction, buildTransaction,
        TransactionBuilder.build])]
    exact ⟨List.mem_singleton_self key, rfl⟩
  cases h with
  | once hrun hno =>
    obtain ⟨account, op, prepared, tx, hsends, hpolled, hop, hprepare, hsign⟩ :=
      hrun.sends_of_returned_ok ho
    obtain ⟨hkey, hops⟩ := hattempt hop hprepare hsign
    exact LiveEntry.afterRun_of_sends [] hsends hpolled (by simp) hkey hops
  | restoring account op hop fee restoreData f hrestore hne =>
    obtain ⟨_, rfl, -⟩ := Outcome.map_map_eq_returned_ok.mp ho
    exact absurd rfl hne
  | @restored account op hop fee restoreData t₁ t₂ o hrestore hrun =>
    obtain ⟨_, op₁, tx₁, hsends₁, hop₁, hsign₁⟩ := hrestore.sends_of_returned_ok rfl
    obtain ⟨account₂, op₂, prepared, tx₂, hsends₂, ⟨r, hmem, hs⟩, hop₂, hprepare, hsign₂⟩ :=
      hrun.sends_of_returned_ok ho
    have hleft {x a b : Exchange} (hx : x ∈ t₁) : x ∈ a :: b :: (t₁ ++ t₂) :=
      List.mem_cons_of_mem _ (List.mem_cons_of_mem _ (List.mem_append_left t₂ hx))
    have hright {x a b : Exchange} (hx : x ∈ t₂) : x ∈ a :: b :: (t₁ ++ t₂) :=
      List.mem_cons_of_mem _ (List.mem_cons_of_mem _ (List.mem_append_right t₁ hx))
    obtain ⟨hkey, hops⟩ := hattempt hop₂ (hright hprepare) (hright hsign₂)
    refine LiveEntry.afterRun_of_sends [tx₁] ?_ ⟨r, hright hmem, hs⟩ ?_ hkey hops
    · refine (sends_append t₁ t₂).trans ?_
      rw [hsends₁, hsends₂]
    · intro tx htx
      rw [List.mem_singleton.mp htx, hkeeps.signed _ _ _ _ (hleft hsign₁)]
      rw [hsdk.restoreFootprint] at hop₁
      cases hop₁
      rfl

/-- A run that executes could represent the deadline of its poll. -/
theorem ExtendRun.timeout_le_of_returned_ok
    (h : ExtendRun sdk networkPassphrase signer extendTo data pollCfg t o) :
    pollCfg.timeout.nanos ≤ sdk.instantMax := by
  have hattempt {t : List Exchange} {o : Outcome (Except SorobanUtilsError InvokeOutcome)}
      (ho : o = .returned (.ok result))
      (hrun : AttemptRun sdk networkPassphrase signer extendTo data pollCfg t o) :
      pollCfg.timeout.nanos ≤ sdk.instantMax := by
    cases hrun with
    | submitted account op hop prepared hleg =>
      obtain ⟨x, rfl, -⟩ := Outcome.map_map_eq_returned_ok.mp ho
      exact hleg.timeout_le_of_returned_ok rfl
    | _ => cases ho
  cases h with
  | once hrun hno => exact hattempt ho hrun
  | restoring account op hop fee restoreData f hrestore hne =>
    obtain ⟨_, rfl, -⟩ := Outcome.map_map_eq_returned_ok.mp ho
    exact absurd rfl hne
  | restored account op hop fee restoreData hrestore hrun => exact hattempt ho hrun

end Executed

/-! ## Runs that there are -/

/-- A node may refuse what was built. -/
theorem exists_preparedRun (networkPassphrase : String) (signer : Signer)
    (data : SorobanTransactionData) (pollCfg : PollConfig) {op : Operation}
    (hop : sdk.extendFootprintTtl extendTo = .ok op) : ∃ t e account, KeepsContents t ∧
      ExtendRun sdk networkPassphrase signer extendTo data pollCfg t (.returned (.error e)) ∧
      ⟨.prepareTransaction (extendTransaction networkPassphrase op data account),
        .error (.other "")⟩ ∈ t := by
  refine ⟨_, _, ⟨signer.publicKey, 0⟩, ⟨?_, ?_, ?_⟩,
    .once (.prepareFailed ⟨signer.publicKey, 0⟩ op hop (.other "")) (by simp), by simp⟩
  · intro q prepared hmem
    simp at hmem
  · intro q prepared hmem
    simp at hmem
  · intro signer tx passphrase signed hmem
    simp at hmem

/-- With a node and a signer that keep what they are given, and a deadline that can be represented,
an extend can execute. -/
theorem exists_executedRun (networkPassphrase : String) (signer : Signer)
    (data : SorobanTransactionData) {op : Operation}
    (hop : sdk.extendFootprintTtl extendTo = .ok op)
    (htimeout : pollCfg.timeout.nanos ≤ sdk.instantMax) : ∃ t hash, KeepsContents t ∧
      ExtendRun sdk networkPassphrase signer extendTo data pollCfg t
        (.returned (.ok (.executed hash))) := by
  have hpoll (hash : String) : Runs (pollTransactionStatus sdk hash pollCfg).run
      [⟨.now, 0⟩, ⟨.getTransaction hash, .ok ⟨.success, none⟩⟩]
      (.returned (.ok ⟨.success, none⟩)) :=
    runs_poll_success ((Nat.zero_add _).trans_le htimeout) rfl
  have hleg (tx : Transaction) : LegRun sdk networkPassphrase signer tx pollCfg _ _ :=
    .polling tx ⟨.pending, ""⟩ (hpoll _)
  refine ⟨_, _, ⟨?_, ?_, ?_⟩, .once (.submitted ⟨signer.publicKey, 0⟩ op hop _ (hleg
    (extendTransaction networkPassphrase op data ⟨signer.publicKey, 0⟩))) (by simp)⟩
  · intro q prepared hmem
    simp at hmem
    obtain ⟨rfl, rfl⟩ := hmem
    rfl
  · intro q prepared hmem _
    simp at hmem
    obtain ⟨rfl, rfl⟩ := hmem
    rfl
  · intro signer tx passphrase signed hmem
    simp at hmem
    obtain ⟨⟨-, rfl, -⟩, rfl⟩ := hmem
    rfl

/-! ## When the target is reached -/

/-- **Absolute targets.** A call reaches every target it can be asked for exactly when its arguments
name no entry at all, or the target is under the limit as a number of ledgers and, counted from the
current ledger, still within the entry's life; at ledger zero the two readings agree, and a
deadline that cannot be represented keeps the call from executing. -/
theorem meetsTarget_iff (sdk : Sdk) (hsdk : sdk.Lawful) (e : ExtendCall) (s : LiveEntry)
    (extendTo : UInt32) (hpast : s.current < extendTo.toNat) :
    e.MeetsTarget sdk s extendTo ↔ (∃ err, e.ledgerKey sdk = .error err) ∨
      (extendTo.toNat ≤ s.maxEntryTtl - 1 ∧
        (s.current = 0 ∨ s.current + extendTo.toNat ≤ s.liveUntil ∨
          sdk.instantMax < e.pollCfg.timeout.nanos)) := by
  have hpos : 0 < extendTo := UInt32.lt_iff_toNat_lt.mpr (Nat.zero_lt_of_lt hpast)
  obtain ⟨op, hop⟩ := hsdk.extendFootprintTtl_isOk extendTo hpos
  constructor
  · intro hmeets
    cases hkey : e.ledgerKey sdk with
    | error err => exact .inl ⟨err, rfl⟩
    | ok key =>
      obtain ⟨networkPassphrase, signer, hruns⟩ := e.exists_runs hkey
      -- A run that is prepared and refused shows the limit, one that executes shows the life.
      have hlimit : ¬ s.Rejects extendTo := by
        obtain ⟨t, err, account, hkeeps, hrun, hmem⟩ :=
          exists_preparedRun networkPassphrase signer (extendData key) e.pollCfg hop
        obtain ⟨t', hscope, hcall⟩ := hruns t _ hrun
        refine (hmeets t' _ (hkeeps.inScope hscope) hcall).notRejected _ _ extendTo
          ((hscope.mem_iff id).mpr hmem) ?_
        rw [hsdk.extendFootprintTtl hop]
        exact List.mem_singleton_self _
      refine .inr ⟨Nat.le_of_not_lt hlimit, ?_⟩
      by_cases htimeout : e.pollCfg.timeout.nanos ≤ sdk.instantMax
      · obtain ⟨t, hash, hkeeps, hrun⟩ :=
          exists_executedRun networkPassphrase signer (extendData key) hop htimeout
        obtain ⟨t', hscope, hcall⟩ := hruns t _ hrun
        have hlive := (hmeets t' _ (hkeeps.inScope hscope) hcall).liveUntil key hash hkey rfl
        rw [LiveEntry.afterRun_of_inScope hscope, hrun.afterRun_eq rfl hsdk hkeeps,
          LiveEntry.liveUntil_extend_eq_iff hlimit] at hlive
        exact hlive.imp_right .inl
      · exact .inr (.inr (Nat.lt_of_not_le htimeout))
  · intro hcond t o hkeeps hcall
    obtain ⟨ht, ho⟩ | ⟨key, networkPassphrase, signer, t', o', hkey, hrun, hscope, ho⟩ :=
      ExtendCall.exists_extendRun hcall
    · refine ⟨fun q r n hmem ↦ (ht _ hmem).elim, fun key hash _ ho' ↦ ?_⟩
      exact absurd ho' (ho _)
    obtain ⟨err, herr⟩ | ⟨hlimit, hcond⟩ := hcond
    · cases hkey.symm.trans herr
    have hrejects : ¬ s.Rejects extendTo := Nat.not_lt.mpr hlimit
    refine ⟨fun q r n hmem hn ↦ ?_, fun key' hash hkey' ho' ↦ ?_⟩
    · obtain ⟨op', account, hop', rfl⟩ := hrun.prepare_eq ((hscope.mem_iff id).mp hmem)
      rw [hsdk.extendFootprintTtl hop'] at hn
      cases List.mem_singleton.mp hn
      exact hrejects
    · cases hkey.symm.trans hkey'
      rw [LiveEntry.afterRun_of_inScope hscope,
        hrun.afterRun_eq (ho _ ho') hsdk (hkeeps.of_inScope hscope),
        LiveEntry.liveUntil_extend_eq_iff hrejects]
      obtain hzero | hle | htimeout := hcond
      · exact .inl hzero
      · exact .inr hle
      · exact absurd (hrun.timeout_le_of_returned_ok (ho _ ho')) (Nat.not_le_of_lt htimeout)

/-- An entry of a network as old as the public one. -/
def agedEntry : LiveEntry where
  current := 50000000
  liveUntil := 53000000
  maxEntryTtl := 3110400
  live := by decide

/-- A call about the code with the hash zero. -/
def ExtendCall.sample : ExtendCall :=
  .extendWasmTtl NetworkConfig.testnet.networkPassphrase .sample zeroHash .default

/-- On a young network a target may also be one that the entry lives past anyway. -/
theorem meetsTarget_youngEntry :
    ExtendCall.sample.MeetsTarget .sample ⟨1000, 120960, 3110400, by decide⟩ 100000 :=
  (meetsTarget_iff .sample Sdk.sample_lawful .sample ⟨1000, 120960, 3110400, by decide⟩ 100000
    (by decide)).mpr (.inr ⟨by decide, .inr (.inl (by decide))⟩)

/-- The network rejects the extend of an entry by a thousand ledgers, asked for as an absolute
target. -/
theorem absolute_target_is_rejected : ¬ ∀ (sdk : Sdk) (e : ExtendCall) (s : LiveEntry)
    (extendTo : UInt32), sdk.Lawful → s.current < extendTo.toNat →
      extendTo.toNat ≤ s.current + s.maxEntryTtl - 1 → e.MeetsTarget sdk s extendTo := by
  intro hclaim
  have hmeets := hclaim .sample .sample agedEntry 53001000 Sdk.sample_lawful (by decide) (by decide)
  obtain ⟨networkPassphrase, signer, hruns⟩ := ExtendCall.sample.exists_runs rfl
  have hop : Sdk.sample.extendFootprintTtl 53001000 = .ok (.extendFootprintTtl 53001000) := rfl
  obtain ⟨t, e, account, hkeeps, hrun, hmem⟩ :=
    exists_preparedRun networkPassphrase signer (extendData (.contractCode zeroHash)) .default hop
  obtain ⟨t', hscope, hcall⟩ := hruns t _ hrun
  refine (hmeets t' _ (hkeeps.inScope hscope) hcall).notRejected _ _ 53001000
    ((hscope.mem_iff id).mpr hmem) (List.mem_singleton_self _) ?_
  show agedEntry.maxEntryTtl - 1 < UInt32.toNat 53001000
  decide

end StellarRustClient
