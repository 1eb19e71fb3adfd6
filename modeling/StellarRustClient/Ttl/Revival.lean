import StellarRustClient.Ttl.ReadBack
import StellarRustClient.Ttl.RestoreThenExtend

/-!
# Reviving an archived entry

An extend of an archived entry is answered with a restoration to make. The call then lands a restore
of the entry, and after it an extend that finds the entry live: see
`ExtendCall.restored_endsExecuted`. Nobody else has to keep the entry alive for that, as long as
nobody removes it or cuts it short and the call takes less time than a restore gives.
-/

namespace StellarRustClient

open Interaction

variable {sdk : Sdk} {extendTo : UInt32} {key : LedgerKey} {networkPassphrase : String}
  {signer : Signer} {pollCfg : PollConfig} {t : List Exchange} {result : InvokeOutcome}

/-! ## The restore of a call -/

/-- A restore of the entry lands: the node asks for it when an extend of the entry is prepared, and
it is built from an account with the data of that answer, signed, sent, and polled as a success. -/
inductive Restored (sdk : Sdk) (key : LedgerKey) : List Exchange → Prop
  | intro (u v : List Exchange) (q tx : Transaction) (extendTo : UInt32) (fee : Int64)
      (restoreData : SorobanTransactionData) (address networkPassphrase : String) (signer : Signer)
      (account : Account) (r : SendTransactionResponse) (final : GetTransactionResponse)
      (hdata : q.contents.sorobanData = some (extendData key))
      (hops : q.contents.operations = [.extendFootprintTtl extendTo])
      (hs : final.status = .success)
      (hmem : ⟨.getTransaction (tx.hexHash sdk), .ok final⟩ ∈ v) :
      Restored sdk key (u ++
        ⟨.prepareTransaction q, .error (.restorationRequired fee restoreData)⟩ ::
        ⟨.getAccount address, .ok account⟩ ::
        ⟨.sign signer
          (restoreTransaction networkPassphrase .restoreFootprint fee restoreData account)
          networkPassphrase, .ok tx⟩ ::
        ⟨.sendTransaction tx, .ok r⟩ :: v)

theorem Restored.append_left (h : Restored sdk key t) (w : List Exchange) :
    Restored sdk key (w ++ t) := by
  obtain ⟨u, v, q, tx, extendTo, fee, restoreData, address, networkPassphrase, signer, account, r,
    final, hdata, hops, hs, hmem⟩ := h
  rw [← List.append_assoc]
  exact .intro (w ++ u) v q tx extendTo fee restoreData address networkPassphrase signer account r
    final hdata hops hs hmem

/-- A run that executes after it was asked to restore has done both. -/
theorem ExtendRun.restored_endsExecuted (hsdk : sdk.Lawful)
    {o : Outcome (Except SorobanUtilsError InvokeOutcome)} (ho : o = .returned (.ok result))
    (h : ExtendRun sdk networkPassphrase signer extendTo (extendData key) pollCfg t o)
    (hasked : AskedToRestore t) :
    ∃ t₁ t₂, t = t₁ ++ t₂ ∧ Restored sdk key t₁ ∧ EndsExecuted sdk key extendTo t₂ := by
  cases h with
  | once hattempt hno =>
    obtain ⟨q, fee, restoreData, hmem⟩ := hasked
    exact absurd hmem (hno q fee restoreData)
  | restoring account op hop fee restoreData f hrestore hne =>
    obtain ⟨_, rfl, -⟩ := Outcome.map_map_eq_returned_ok.mp ho
    exact absurd rfl hne
  | @restored account op hop fee restoreData t₁ t₂ o hrestore hattempt =>
    refine ⟨_ :: _ :: t₁, t₂, rfl, ?_, hattempt.endsExecuted ho⟩
    cases hsdk.extendFootprintTtl hop
    generalize hreturned : Outcome.returned (Except.ok ()) = o' at hrestore
    cases hrestore with
    | submitted op hop account' hleg =>
      cases hsdk.restoreFootprint.symm.trans hop
      obtain ⟨x, rfl, -⟩ := Outcome.map_map_eq_returned_ok.mp hreturned.symm
      obtain ⟨tx, r, v, rfl, hx, hmem, hs⟩ := (hleg.returned_ok_iff x).mp rfl
      exact .intro [_] v _ tx extendTo fee restoreData signer.publicKey networkPassphrase signer
        account' r x.2 rfl rfl hs (hx ▸ hmem)
    | _ => cases hreturned

/-- A call that executes after it was asked to restore. -/
theorem ExtendCall.restored_endsExecuted (hsdk : sdk.Lawful) {e : ExtendCall}
    (hkey : e.ledgerKey sdk = .ok key)
    (h : Runs (e.call sdk extendTo).run t (.returned (.ok result))) (hasked : AskedToRestore t) :
    ∃ t₁ t₂, t = t₁ ++ t₂ ∧ Restored sdk key t₁ ∧ EndsExecuted sdk key extendTo t₂ := by
  obtain ⟨-, ho⟩ | ⟨key', networkPassphrase, signer, t', o', hkey', hrun, hscope, ho⟩ :=
    ExtendCall.exists_extendRun h
  · exact absurd rfl (ho result)
  obtain rfl := Except.ok.inj (hkey.symm.trans hkey')
  obtain ⟨q, fee, restoreData, hmem⟩ := hasked
  obtain ⟨t₁, t₂, rfl, hrestored, hends⟩ :=
    hrun.restored_endsExecuted hsdk (ho _ rfl) ⟨q, fee, restoreData, (hscope.mem_iff id).mp hmem⟩
  cases hscope with
  | bare => exact ⟨t₁, t₂, rfl, hrestored, hends⟩
  | inside signer => exact ⟨_, t₂, rfl, hrestored.append_left [_], hends⟩
  | dropped signer =>
    exact ⟨⟨.buildSigner, .ok signer⟩ :: t₁, t₂ ++ [⟨.dropSigner signer, ()⟩], by simp,
      hrestored.append_left [_], hends.append_right id⟩

/-! ## Any schedule -/

section

variable {ι : Type*} [DecidableEq ι] {settings : ArchivalSettings} {kept : Set LedgerKey}
  {h : Schedule ι Call Reply (Network Entries)} {i : ι} {s s' : Network Entries}

/-- Once a thread has landed a restore, the entry has its life back, counted from the ledger that
the schedule starts at. -/
theorem Restored.livesUntil (hrestored : Restored sdk key (h.traceOf i)) (hkept : key ∈ kept)
    (hpath : (networkWorld sdk (entriesProtocol settings kept)).Path s (h.map Prod.snd) s') :
    s'.state.LivesUntil key (s.state.current + settings.minPersistentTtl - 1) := by
  generalize ht : h.traceOf i = t at hrestored
  obtain ⟨u, v, q, tx, extendTo, fee, restoreData, address, networkPassphrase, signer, account, r,
    final, hdata, hops, hs, hmem⟩ := hrestored
  obtain ⟨_, -, hsigned, -⟩ := Network.exists_of_mem_traceOf hpath
    (ht ▸ List.mem_append_right u (List.mem_cons_of_mem _ (List.mem_cons_of_mem _
      List.mem_cons_self)))
  have hsigned : tx.contents =
    (restoreTransaction networkPassphrase .restoreFootprint fee restoreData account).contents :=
    hsigned
  obtain ⟨_, -, ⟨haccount, -⟩, -⟩ := Network.exists_of_mem_traceOf hpath
    (ht ▸ List.mem_append_right u (List.mem_cons_of_mem _ List.mem_cons_self))
  -- What happens after the node has asked for the restore.
  obtain ⟨h₁, sₚ, h₂, rfl, -, hrest⟩ := Schedule.exists_of_traceOf_eq ht
  rw [List.map_append, List.map_cons] at hpath
  obtain ⟨_, _, hbefore, hdrift, ⟨⟨-, hreports⟩, hasked⟩, hafter⟩ :=
    World.path_append_cons.mp hpath
  rw [hasked] at hafter
  obtain ⟨_, sₐ, _, -, -, hfetched, w, hpasses, -⟩ :=
    Network.passes_of_traceOf (u := []) (v := [_]) hafter hrest hmem hs
      (hsigned ▸ haccount) (congrArg TransactionContents.sequence hsigned)
  -- The node saw the entry archived, so the restore that succeeds takes it.
  have hread : q.contents.readOnly = [key] := by
    rw [TransactionContents.readOnly, hdata]
    rfl
  obtain ⟨⟨key', hkey', harchived⟩, hrestores⟩ := hreports extendTo hops
  rw [hread] at hkey' hrestores
  rw [List.mem_singleton.mp hkey'] at harchived
  have hwrite : key ∈ tx.contents.readWrite := by
    rw [hsigned]
    exact hrestores key List.mem_cons_self harchived
  have hlives : s'.state.LivesUntil key
      (sₚ.state.current + settings.minPersistentTtl - 1) :=
    harchived.passes (hpasses.trans hfetched (.refl _)) hkept
      ⟨congrArg TransactionContents.operations hsigned, hwrite⟩
  have hstart : s.state.current ≤ sₚ.state.current :=
    Entries.current_le_of_reaches ((Network.later_of_path hbefore).1.trans
      (Network.later_of_moves hdrift)).reaches
  exact hlives.mono (by omega)

end

/-- **Reviving an archived entry.** However the calls of any number of threads take turns, once a
call that was asked to restore its entry has executed, in less time than a restore gives, every
reading shows an entry that lives until the ledger at which the call started and `extendTo` more,
for as long as that ledger has not passed. The entry is among those that nobody removes or cuts
short, `hkept`; others may write, restore and extend it. -/
theorem archived_entry_reads_back (sdk : Sdk) (hsdk : sdk.Lawful) (settings : ArchivalSettings)
    (kept : Set LedgerKey) (e : ExtendCall) (key : LedgerKey) (extendTo : UInt32)
    (result : InvokeOutcome) (x : Option UInt32) (ι : Type*) [DecidableEq ι] (i j : ι)
    (s₀ s₁ s₂ : Network Entries) (h₁ h₂ : Schedule ι Call Reply (Network Entries))
    (hkey : e.ledgerKey sdk = .ok key) (hkept : key ∈ kept)
    (hpath₁ : (networkWorld sdk (entriesProtocol settings kept)).Path s₀ (h₁.map Prod.snd) s₁)
    (hcall : Runs (e.call sdk extendTo).run (h₁.traceOf i) (.returned (.ok result)))
    (hasked : AskedToRestore (h₁.traceOf i))
    (hquick : s₁.state.current < s₀.state.current + settings.minPersistentTtl)
    (hpath₂ : (networkWorld sdk (entriesProtocol settings kept)).Path s₁ (h₂.map Prod.snd) s₂)
    (hread : Runs (liveUntilLedger sdk key).run (h₂.traceOf j) (.returned (.ok x)))
    (hnow : s₂.state.current ≤ s₀.state.current + extendTo.toNat) :
    ∃ n, x = some n ∧ s₀.state.current + extendTo.toNat ≤ n.toNat := by
  obtain ⟨t₁, t₂, ht, hrestored, hends⟩ := e.restored_endsExecuted hsdk hkey hcall hasked
  obtain ⟨g₁, g₂, rfl, rfl, rfl⟩ := Schedule.exists_of_traceOf_append ht
  rw [List.map_append] at hpath₁
  obtain ⟨s, hpath, hpath'⟩ := World.path_append.mp hpath₁
  -- After the restore the entry outlives the rest of the call, which extends it.
  have hlives : s.state.LivesUntil key s₁.state.current :=
    (hrestored.livesUntil hkept hpath).mono (by omega)
  have houtlives : Outlives key i g₂ s₁.state.current := by
    intro g s' y g' hg _ _
    have hmem : (s', y) ∈ g₂.map Prod.snd := by simp [hg]
    exact hlives.reaches hkept ((Network.later_of_path hpath').2 _ hmem).1.reaches
  have hextended := hends.livesUntil hsdk hkept hpath' houtlives
  have hstart : s₀.state.current ≤ s.state.current :=
    Entries.current_le_of_reaches (Network.later_of_path hpath).1.reaches
  exact (hextended.mono (by omega)).exists_of_reads hkept hpath₂ hread hnow

/-! ## Code that is revived and read -/

namespace Revival

/-- The extend of the code with the hash zero by ten thousand ledgers, from a given number on. -/
def extend (sequence : ℤ) : Transaction :=
  extendTransaction NetworkConfig.testnet.networkPassphrase (.extendFootprintTtl 10000)
    (extendData (.contractCode zeroHash)) ⟨"G", sequence⟩

/-- The data that the node gives for the restore: the key is written, and nothing is read. -/
def restoreData : SorobanTransactionData :=
  let footprint := (extendData (.contractCode zeroHash)).resources.footprint
  { extendData (.contractCode zeroHash) with
    resources :=
      { footprint := { readOnly := footprint.readWrite, readWrite := footprint.readOnly }
        instructions := 0
        diskReadBytes := 0
        writeBytes := 0 } }

/-- The restore. -/
def restore : Transaction :=
  restoreTransaction NetworkConfig.testnet.networkPassphrase .restoreFootprint 5000 restoreData
    ⟨"G", 7⟩

/-- Entries that have expired at the ledger 1100. -/
def archived : Entries where
  current := 5000
  liveUntil _ := some 1100

/-- The entries once the restore has succeeded. -/
noncomputable def revived : Entries :=
  archived.apply .sample restore.contents

/-- The entries once the extend has succeeded. -/
noncomputable def extended : Entries :=
  revived.apply .sample (extend 8).contents

theorem liveUntil_revived : revived.liveUntil (.contractCode zeroHash) = some 9095 := by
  rw [revived, Entries.liveUntil_apply rfl,
    Entries.liveUntilAfter_restore (by decide) ⟨rfl, List.mem_singleton_self _⟩]
  rfl

theorem liveUntil_extended : extended.liveUntil (.contractCode zeroHash) = some 15000 := by
  have hlive : revived.current ≤ 9095 := (by decide : 5000 ≤ 9095)
  have hrejects : ¬ LiveEntry.Rejects
      ⟨revived.current, 9095, ArchivalSettings.sample.maxEntryTtl, hlive⟩ 10000 :=
    Nat.not_lt.mpr (by decide : (10000 : UInt32).toNat ≤ 3110400 - 1)
  have hmax : max 9095 (revived.current + (10000 : UInt32).toNat) = 15000 :=
    (by decide : max 9095 (5000 + 10000) = 15000)
  rw [extended, Entries.liveUntil_apply liveUntil_revived, Entries.liveUntilAfter_of_le hlive,
    LiveEntry.apply_extend (List.mem_singleton_self _) rfl, LiveEntry.liveUntil_extend hrejects,
    hmax]

/-- The network with the entries archived, and nothing on its way. -/
def start : Network Entries where
  state := archived
  submitted := ∅
  succeeded := ∅

/-- The network once the restore is sent. -/
def restoring : Network Entries :=
  { start with submitted := insert restore.contents ∅ }

/-- The network once the restore has succeeded. -/
noncomputable def restored : Network Entries :=
  { restoring with
    state := revived
    succeeded := insert (restore.contents, none) ∅ }

/-- The network once the extend is sent. -/
noncomputable def extending : Network Entries :=
  { restored with submitted := insert (extend 8).contents restored.submitted }

/-- The network once the extend has succeeded. -/
noncomputable def done : Network Entries :=
  { extending with
    state := extended
    succeeded := insert ((extend 8).contents, none) restored.succeeded }

/-- The exchanges before the restore is sent. -/
def unrestored : List Exchange :=
  [⟨.getAccount "G", .ok ⟨"G", 7⟩⟩,
    ⟨.prepareTransaction (extend 7), .error (.restorationRequired 5000 restoreData)⟩,
    ⟨.getAccount "G", .ok ⟨"G", 7⟩⟩,
    ⟨.sign .sample restore NetworkConfig.testnet.networkPassphrase, .ok restore⟩]

/-- The exchanges from then on, before the extend is sent. -/
def unextended : List Exchange :=
  [⟨.getAccount "G", .ok ⟨"G", 8⟩⟩, ⟨.prepareTransaction (extend 8), .ok (extend 8)⟩,
    ⟨.sign .sample (extend 8) NetworkConfig.testnet.networkPassphrase, .ok (extend 8)⟩]

/-- The exchanges of the call, of one thread of two. -/
noncomputable def schedule : Schedule Bool Call Reply (Network Entries) :=
  unrestored.map (true, start, ·) ++
  ((true, start, ⟨.sendTransaction restore, .ok ⟨.pending, ""⟩⟩) ::
    (true, restoring, ⟨.now, 0⟩) ::
    (true, restored, ⟨.getTransaction (restore.hexHash .sample), .ok ⟨.success, none⟩⟩) ::
    (unextended.map (true, restored, ·) ++
    [(true, restored, ⟨.sendTransaction (extend 8), .ok ⟨.pending, ""⟩⟩),
      (true, extending, ⟨.now, 0⟩),
      (true, done, ⟨.getTransaction ((extend 8).hexHash .sample), .ok ⟨.success, none⟩⟩)]))

/-- The exchange of the reading, of the other. -/
noncomputable def reading : Schedule Bool Call Reply (Network Entries) :=
  [(false, done, ⟨.getLedgerEntries [.contractCode zeroHash], .ok (some [⟨none, some 15000⟩])⟩)]

/-- The world of the runs below. -/
abbrev world : World Call Reply (Network Entries) :=
  networkWorld .sample (entriesProtocol .sample Set.univ)

theorem path_unrestored : world.Path start (unrestored.map (start, ·)) start := by
  have harchived : archived.Archived (.contractCode zeroHash) :=
    ⟨id, 1100, rfl, by decide⟩
  have hanswers : ∀ x ∈ unrestored, start.Answers .sample x := by
    simp [unrestored, Network.Answers, start]
  have hreports : ∀ x ∈ unrestored, archived.Reports x := by
    simp only [unrestored, List.forall_mem_cons]
    refine ⟨trivial, fun n hn ↦ ⟨⟨_, List.mem_singleton_self _, harchived⟩, fun key hkey _ ↦ hkey⟩,
      trivial, trivial, by simp⟩
  refine World.path_of_stationary .refl fun x hx ↦ ⟨⟨hanswers x hx, hreports x hx⟩, ?_⟩
  revert x
  simp [unrestored, Network.after]

theorem path_unextended : world.Path restored (unextended.map (restored, ·)) restored := by
  have hsequence : restore.contents.sequence ≤ 8 := by decide
  refine World.path_of_stationary .refl ?_
  simp [unextended, networkWorld, entriesProtocol, Network.Answers, Entries.Reports,
    Network.after, restored, hsequence]

theorem path_schedule : world.Path start (schedule.map Prod.snd) done := by
  have hrestore : world.drift restoring restored := by
    refine .single (.succeed _ _ _ _ (Set.mem_insert _ _) ⟨⟨fun n hn ↦ ?_, fun _ key hkey ↦ ?_⟩,
      rfl⟩)
    · cases List.mem_singleton.mp hn
    · cases List.mem_singleton.mp hkey
      exact id
  have hextend : world.drift extending done := by
    refine .single (.succeed _ _ _ _ (Set.mem_insert _ _) ⟨⟨fun n hn ↦ ?_, fun hn ↦ ?_⟩, rfl⟩)
    · cases List.mem_singleton.mp hn
      decide
    · cases List.mem_singleton.mp hn
  refine path_unrestored.append (.cons .refl ⟨⟨trivial, trivial⟩, rfl⟩ (.cons .refl
    ⟨⟨trivial, trivial⟩, rfl⟩ (.cons hrestore ⟨⟨?_, trivial⟩, rfl⟩ (path_unextended.append (.cons
      .refl ⟨⟨trivial, trivial⟩, rfl⟩ (.cons .refl ⟨⟨trivial, trivial⟩, rfl⟩ (.cons hextend
        ⟨⟨?_, trivial⟩, rfl⟩ (.nil _))))))))
  · rintro _ c hc -
    obtain rfl | hc := hc
    · exact ⟨none, Set.mem_insert _ _, by simp⟩
    · exact hc.elim
  · rintro _ c hc -
    obtain rfl | rfl | hc := hc
    · exact ⟨none, Set.mem_insert _ _, by simp⟩
    · exact ⟨none, Set.mem_insert_of_mem _ (Set.mem_insert _ _), by simp⟩
    · exact hc.elim

theorem path_reading : world.Path done (reading.map Prod.snd) done := by
  refine .cons .refl ⟨⟨trivial, fun n hn _ ↦ ?_⟩, rfl⟩ (.nil _)
  cases liveUntil_extended.symm.trans hn
  rfl

theorem runs_schedule : Runs (ExtendCall.sample.call .sample 10000).run (schedule.traceOf true)
    (.returned (.ok (.executed ((extend 8).hexHash .sample)))) := by
  refine runs_extendLedgerKeyTtl.mpr (.restored ⟨"G", 7⟩ (.extendFootprintTtl 10000) rfl 5000
    restoreData (.submitted .restoreFootprint rfl ⟨"G", 7⟩ (.polling restore ⟨.pending, ""⟩
      (runs_poll_success (by decide) rfl))) ?_)
  exact .submitted ⟨"G", 8⟩ (.extendFootprintTtl 10000) rfl (extend 8)
    (.polling (extend 8) ⟨.pending, ""⟩ (runs_poll_success (by decide) rfl))

/-- Code that has expired, is extended by ten thousand ledgers and read by someone else. -/
theorem archived_code_reads_back : ∃ n, some (15000 : UInt32) = some n ∧
    start.state.current + (10000 : UInt32).toNat ≤ n.toNat :=
  archived_entry_reads_back .sample Sdk.sample_lawful .sample Set.univ .sample
    (.contractCode zeroHash) 10000 (.executed ((extend 8).hexHash .sample)) _ Bool true false
    start done done schedule reading rfl (Set.mem_univ _) path_schedule runs_schedule
    ⟨extend 7, 5000, restoreData, List.mem_cons_of_mem _ List.mem_cons_self⟩ (by decide)
    path_reading (runs_liveUntilLedger.mpr (.inr ⟨_, rfl, rfl⟩)) (by decide)

end Revival

end StellarRustClient
