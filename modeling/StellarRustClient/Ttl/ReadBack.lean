import StellarRustClient.Submission.Landed
import StellarRustClient.Ttl.AbsoluteTarget
import StellarRustClient.Ttl.Entries

/-!
# Reading an extend back

What the functions that extend an entry achieve is seen with `live_until_ledger`. A call that has
executed has landed an extend of the entry that its arguments name, and has fetched no account since
it was built: `EndsExecuted`. This fixes when the entry was extended, whoever else is at work on the
network and on the account, and a later reading shows it.
-/

namespace StellarRustClient

open Interaction

variable {sdk : Sdk} {extendTo : UInt32} {key : LedgerKey} {networkPassphrase : String}
  {signer : Signer} {pollCfg : PollConfig} {t : List Exchange} {result : InvokeOutcome}

/-! ## The attempt that executes -/

/-- The traces that end with an attempt at the extend that has landed. -/
def EndsExecuted (sdk : Sdk) (key : LedgerKey) (extendTo : UInt32) (t : List Exchange) : Prop :=
  ∃ address op final v, sdk.extendFootprintTtl extendTo = .ok op ∧ (∀ x ∈ v, ¬ IsFetch x.1) ∧
    Landed sdk address op (some (extendData key)) final v t

theorem EndsExecuted.append_left (h : EndsExecuted sdk key extendTo t) (u : List Exchange) :
    EndsExecuted sdk key extendTo (u ++ t) := by
  obtain ⟨address, op, final, v, hop, hv, hlanded⟩ := h
  exact ⟨address, op, final, v, hop, hv, hlanded.append_left u⟩

theorem EndsExecuted.append_right (h : EndsExecuted sdk key extendTo t) {x : Exchange}
    (hx : ¬ IsFetch x.1) : EndsExecuted sdk key extendTo (t ++ [x]) := by
  obtain ⟨address, op, final, v, hop, hv, hlanded⟩ := h
  refine ⟨address, op, final, v ++ [x], hop, ?_, hlanded.append_right [x]⟩
  exact List.forall_mem_append.mpr ⟨hv, List.forall_mem_singleton.mpr hx⟩

theorem EndsExecuted.inScope {t' : List Exchange} (h : EndsExecuted sdk key extendTo t)
    (hscope : InScope t t') : EndsExecuted sdk key extendTo t' := by
  obtain ⟨address, op, final, v, hop, hv, hlanded⟩ := h
  obtain ⟨v', hv', hlanded⟩ := hlanded.inScope hscope
  refine ⟨address, op, final, v', hop, fun x hx ↦ ?_, hlanded⟩
  exact (hv' x hx).elim (hv x) IsScopeCall.not_isFetch

section

variable {o : Outcome (Except SorobanUtilsError InvokeOutcome)} (ho : o = .returned (.ok result))
include ho

theorem AttemptRun.endsExecuted
    (h : AttemptRun sdk networkPassphrase signer extendTo (extendData key) pollCfg t o) :
    EndsExecuted sdk key extendTo t := by
  cases h with
  | submitted account op hop prepared hleg =>
    obtain ⟨x, rfl, -⟩ := Outcome.map_map_eq_returned_ok.mp ho
    obtain ⟨v, hv, hlanded⟩ := hleg.landed rfl signer.publicKey account minBaseFee
    exact ⟨_, op, x.2, v, hop, fun y hy ↦ (hv y hy).not_isFetch, hlanded⟩
  | _ => cases ho

theorem ExtendRun.endsExecuted
    (h : ExtendRun sdk networkPassphrase signer extendTo (extendData key) pollCfg t o) :
    EndsExecuted sdk key extendTo t := by
  cases h with
  | once hattempt hno => exact hattempt.endsExecuted ho
  | restoring account op hop fee restoreData f hrestore hne =>
    obtain ⟨_, rfl, -⟩ := Outcome.map_map_eq_returned_ok.mp ho
    exact absurd rfl hne
  | restored account op hop fee restoreData hrestore hattempt =>
    exact (hattempt.endsExecuted ho).append_left (_ :: _ :: _)

end

/-- A call that executes ends with an attempt on the entry that its arguments name. -/
theorem ExtendCall.endsExecuted {e : ExtendCall} (hkey : e.ledgerKey sdk = .ok key)
    (h : Runs (e.call sdk extendTo).run t (.returned (.ok result))) :
    EndsExecuted sdk key extendTo t := by
  obtain ⟨-, ho⟩ | ⟨key', networkPassphrase, signer, t', o', hkey', hrun, hscope, ho⟩ :=
    ExtendCall.exists_extendRun h
  · exact absurd rfl (ho result)
  · obtain rfl := Except.ok.inj (hkey.symm.trans hkey')
    exact (hrun.endsExecuted (ho _ rfl)).inScope hscope

/-! ## The reading -/

/-- What `live_until_ledger` makes of a reply. -/
def liveUntilOfReply (sdk : Sdk) :
    Except RpcError (Option (List LedgerEntryResult)) → Except SorobanUtilsError (Option UInt32)
  | .error e => .error (rpcError sdk e)
  | .ok entries => .ok ((entries.bind List.head?).bind LedgerEntryResult.liveUntilLedgerSeq)

theorem liveUntilLedger_eq :
    liveUntilLedger sdk key = Prog.ask (.getLedgerEntries [key]) (liveUntilOfReply sdk) := by
  refine congrArg (Prog.call (Call.getLedgerEntries [key])) (funext fun r ↦ ?_)
  cases r <;> rfl

/-- The runs of `live_until_ledger`: one call. -/
theorem runs_liveUntilLedger {o : Outcome (Except SorobanUtilsError (Option UInt32))} :
    Runs (liveUntilLedger sdk key).run t o ↔ (t = [] ∧ o = .running) ∨
      ∃ r, t = [⟨.getLedgerEntries [key], r⟩] ∧ o = .returned (liveUntilOfReply sdk r) := by
  rw [liveUntilLedger_eq, runs_ask]

/-! ## Any schedule -/

section

variable {ι : Type*} [DecidableEq ι] {settings : ArchivalSettings} {kept : Set LedgerKey}
  {h : Schedule ι Call Reply (Network Entries)} {i : ι} {s s' : Network Entries}

/-- From the last account that the thread `i` fetches on, the entry outlives a schedule that ends in
the ledger `n`. -/
def Outlives (key : LedgerKey) (i : ι) (h : Schedule ι Call Reply (Network Entries)) (n : ℕ) :
    Prop :=
  ∀ (h₁ : Schedule ι Call Reply (Network Entries)) (s : Network Entries) (x : Exchange)
    (h₂ : Schedule ι Call Reply (Network Entries)), h = h₁ ++ (i, s, x) :: h₂ → IsFetch x.1 →
      (∀ y ∈ h₂.traceOf i, ¬ IsFetch y.1) → s.state.LivesUntil key n

/-- A thread whose exchanges end with an extend that executes has extended the entry, counted from
the ledger that the schedule starts at. -/
theorem EndsExecuted.livesUntil (hends : EndsExecuted sdk key extendTo (h.traceOf i))
    (hsdk : sdk.Lawful) (hkept : key ∈ kept)
    (hpath : (networkWorld sdk (entriesProtocol settings kept)).Path s (h.map Prod.snd) s')
    (houtlives : Outlives key i h s'.state.current) :
    s'.state.LivesUntil key (s.state.current + extendTo.toNat) := by
  obtain ⟨address, op, final, v, hop, hv, hlanded⟩ := hends
  cases hsdk.extendFootprintTtl hop
  obtain ⟨h₁, sₐ, x, h₂, c, hh, hfetch, hlast, hreaches, hlands⟩ := hlanded.exists_lands hpath
  have hlive : sₐ.state.LivesUntil key s'.state.current :=
    houtlives h₁ sₐ x h₂ hh hfetch fun y hy hfetch ↦ hv y (hlast y hy hfetch) hfetch
  have hread : key ∈ c.readOnly := by
    obtain ⟨_, q, prepared, hreports, hdata, rfl⟩ := hlands.prepared
    rw [hreports (by simp [hdata]), TransactionContents.readOnly, hdata]
    exact List.mem_singleton_self key
  obtain ⟨_, hpasses, -⟩ := hlands.passes
  exact (hlive.passes hpasses hkept hread hlands.operations).mono
    (Nat.add_le_add_right (Entries.current_le_of_reaches hreaches) _)

/-- A reading shows how long an entry lives, as long as it does. -/
theorem Entries.LivesUntil.exists_of_reads {n : ℕ} {x : Option UInt32}
    (hlive : s.state.LivesUntil key n) (hkept : key ∈ kept)
    (hpath : (networkWorld sdk (entriesProtocol settings kept)).Path s (h.map Prod.snd) s')
    (hread : Runs (liveUntilLedger sdk key).run (h.traceOf i) (.returned (.ok x)))
    (hnow : s'.state.current ≤ n) : ∃ m, x = some m ∧ n ≤ m.toNat := by
  rw [liveUntilLedger_eq] at hread
  obtain ⟨r, sᵣ, -, hx, ⟨hbefore, hafter⟩, hreports⟩ := Network.exists_of_runs_ask hpath hread
  have hlive : sᵣ.state.LivesUntil key n := hlive.reaches hkept hbefore.reaches
  cases r with
  | error e => cases hx
  | ok entries =>
    cases hx
    exact hlive.exists_of_reports ((Entries.current_le_of_reaches hafter.reaches).trans hnow)
      hreports

end

/-- **Reading an extend back.** However the calls of any number of threads take turns, once a call
that extends an entry has executed, every reading shows an entry that lives until the ledger at
which the call started and `extendTo` more, for as long as that ledger has not passed. The entry is
among those that nobody removes or cuts short, `hkept`, and outlives the call, `houtlives`. -/
theorem extended_entry_reads_back (sdk : Sdk) (hsdk : sdk.Lawful) (settings : ArchivalSettings)
    (kept : Set LedgerKey) (e : ExtendCall) (key : LedgerKey) (extendTo : UInt32)
    (result : InvokeOutcome) (x : Option UInt32) (ι : Type*) [DecidableEq ι] (i j : ι)
    (s₀ s₁ s₂ : Network Entries) (h₁ h₂ : Schedule ι Call Reply (Network Entries))
    (hkey : e.ledgerKey sdk = .ok key) (hkept : key ∈ kept)
    (hpath₁ : (networkWorld sdk (entriesProtocol settings kept)).Path s₀ (h₁.map Prod.snd) s₁)
    (hcall : Runs (e.call sdk extendTo).run (h₁.traceOf i) (.returned (.ok result)))
    (houtlives : Outlives key i h₁ s₁.state.current)
    (hpath₂ : (networkWorld sdk (entriesProtocol settings kept)).Path s₁ (h₂.map Prod.snd) s₂)
    (hread : Runs (liveUntilLedger sdk key).run (h₂.traceOf j) (.returned (.ok x)))
    (hnow : s₂.state.current ≤ s₀.state.current + extendTo.toNat) :
    ∃ n, x = some n ∧ s₀.state.current + extendTo.toNat ≤ n.toNat := by
  have hextended : s₁.state.LivesUntil key (s₀.state.current + extendTo.toNat) :=
    (e.endsExecuted hkey hcall).livesUntil hsdk hkept hpath₁ houtlives
  exact hextended.exists_of_reads hkept hpath₂ hread hnow

/-! ## Code that is extended and read -/

/-- The extend of the code with the hash zero by a thousand ledgers. -/
def sampleExtend : Transaction :=
  extendTransaction NetworkConfig.testnet.networkPassphrase (.extendFootprintTtl 1000)
    (extendData (.contractCode zeroHash)) ⟨"G", 7⟩

/-- The settings of a network. -/
def ArchivalSettings.sample : ArchivalSettings where
  minPersistentTtl := 4096
  maxEntryTtl := 3110400

/-- Entries with a hundred ledgers left. -/
def Entries.sample : Entries where
  current := 1000
  liveUntil _ := some 1100

/-- The entries once the extend has succeeded. -/
noncomputable def Entries.sampleExtended : Entries :=
  sample.apply .sample sampleExtend.contents

theorem Entries.liveUntil_sampleExtended :
    sampleExtended.liveUntil (.contractCode zeroHash) = some 2000 := by
  rw [sampleExtended, liveUntil_apply rfl, liveUntilAfter_of_le (by decide),
    LiveEntry.apply_extend (List.mem_singleton_self _) rfl, LiveEntry.liveUntil_extend (by decide)]
  rfl

/-- A network of which nothing is on its way. -/
def unsentExtend : Network Entries where
  state := .sample
  submitted := ∅
  succeeded := ∅

/-- The network once the extend is sent. -/
def sentExtend : Network Entries :=
  { unsentExtend with submitted := insert sampleExtend.contents ∅ }

/-- The network once the extend has succeeded. -/
noncomputable def succeededExtend : Network Entries :=
  { sentExtend with
    state := .sampleExtended
    succeeded := insert (sampleExtend.contents, none) ∅ }

/-- The exchanges of the extend, of one thread of two. -/
noncomputable def sampleExtendRun : Schedule Bool Call Reply (Network Entries) :=
  [(true, unsentExtend, ⟨.getAccount "G", .ok ⟨"G", 7⟩⟩),
    (true, unsentExtend, ⟨.prepareTransaction sampleExtend, .ok sampleExtend⟩),
    (true, unsentExtend, ⟨.sign .sample sampleExtend NetworkConfig.testnet.networkPassphrase,
      .ok sampleExtend⟩),
    (true, unsentExtend, ⟨.sendTransaction sampleExtend, .ok ⟨.pending, ""⟩⟩),
    (true, sentExtend, ⟨.now, 0⟩),
    (true, succeededExtend, ⟨.getTransaction (sampleExtend.hexHash .sample),
      .ok ⟨.success, none⟩⟩)]

/-- The exchange of the reading, of the other. -/
noncomputable def sampleReading : Schedule Bool Call Reply (Network Entries) :=
  [(false, succeededExtend, ⟨.getLedgerEntries [.contractCode zeroHash],
    .ok (some [⟨none, some 2000⟩])⟩)]

theorem path_sampleExtendRun : (networkWorld .sample (entriesProtocol .sample Set.univ)).Path
    unsentExtend (sampleExtendRun.map Prod.snd) succeededExtend := by
  have hdrift : (networkWorld .sample (entriesProtocol .sample Set.univ)).drift
      sentExtend succeededExtend := by
    refine .single (.succeed _ _ _ _ (Set.mem_insert _ _) ⟨⟨fun n hn ↦ ?_, fun hn ↦ ?_⟩, rfl⟩)
    · cases List.mem_singleton.mp hn
      decide
    · cases List.mem_singleton.mp hn
  refine .cons .refl ⟨⟨⟨rfl, ?_⟩, trivial⟩, rfl⟩ (.cons .refl
    ⟨⟨⟨rfl, rfl, rfl⟩, fun _ ↦ rfl⟩, rfl⟩ (.cons .refl ⟨⟨rfl, trivial⟩, rfl⟩ (.cons .refl
      ⟨⟨trivial, trivial⟩, rfl⟩ (.cons .refl ⟨⟨trivial, trivial⟩, rfl⟩ (.cons hdrift
        ⟨⟨?_, trivial⟩, rfl⟩ (.nil _))))))
  · simp [unsentExtend]
  · intro _ c hc _
    obtain rfl | hc := hc
    · exact ⟨none, Set.mem_insert _ _, by simp⟩
    · exact hc.elim

theorem path_sampleReading : (networkWorld .sample (entriesProtocol .sample Set.univ)).Path
    succeededExtend (sampleReading.map Prod.snd) succeededExtend := by
  refine .cons .refl ⟨⟨trivial, fun n hn _ ↦ ?_⟩, rfl⟩ (.nil _)
  cases Entries.liveUntil_sampleExtended.symm.trans hn
  rfl

theorem runs_sampleExtendRun : Runs (ExtendCall.sample.call .sample 1000).run
    (sampleExtendRun.traceOf true)
    (.returned (.ok (.executed (sampleExtend.hexHash .sample)))) := by
  have hno : ∀ q fee restoreData, (⟨.prepareTransaction q,
      .error (.restorationRequired fee restoreData)⟩ : Exchange) ∉
        sampleExtendRun.traceOf true := by
    simp [sampleExtendRun, Schedule.traceOf, actionsOf, History.trace]
  refine runs_extendLedgerKeyTtl.mpr (.once ?_ hno)
  exact .submitted ⟨"G", 7⟩ (.extendFootprintTtl 1000) rfl sampleExtend
    (.polling sampleExtend ⟨.pending, ""⟩ (runs_poll_success (by decide) rfl))

theorem outlives_sampleExtendRun : Outlives (.contractCode zeroHash) true sampleExtendRun
    succeededExtend.state.current := by
  intro h₁ s x h₂ hh hfetch _
  have hall : ∀ y ∈ sampleExtendRun, IsFetch y.2.2.1 → y.2.1 = unsentExtend := by
    simp [sampleExtendRun, IsFetch]
  rw [show s = unsentExtend from hall (true, s, x) (hh ▸ List.mem_append_cons_self) hfetch]
  exact ⟨1100, rfl, by decide⟩

/-- Code that is extended by a thousand ledgers and read by someone else. -/
theorem extended_code_reads_back : ∃ n, some (2000 : UInt32) = some n ∧
    unsentExtend.state.current + (1000 : UInt32).toNat ≤ n.toNat :=
  extended_entry_reads_back .sample Sdk.sample_lawful .sample Set.univ .sample
    (.contractCode zeroHash) 1000 (.executed (sampleExtend.hexHash .sample)) _ Bool true false
    unsentExtend succeededExtend succeededExtend sampleExtendRun sampleReading rfl
    (Set.mem_univ _) path_sampleExtendRun runs_sampleExtendRun outlives_sampleExtendRun
    path_sampleReading (runs_liveUntilLedger.mpr (.inr ⟨_, rfl, rfl⟩)) (by decide)

end StellarRustClient
