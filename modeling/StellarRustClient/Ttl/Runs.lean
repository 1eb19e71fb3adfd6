import StellarRustClient.Submission.Paths

/-!
# The runs of the extend workflow

`extend_ledger_key_ttl` prepares an extend and submits it. When the node asks for a restoration
first, it submits the restore that the node described, and then makes a second attempt at the
extend. The inductive predicates below list the runs of an attempt, of the restore and of the whole
workflow, call by call; the legs in them are those of every other submission.
-/

namespace StellarRustClient

open Interaction

variable (sdk : Sdk)

/-- The second attempt at the extend, which is the first one without the way into the restore. -/
def extendAttempt (networkPassphrase : String) (signer : Signer) (extendTo : UInt32)
    (extendSorobanData : SorobanTransactionData) (pollCfg : PollConfig) : Async InvokeOutcome := do
  let transaction ← buildExtend sdk networkPassphrase signer extendTo extendSorobanData
  let prepared ← Prog.ask (.prepareTransaction transaction) (Except.mapError (simulationError sdk))
  submit sdk signer networkPassphrase prepared pollCfg

/-- What the first attempt does with the answer of the node. -/
def extendOrRestore (networkPassphrase : String) (signer : Signer) (extendTo : UInt32)
    (extendSorobanData : SorobanTransactionData) (pollCfg : PollConfig) :
    Except RpcError Transaction → Async InvokeOutcome
  | .ok prepared => submit sdk signer networkPassphrase prepared pollCfg
  | .error (.restorationRequired resourceFee restoreData) => do
    restoreEntry sdk networkPassphrase signer resourceFee restoreData pollCfg
    extendAttempt sdk networkPassphrase signer extendTo extendSorobanData pollCfg
  | .error e => throw (simulationError sdk e)

/-- The extend transaction that an attempt prepares. -/
abbrev extendTransaction (networkPassphrase : String) (op : Operation)
    (extendSorobanData : SorobanTransactionData) (account : Account) : Transaction :=
  (buildTransaction account networkPassphrase op minBaseFee extendSorobanData).1

/-- The transaction that restores the entry. -/
abbrev restoreTransaction (networkPassphrase : String) (op : Operation) (resourceFee : Int64)
    (restoreData : SorobanTransactionData) (account : Account) : Transaction :=
  (buildTransaction account networkPassphrase op (restoreFee resourceFee) restoreData).1

/-! ## The shapes of a run -/

/-- The runs of one attempt at the extend. -/
inductive AttemptRun (networkPassphrase : String) (signer : Signer) (extendTo : UInt32)
    (data : SorobanTransactionData) (pollCfg : PollConfig) :
    List Exchange → Outcome (Except SorobanUtilsError InvokeOutcome) → Prop
  | fetching : AttemptRun networkPassphrase signer extendTo data pollCfg [] .running
  | fetchFailed (e : RpcError) : AttemptRun networkPassphrase signer extendTo data pollCfg
      [⟨.getAccount signer.publicKey, .error e⟩] (.returned (.error (rpcError sdk e)))
  | notBuilt (account : Account) (e : String) (hop : sdk.extendFootprintTtl extendTo = .error e) :
      AttemptRun networkPassphrase signer extendTo data pollCfg
        [⟨.getAccount signer.publicKey, .ok account⟩] (.returned (.error (.xdr e)))
  | preparing (account : Account) (op : Operation)
      (hop : sdk.extendFootprintTtl extendTo = .ok op) :
      AttemptRun networkPassphrase signer extendTo data pollCfg
        [⟨.getAccount signer.publicKey, .ok account⟩] .running
  | prepareFailed (account : Account) (op : Operation)
      (hop : sdk.extendFootprintTtl extendTo = .ok op) (e : RpcError) :
      AttemptRun networkPassphrase signer extendTo data pollCfg
        [⟨.getAccount signer.publicKey, .ok account⟩,
          ⟨.prepareTransaction (extendTransaction networkPassphrase op data account), .error e⟩]
        (.returned (.error (simulationError sdk e)))
  | submitted (account : Account) (op : Operation)
      (hop : sdk.extendFootprintTtl extendTo = .ok op) (prepared : Transaction)
      {t : List Exchange} {o : SubmissionOutcome}
      (hleg : LegRun sdk networkPassphrase signer prepared pollCfg t o) :
      AttemptRun networkPassphrase signer extendTo data pollCfg
        (⟨.getAccount signer.publicKey, .ok account⟩ ::
          ⟨.prepareTransaction (extendTransaction networkPassphrase op data account),
            .ok prepared⟩ :: t)
        (o.map (Except.map fun x ↦ .executed x.1))

/-- The runs of the restore. -/
inductive RestoreRun (networkPassphrase : String) (signer : Signer) (resourceFee : Int64)
    (restoreData : SorobanTransactionData) (pollCfg : PollConfig) :
    List Exchange → Outcome (Except SorobanUtilsError Unit) → Prop
  | notBuilt (e : String) (hop : sdk.restoreFootprint = .error e) :
      RestoreRun networkPassphrase signer resourceFee restoreData pollCfg
        [] (.returned (.error (.xdr e)))
  | fetching (op : Operation) (hop : sdk.restoreFootprint = .ok op) :
      RestoreRun networkPassphrase signer resourceFee restoreData pollCfg [] .running
  | fetchFailed (op : Operation) (hop : sdk.restoreFootprint = .ok op) (e : RpcError) :
      RestoreRun networkPassphrase signer resourceFee restoreData pollCfg
        [⟨.getAccount signer.publicKey, .error e⟩] (.returned (.error (rpcError sdk e)))
  | submitted (op : Operation) (hop : sdk.restoreFootprint = .ok op) (account : Account)
      {t : List Exchange} {o : SubmissionOutcome}
      (hleg : LegRun sdk networkPassphrase signer
        (restoreTransaction networkPassphrase op resourceFee restoreData account) pollCfg t o) :
      RestoreRun networkPassphrase signer resourceFee restoreData pollCfg
        (⟨.getAccount signer.publicKey, .ok account⟩ :: t) (o.map (Except.map fun _ ↦ ()))

/-- The runs of the workflow: one attempt, or a first attempt that is answered with a restoration
to make, the restore, and a second attempt if the restore succeeds. -/
inductive ExtendRun (networkPassphrase : String) (signer : Signer) (extendTo : UInt32)
    (data : SorobanTransactionData) (pollCfg : PollConfig) :
    List Exchange → Outcome (Except SorobanUtilsError InvokeOutcome) → Prop
  | once {t : List Exchange} {o : Outcome (Except SorobanUtilsError InvokeOutcome)}
      (hattempt : AttemptRun sdk networkPassphrase signer extendTo data pollCfg t o)
      (hno : ∀ q fee restoreData,
        (⟨.prepareTransaction q, .error (.restorationRequired fee restoreData)⟩ : Exchange) ∉ t) :
      ExtendRun networkPassphrase signer extendTo data pollCfg t o
  | restoring (account : Account) (op : Operation)
      (hop : sdk.extendFootprintTtl extendTo = .ok op) (fee : Int64)
      (restoreData : SorobanTransactionData) (f : Unit → InvokeOutcome) {t : List Exchange}
      {o : Outcome (Except SorobanUtilsError Unit)}
      (hrestore : RestoreRun sdk networkPassphrase signer fee restoreData pollCfg t o)
      (ho : o ≠ .returned (.ok ())) :
      ExtendRun networkPassphrase signer extendTo data pollCfg
        (⟨.getAccount signer.publicKey, .ok account⟩ ::
          ⟨.prepareTransaction (extendTransaction networkPassphrase op data account),
            .error (.restorationRequired fee restoreData)⟩ :: t)
        (o.map (Except.map f))
  | restored (account : Account) (op : Operation)
      (hop : sdk.extendFootprintTtl extendTo = .ok op) (fee : Int64)
      (restoreData : SorobanTransactionData) {t₁ t₂ : List Exchange}
      {o : Outcome (Except SorobanUtilsError InvokeOutcome)}
      (hrestore : RestoreRun sdk networkPassphrase signer fee restoreData pollCfg t₁
        (.returned (.ok ())))
      (hattempt : AttemptRun sdk networkPassphrase signer extendTo data pollCfg t₂ o) :
      ExtendRun networkPassphrase signer extendTo data pollCfg
        (⟨.getAccount signer.publicKey, .ok account⟩ ::
          ⟨.prepareTransaction (extendTransaction networkPassphrase op data account),
            .error (.restorationRequired fee restoreData)⟩ :: (t₁ ++ t₂)) o

variable {sdk} {networkPassphrase : String} {signer : Signer} {extendTo : UInt32}
  {data restoreData : SorobanTransactionData} {pollCfg : PollConfig} {fee : Int64}
  {t : List Exchange}

/-! ## The parts -/

/-- What building the extend gives once the account is there. -/
theorem buildExtend_eq : buildExtend sdk networkPassphrase signer extendTo data = (do
    let account ← getAccount sdk signer.publicKey
    let op ← Prog.lift ((sdk.extendFootprintTtl extendTo).mapError .xdr)
    pure (extendTransaction networkPassphrase op data account)) := rfl

/-- The common start of both attempts: the account, the operation, and then `k`. -/
theorem runs_buildExtend_bind {α : Type} {k : Transaction → Async α}
    {o : Outcome (Except SorobanUtilsError α)} :
    Runs (buildExtend sdk networkPassphrase signer extendTo data >>= k).run t o ↔
      (t = [] ∧ o = .running) ∨
      (∃ e, t = [⟨.getAccount signer.publicKey, .error e⟩] ∧
        o = .returned (.error (rpcError sdk e))) ∨
      ∃ account t', t = ⟨.getAccount signer.publicKey, .ok account⟩ :: t' ∧
        ((∃ e, sdk.extendFootprintTtl extendTo = .error e ∧ t' = [] ∧
            o = .returned (.error (.xdr e))) ∨
          ∃ op, sdk.extendFootprintTtl extendTo = .ok op ∧
            Runs (k (extendTransaction networkPassphrase op data account)).run t' o) := by
  rw [buildExtend_eq]
  simp only [bind_assoc, pure_bind]
  refine runs_getAccount_bind.trans (or_congr_right (or_congr_right ?_))
  refine exists_congr fun account ↦ exists_congr fun t' ↦ and_congr_right fun _ ↦ ?_
  exact runs_lift_mapError_bind

theorem runs_extendAttempt {o : Outcome (Except SorobanUtilsError InvokeOutcome)} :
    Runs (extendAttempt sdk networkPassphrase signer extendTo data pollCfg).run t o ↔
      AttemptRun sdk networkPassphrase signer extendTo data pollCfg t o := by
  rw [extendAttempt, runs_buildExtend_bind]
  constructor
  · intro h
    obtain ⟨rfl, rfl⟩ | ⟨e, rfl, rfl⟩ | ⟨account, t, rfl, ⟨e, hop, rfl, rfl⟩ | ⟨op, hop, h₁⟩⟩ := h
    · exact .fetching
    · exact .fetchFailed e
    · exact .notBuilt account e hop
    obtain ⟨rfl, rfl⟩ | ⟨e, rfl, rfl⟩ | ⟨prepared, t, rfl, h₂⟩ := runs_prepare_bind.mp h₁
    · exact .preparing account op hop
    · exact .prepareFailed account op hop e
    · obtain ⟨o', hleg, rfl⟩ := runs_submit.mp h₂
      exact .submitted account op hop prepared hleg
  · intro h
    cases h with
    | fetching => exact .inl ⟨rfl, rfl⟩
    | fetchFailed e => exact .inr (.inl ⟨e, rfl, rfl⟩)
    | notBuilt account e hop => exact .inr (.inr ⟨account, _, rfl, .inl ⟨e, hop, rfl, rfl⟩⟩)
    | preparing account op hop =>
      exact .inr (.inr ⟨account, _, rfl, .inr ⟨op, hop, runs_prepare_bind.mpr .waiting⟩⟩)
    | prepareFailed account op hop e =>
      exact .inr (.inr ⟨account, _, rfl, .inr ⟨op, hop, runs_prepare_bind.mpr (.failed e)⟩⟩)
    | submitted account op hop prepared hleg =>
      refine .inr (.inr ⟨account, _, rfl, .inr ⟨op, hop, ?_⟩⟩)
      refine runs_prepare_bind.mpr (.reply prepared ?_)
      exact runs_submit.mpr ⟨_, hleg, rfl⟩

theorem restoreEntry_eq :
    restoreEntry sdk networkPassphrase signer fee restoreData pollCfg =
      Prog.lift (sdk.restoreFootprint.mapError .xdr) >>= fun op ↦
        getAccount sdk signer.publicKey >>= fun account ↦
          (fun _ ↦ ()) <$> signSendPoll sdk networkPassphrase signer
            (restoreTransaction networkPassphrase op fee restoreData account) pollCfg := by
  have hsubmit {prepared : Transaction} :
      (do let _ ← submit sdk signer networkPassphrase prepared pollCfg : Async Unit) =
        (fun _ ↦ ()) <$> signSendPoll sdk networkPassphrase signer prepared pollCfg := by
    rw [submit_eq, bind_map_left, map_eq_pure_bind]
  simp only [restoreEntry, hsubmit]

theorem runs_restoreEntry {o : Outcome (Except SorobanUtilsError Unit)} :
    Runs (restoreEntry sdk networkPassphrase signer fee restoreData pollCfg).run t o ↔
      RestoreRun sdk networkPassphrase signer fee restoreData pollCfg t o := by
  rw [restoreEntry_eq, runs_lift_mapError_bind]
  constructor
  · rintro (⟨e, hop, rfl, rfl⟩ | ⟨op, hop, h⟩)
    · exact .notBuilt e hop
    obtain ⟨rfl, rfl⟩ | ⟨e, rfl, rfl⟩ | ⟨account, t, rfl, h₁⟩ := runs_getAccount_bind.mp h
    · exact .fetching op hop
    · exact .fetchFailed op hop e
    · obtain ⟨o', h₂, rfl⟩ := runs_except_map.mp h₁
      exact .submitted op hop account (runs_signSendPoll.mp h₂)
  · intro h
    cases h with
    | notBuilt e hop => exact .inl ⟨e, hop, rfl, rfl⟩
    | fetching op hop => exact .inr ⟨op, hop, runs_getAccount_bind.mpr .waiting⟩
    | fetchFailed op hop e => exact .inr ⟨op, hop, runs_getAccount_bind.mpr (.failed e)⟩
    | submitted op hop account hleg =>
      refine .inr ⟨op, hop, runs_getAccount_bind.mpr (.reply account ?_)⟩
      exact runs_except_map.mpr ⟨_, runs_signSendPoll.mpr hleg, rfl⟩

/-! ## The whole workflow -/

/-- The data of the extend: the one key is read, nothing is written. -/
def extendData (ledgerKey : LedgerKey) : SorobanTransactionData where
  ext := .v0
  resources :=
    { footprint :=
        { readOnly := ⟨[ledgerKey], Nat.succ_le_of_lt (by decide)⟩
          readWrite := ⟨[], Nat.zero_le _⟩ }
      instructions := 0
      diskReadBytes := 0
      writeBytes := 0 }
  resourceFee := 0

theorem extendFootprintData_eq (ledgerKey : LedgerKey) :
    extendFootprintData ledgerKey = .ok (extendData ledgerKey) := by
  have hone : [ledgerKey].length ≤ u32Max := Nat.succ_le_of_lt (by decide)
  have hnone : ([] : List LedgerKey).length ≤ u32Max := Nat.zero_le _
  rw [extendFootprintData, VecM.tryFrom_of_le hone, VecM.tryFrom_of_le hnone]
  rfl

/-- The workflow on the data of its extend, with its two branches under a name. -/
theorem extendLedgerKeyTtl_eq (ledgerKey : LedgerKey) :
    extendLedgerKeyTtl sdk networkPassphrase signer ledgerKey extendTo pollCfg = (do
      let transaction ← buildExtend sdk networkPassphrase signer extendTo (extendData ledgerKey)
      let r ← Prog.ask (.prepareTransaction transaction) .ok
      extendOrRestore sdk networkPassphrase signer extendTo (extendData ledgerKey) pollCfg r) := by
  rw [extendLedgerKeyTtl, extendFootprintData_eq, lift_ok_bind]
  refine bind_congr fun transaction ↦ bind_congr fun r ↦ ?_
  rcases r with (_ | _ | _) | prepared <;> rfl

theorem runs_extendOrRestore_error {e : RpcError}
    (he : ∀ fee restoreData, e ≠ .restorationRequired fee restoreData)
    {o : Outcome (Except SorobanUtilsError InvokeOutcome)} :
    Runs (extendOrRestore sdk networkPassphrase signer extendTo data pollCfg (.error e)).run t o ↔
      t = [] ∧ o = .returned (.error (simulationError sdk e)) := by
  cases e with
  | contractDataNotFound => exact runs_throw
  | other text => exact runs_throw
  | restorationRequired fee restoreData => exact absurd rfl (he fee restoreData)

/-- A restore that does not succeed ends the workflow as it ends itself; after one that does there
is a second attempt. -/
theorem runs_extendOrRestore_restore {o : Outcome (Except SorobanUtilsError InvokeOutcome)} :
    Runs (extendOrRestore sdk networkPassphrase signer extendTo data pollCfg
      (.error (.restorationRequired fee restoreData))).run t o ↔
      (∃ (f : Unit → InvokeOutcome) (o' : Outcome (Except SorobanUtilsError Unit)),
        RestoreRun sdk networkPassphrase signer fee restoreData pollCfg t o' ∧
          o' ≠ .returned (.ok ()) ∧ o = o'.map (Except.map f)) ∨
      ∃ t₁ t₂, t = t₁ ++ t₂ ∧
        RestoreRun sdk networkPassphrase signer fee restoreData pollCfg t₁ (.returned (.ok ())) ∧
        AttemptRun sdk networkPassphrase signer extendTo data pollCfg t₂ o := by
  rw [extendOrRestore, runs_except_bind]
  simp only [runs_restoreEntry, runs_extendAttempt]
  constructor
  · rintro (⟨h, rfl⟩ | ⟨h, rfl⟩ | ⟨e, h, rfl⟩ | ⟨t₁, t₂, _, rfl, h₁, h₂⟩)
    · exact .inl ⟨fun _ ↦ .executed "", .running, h, by simp, rfl⟩
    · exact .inl ⟨fun _ ↦ .executed "", .panicked, h, by simp, rfl⟩
    · exact .inl ⟨fun _ ↦ .executed "", .returned (.error e), h, by simp, rfl⟩
    · exact .inr ⟨t₁, t₂, rfl, h₁, h₂⟩
  · rintro (⟨f, o', h, ho, rfl⟩ | ⟨t₁, t₂, rfl, h₁, h₂⟩)
    · rcases o' with _ | _ | e | _
      · exact .inl ⟨h, rfl⟩
      · exact .inr (.inl ⟨h, rfl⟩)
      · exact .inr (.inr (.inl ⟨e, h, rfl⟩))
      · exact absurd rfl ho
    · exact .inr (.inr (.inr ⟨t₁, t₂, (), rfl, h₁, h₂⟩))

theorem runs_extendLedgerKeyTtl {ledgerKey : LedgerKey}
    {o : Outcome (Except SorobanUtilsError InvokeOutcome)} :
    Runs (extendLedgerKeyTtl sdk networkPassphrase signer ledgerKey extendTo pollCfg).run t o ↔
      ExtendRun sdk networkPassphrase signer extendTo (extendData ledgerKey) pollCfg t o := by
  rw [extendLedgerKeyTtl_eq ledgerKey]
  generalize extendData ledgerKey = data
  constructor
  · intro h
    obtain ⟨rfl, rfl⟩ | ⟨e, rfl, rfl⟩ | ⟨account, t, rfl, ⟨e, hop, rfl, rfl⟩ | ⟨op, hop, h₁⟩⟩ :=
      runs_buildExtend_bind.mp h
    · exact .once .fetching (by simp)
    · exact .once (.fetchFailed e) (by simp)
    · exact .once (.notBuilt account e hop) (by simp)
    obtain ⟨rfl, rfl⟩ | ⟨r, t, rfl, h₂⟩ := runs_ask_ok_bind.mp h₁
    · exact .once (.preparing account op hop) (by simp)
    cases r with
    | ok prepared =>
      obtain ⟨o', hleg, rfl⟩ := runs_submit.mp h₂
      refine .once (.submitted account op hop prepared hleg) fun q fee restoreData hmem ↦ ?_
      simp only [List.mem_cons] at hmem
      obtain hmem | hmem | hmem := hmem
      · cases hmem
      · cases hmem
      · exact hleg.isLegCall _ hmem
    | error e =>
      -- Only a preamble leads into the restore; any other error ends the attempt.
      by_cases he : ∃ fee restoreData, e = .restorationRequired fee restoreData
      · obtain ⟨fee, restoreData, rfl⟩ := he
        obtain ⟨f, o, hrestore, ho, rfl⟩ | ⟨t₁, t₂, rfl, hrestore, hattempt⟩ :=
          runs_extendOrRestore_restore.mp h₂
        · exact .restoring account op hop fee restoreData f hrestore ho
        · exact .restored account op hop fee restoreData hrestore hattempt
      · have he' : ∀ fee restoreData, e ≠ .restorationRequired fee restoreData :=
          fun fee restoreData h ↦ he ⟨fee, restoreData, h⟩
        obtain ⟨rfl, rfl⟩ := (runs_extendOrRestore_error he').mp h₂
        refine .once (.prepareFailed account op hop e) fun q fee restoreData hmem ↦ ?_
        simp only [List.mem_cons, List.not_mem_nil, or_false] at hmem
        obtain hmem | hmem := hmem
        · cases hmem
        · cases hmem
          exact he' fee restoreData rfl
  · intro h
    have hprepare {account : Account} {op : Operation} {t : List Exchange}
        (hop : sdk.extendFootprintTtl extendTo = .ok op) (r : Except RpcError Transaction)
        (h : Runs (extendOrRestore sdk networkPassphrase signer extendTo data pollCfg r).run t o) :
        Runs (buildExtend sdk networkPassphrase signer extendTo data >>= fun transaction ↦
          Prog.ask (.prepareTransaction transaction) .ok >>=
            extendOrRestore sdk networkPassphrase signer extendTo data pollCfg).run
          (⟨.getAccount signer.publicKey, .ok account⟩ ::
            ⟨.prepareTransaction (extendTransaction networkPassphrase op data account), r⟩ :: t)
          o :=
      runs_buildExtend_bind.mpr (.inr (.inr ⟨account, _, rfl, .inr ⟨op, hop,
        runs_ask_ok_bind.mpr (.inr ⟨r, t, rfl, h⟩)⟩⟩))
    cases h with
    | once hattempt hno =>
      cases hattempt with
      | fetching => exact runs_buildExtend_bind.mpr (.inl ⟨rfl, rfl⟩)
      | fetchFailed e => exact runs_buildExtend_bind.mpr (.inr (.inl ⟨e, rfl, rfl⟩))
      | notBuilt account e hop =>
        exact runs_buildExtend_bind.mpr (.inr (.inr ⟨account, _, rfl, .inl ⟨e, hop, rfl, rfl⟩⟩))
      | preparing account op hop =>
        exact runs_buildExtend_bind.mpr
          (.inr (.inr ⟨account, _, rfl, .inr ⟨op, hop, runs_ask_ok_bind.mpr (.inl ⟨rfl, rfl⟩)⟩⟩))
      | prepareFailed account op hop e =>
        have he : ∀ fee restoreData, e ≠ .restorationRequired fee restoreData := by
          rintro fee restoreData rfl
          exact hno _ fee restoreData (List.mem_cons_of_mem _ List.mem_cons_self)
        exact hprepare hop (.error e) ((runs_extendOrRestore_error he).mpr ⟨rfl, rfl⟩)
      | submitted account op hop prepared hleg =>
        exact hprepare hop (.ok prepared) (runs_submit.mpr ⟨_, hleg, rfl⟩)
    | restoring account op hop fee restoreData f hrestore ho =>
      exact hprepare hop _ (runs_extendOrRestore_restore.mpr (.inl ⟨f, _, hrestore, ho, rfl⟩))
    | restored account op hop fee restoreData hrestore hattempt =>
      exact hprepare hop _
        (runs_extendOrRestore_restore.mpr (.inr ⟨_, _, rfl, hrestore, hattempt⟩))

end StellarRustClient
