import StellarRustClient.Interaction.Trace
import StellarRustClient.Invoke
import StellarRustClient.Submission.Deadline

/-!
# What an invocation reports

`invoke_contract` simulates, may stop there, bids a fee and submits. `InvokeRun` lists its runs.
`InvokeExchanges` says what the result of a run tells of the exchanges that led to it, and
`InvokeReport` that there is one when the run is over. The first holds of every run; the second
fails where the deadline of the poll is no instant, since the thread then panics with the
transaction on its way.

A fee that cannot be learned is not a failure: the floor is bid and the run goes on.
-/

namespace StellarRustClient

open Interaction

variable (sdk : Sdk)

/-- The texts of the two results that an invocation has without submitting anything. -/
def simulationErrorText (contractAddress functionName err : String) : String :=
  s!"invoke_contract({functionName}) on {contractAddress}: {sdk.debugString err}"

def skippedText (contractAddress functionName : String) : String :=
  s!"invoke_contract({functionName}) on {contractAddress}: simulation reported no state changes, transaction not submitted"

/-- The runs of `invokeContract`. -/
inductive InvokeRun (networkPassphrase : String) (signer : Signer)
    (contractAddress functionName : String) (args : List ScVal) (pollCfg : PollConfig) :
    List Exchange → Outcome (Except SorobanUtilsError InvokeOutcome) → Prop
  | notBuilt (e : String) (hop : sdk.invokeContract contractAddress functionName args = .error e) :
      InvokeRun networkPassphrase signer contractAddress functionName args pollCfg
        [] (.returned (.error (.xdr e)))
  | fetching (op : Operation)
      (hop : sdk.invokeContract contractAddress functionName args = .ok op) :
      InvokeRun networkPassphrase signer contractAddress functionName args pollCfg [] .running
  | fetchFailed (op : Operation)
      (hop : sdk.invokeContract contractAddress functionName args = .ok op) (e : RpcError) :
      InvokeRun networkPassphrase signer contractAddress functionName args pollCfg
        [⟨.getAccount signer.publicKey, .error e⟩] (.returned (.error (rpcError sdk e)))
  | simulating (op : Operation)
      (hop : sdk.invokeContract contractAddress functionName args = .ok op) (account : Account) :
      InvokeRun networkPassphrase signer contractAddress functionName args pollCfg
        [⟨.getAccount signer.publicKey, .ok account⟩] .running
  | simulateFailed (op : Operation)
      (hop : sdk.invokeContract contractAddress functionName args = .ok op) (account : Account)
      (e : RpcError) :
      InvokeRun networkPassphrase signer contractAddress functionName args pollCfg
        [⟨.getAccount signer.publicKey, .ok account⟩,
          ⟨.simulateTransaction (unprepared networkPassphrase op minBaseFee account), .error e⟩]
        (.returned (.error (simulationError sdk e)))
  | simulationError (op : Operation)
      (hop : sdk.invokeContract contractAddress functionName args = .ok op) (account : Account)
      (simulation : SimulateTransactionResponse) (err : String)
      (herr : simulation.error = some err) :
      InvokeRun networkPassphrase signer contractAddress functionName args pollCfg
        [⟨.getAccount signer.publicKey, .ok account⟩,
          ⟨.simulateTransaction (unprepared networkPassphrase op minBaseFee account),
            .ok simulation⟩]
        (.returned (.error
          (.simulation (simulationErrorText sdk contractAddress functionName err))))
  | skipped (op : Operation)
      (hop : sdk.invokeContract contractAddress functionName args = .ok op) (account : Account)
      (simulation : SimulateTransactionResponse)
      (herr : simulation.error = none) (hempty : simulation.toStateChanges = []) :
      InvokeRun networkPassphrase signer contractAddress functionName args pollCfg
        [⟨.getAccount signer.publicKey, .ok account⟩,
          ⟨.simulateTransaction (unprepared networkPassphrase op minBaseFee account),
            .ok simulation⟩]
        (.returned (.ok (.skippedNoStateChange (skippedText contractAddress functionName))))
  | bidding (op : Operation)
      (hop : sdk.invokeContract contractAddress functionName args = .ok op) (account : Account)
      (simulation : SimulateTransactionResponse)
      (herr : simulation.error = none) (hne : simulation.toStateChanges ≠ []) :
      InvokeRun networkPassphrase signer contractAddress functionName args pollCfg
        [⟨.getAccount signer.publicKey, .ok account⟩,
          ⟨.simulateTransaction (unprepared networkPassphrase op minBaseFee account),
            .ok simulation⟩]
        .running
  | submitted (op : Operation)
      (hop : sdk.invokeContract contractAddress functionName args = .ok op) (account : Account)
      (simulation : SimulateTransactionResponse)
      (herr : simulation.error = none) (hne : simulation.toStateChanges ≠ [])
      (stats : Except RpcError FeeStats) {t : List Exchange} {o : SubmissionOutcome}
      (hsend : PrepareAndSendRun sdk networkPassphrase signer.publicKey op (feeBid stats) signer
        pollCfg t o) :
      InvokeRun networkPassphrase signer contractAddress functionName args pollCfg
        (⟨.getAccount signer.publicKey, .ok account⟩ ::
          ⟨.simulateTransaction (unprepared networkPassphrase op minBaseFee account),
            .ok simulation⟩ :: ⟨.getFeeStats, stats⟩ :: t)
        (o.map (Except.map fun x ↦ .executed x.1))

variable {sdk} {networkPassphrase contractAddress functionName : String} {signer : Signer}
  {args : List ScVal} {pollCfg : PollConfig} {t : List Exchange}
  {o : Outcome (Except SorobanUtilsError InvokeOutcome)}

/-- What an invocation does with the simulation it asked for. -/
def submitSimulated (sdk : Sdk) (networkPassphrase : String) (signer : Signer)
    (contractAddress functionName : String) (op : Operation) (pollCfg : PollConfig)
    (simulation : SimulateTransactionResponse) : Async InvokeOutcome :=
  match simulation.error with
  | some err => throw (.simulation (simulationErrorText sdk contractAddress functionName err))
  | none =>
    if simulation.toStateChanges.isEmpty then
      pure (.skippedNoStateChange (skippedText contractAddress functionName))
    else do
      let fee ← inclusionFee sdk
      (fun x ↦ .executed x.1) <$>
        prepareAndSend sdk networkPassphrase signer.publicKey op fee signer pollCfg

theorem invokeContract_eq :
    invokeContract sdk networkPassphrase signer contractAddress functionName args pollCfg =
      Prog.lift ((sdk.invokeContract contractAddress functionName args).mapError .xdr) >>= fun op ↦
        getAccount sdk signer.publicKey >>= fun account ↦
          Prog.ask (.simulateTransaction (unprepared networkPassphrase op minBaseFee account))
            (Except.mapError (simulationError sdk)) >>=
              submitSimulated sdk networkPassphrase signer contractAddress functionName op
                pollCfg := by
  refine congrArg (Prog.lift _ >>= ·) (funext fun op ↦ ?_)
  rw [buildAndSimulate, bind_assoc]
  rfl

theorem runs_submitSimulated {op : Operation} {simulation : SimulateTransactionResponse} :
    Runs (submitSimulated sdk networkPassphrase signer contractAddress functionName op pollCfg
      simulation).run t o ↔
      (∃ err, simulation.error = some err ∧ t = [] ∧ o = .returned (.error
        (.simulation (simulationErrorText sdk contractAddress functionName err)))) ∨
      (simulation.error = none ∧ simulation.toStateChanges = [] ∧ t = [] ∧
        o = .returned (.ok (.skippedNoStateChange (skippedText contractAddress functionName)))) ∨
      simulation.error = none ∧ simulation.toStateChanges ≠ [] ∧
        ((t = [] ∧ o = .running) ∨
          ∃ stats t' o', t = ⟨.getFeeStats, stats⟩ :: t' ∧
            PrepareAndSendRun sdk networkPassphrase signer.publicKey op (feeBid stats) signer
              pollCfg t' o' ∧
            o = o'.map (Except.map fun x ↦ .executed x.1)) := by
  cases herr : simulation.error with
  | some err =>
    simp only [submitSimulated, herr, runs_throw]
    simp
  | none =>
    by_cases hempty : simulation.toStateChanges = []
    · simp only [submitSimulated, herr, hempty, List.isEmpty_nil, if_true, runs_pure]
      simp
    · have hbid : submitSimulated sdk networkPassphrase signer contractAddress functionName op
          pollCfg simulation = (do
            let fee ← inclusionFee sdk
            (fun x ↦ .executed x.1) <$>
              prepareAndSend sdk networkPassphrase signer.publicKey op fee signer pollCfg) := by
        simp [submitSimulated, herr, hempty]
      rw [hbid, runs_inclusionFee_bind]
      simp only [runs_except_map, runs_prepareAndSend]
      constructor
      · rintro (h | ⟨stats, t', rfl, o', hsend, rfl⟩)
        · exact .inr (.inr ⟨trivial, hempty, .inl h⟩)
        · exact .inr (.inr ⟨trivial, hempty, .inr ⟨stats, t', o', rfl, hsend, rfl⟩⟩)
      · rintro (⟨err, herr', -⟩ | ⟨-, hempty', -⟩ | ⟨-, -, h | ⟨stats, t', o', rfl, hsend, rfl⟩⟩)
        · cases herr'
        · exact absurd hempty' hempty
        · exact .inl h
        · exact .inr ⟨stats, t', rfl, o', hsend, rfl⟩

theorem runs_invokeContract :
    Runs (invokeContract sdk networkPassphrase signer contractAddress functionName args
      pollCfg).run t o ↔
      InvokeRun sdk networkPassphrase signer contractAddress functionName args pollCfg t o := by
  rw [invokeContract_eq, runs_lift_mapError_bind]
  constructor
  · rintro (⟨e, hop, rfl, rfl⟩ | ⟨op, hop, h⟩)
    · exact .notBuilt e hop
    obtain ⟨rfl, rfl⟩ | ⟨e, rfl, rfl⟩ | ⟨account, t, rfl, h₁⟩ := runs_getAccount_bind.mp h
    · exact .fetching op hop
    · exact .fetchFailed op hop e
    obtain ⟨rfl, rfl⟩ | ⟨e, rfl, rfl⟩ | ⟨simulation, t, rfl, h₂⟩ := runs_simulate_bind.mp h₁
    · exact .simulating op hop account
    · exact .simulateFailed op hop account e
    obtain ⟨err, herr, rfl, rfl⟩ | ⟨herr, hempty, rfl, rfl⟩ | ⟨herr, hne, h₃⟩ :=
      runs_submitSimulated.mp h₂
    · exact .simulationError op hop account simulation err herr
    · exact .skipped op hop account simulation herr hempty
    obtain ⟨rfl, rfl⟩ | ⟨stats, t, o, rfl, hsend, rfl⟩ := h₃
    · exact .bidding op hop account simulation herr hne
    · exact .submitted op hop account simulation herr hne stats hsend
  · intro h
    have hsimulated {op : Operation} {account : Account} {simulation : SimulateTransactionResponse}
        {t : List Exchange} {o : Outcome (Except SorobanUtilsError InvokeOutcome)}
        (h : Runs (submitSimulated sdk networkPassphrase signer contractAddress functionName op
          pollCfg simulation).run t o) :
        Runs (getAccount sdk signer.publicKey >>= fun account ↦
          Prog.ask (.simulateTransaction (unprepared networkPassphrase op minBaseFee account))
            (Except.mapError (simulationError sdk)) >>=
              submitSimulated sdk networkPassphrase signer contractAddress functionName op
                pollCfg).run
          (⟨.getAccount signer.publicKey, .ok account⟩ ::
            ⟨.simulateTransaction (unprepared networkPassphrase op minBaseFee account),
              .ok simulation⟩ :: t) o :=
      runs_getAccount_bind.mpr (.reply account (runs_simulate_bind.mpr (.reply simulation h)))
    cases h with
    | notBuilt e hop => exact .inl ⟨e, hop, rfl, rfl⟩
    | fetching op hop => exact .inr ⟨op, hop, runs_getAccount_bind.mpr .waiting⟩
    | fetchFailed op hop e => exact .inr ⟨op, hop, runs_getAccount_bind.mpr (.failed e)⟩
    | simulating op hop account =>
      refine .inr ⟨op, hop, runs_getAccount_bind.mpr (.reply account ?_)⟩
      exact runs_simulate_bind.mpr .waiting
    | simulateFailed op hop account e =>
      refine .inr ⟨op, hop, runs_getAccount_bind.mpr (.reply account ?_)⟩
      exact runs_simulate_bind.mpr (.failed e)
    | simulationError op hop account simulation err herr =>
      refine .inr ⟨op, hop, hsimulated (runs_submitSimulated.mpr (.inl ?_))⟩
      exact ⟨err, herr, rfl, rfl⟩
    | skipped op hop account simulation herr hempty =>
      refine .inr ⟨op, hop, hsimulated (runs_submitSimulated.mpr (.inr (.inl ?_)))⟩
      exact ⟨herr, hempty, rfl, rfl⟩
    | bidding op hop account simulation herr hne =>
      refine .inr ⟨op, hop, hsimulated (runs_submitSimulated.mpr (.inr (.inr ?_)))⟩
      exact ⟨herr, hne, .inl ⟨rfl, rfl⟩⟩
    | submitted op hop account simulation herr hne stats hsend =>
      refine .inr ⟨op, hop, hsimulated (runs_submitSimulated.mpr (.inr (.inr ?_)))⟩
      exact ⟨herr, hne, .inr ⟨stats, _, _, rfl, hsend, rfl⟩⟩

/-! ## What the result tells -/

/-- The first simulation of a trace was answered with `r`. -/
def FirstSimulation (r : Except RpcError SimulateTransactionResponse) (t : List Exchange) : Prop :=
  ∃ u q v, t = u ++ ⟨.simulateTransaction q, r⟩ :: v ∧
    ∀ q' r', (⟨.simulateTransaction q', r'⟩ : Exchange) ∉ u

/-- A simulation failed: as a call, or with an error in its response. -/
def SimulationFailed (t : List Exchange) : Prop :=
  (∃ q e, (⟨.simulateTransaction q, .error e⟩ : Exchange) ∈ t) ∨
    ∃ q simulation err, (⟨.simulateTransaction q, .ok simulation⟩ : Exchange) ∈ t ∧
      simulation.error = some err

/-- The fee statistics give no fee. -/
def FeeUnknown : Except RpcError FeeStats → Prop
  | .error _ => True
  | .ok stats => ∃ e, parseU32 stats.p90 = .error e

theorem feeBid_of_unknown {r : Except RpcError FeeStats} (h : FeeUnknown r) :
    feeBid r = minBaseFee := by
  cases r with
  | error e => rfl
  | ok stats =>
    obtain ⟨e, he⟩ := h
    rw [feeBid.eq_def]
    simp only [he]
    rfl

variable (sdk networkPassphrase signer t o)

/-- What the result of an invocation tells of the exchanges it made. -/
structure InvokeExchanges : Prop where
  /-- Skipped, exactly when the simulation saw no error and no change. -/
  skipped_iff : (∃ msg, o = .returned (.ok (.skippedNoStateChange msg))) ↔
    ∃ simulation, FirstSimulation (.ok simulation) t ∧ simulation.error = none ∧
      simulation.toStateChanges = []
  /-- A skipped invocation has signed and sent nothing. -/
  skipped : (∃ msg, o = .returned (.ok (.skippedNoStateChange msg))) →
    ∀ x ∈ t, IsUnsubmitted x.1
  /-- An executed invocation has sent one transaction, as the signer returned it, with the operation
  that was simulated, and the first final status it saw for it is `Success`. -/
  executed : ∀ txHash, o = .returned (.ok (.executed txHash)) → ∃ q simulation unsigned tx,
    ⟨.simulateTransaction q, .ok simulation⟩ ∈ t ∧ sends t = [tx] ∧
      ⟨.sign signer unsigned networkPassphrase, .ok tx⟩ ∈ t ∧ txHash = tx.hexHash sdk ∧
      FirstFinalStatus txHash .success t ∧
      (PrepareKeepsOperations t → SignerKeepsContents t →
        tx.contents.operations = q.contents.operations)
  atMostOne : (sends t).length ≤ 1
  /-- A failed simulation or prepare ends in an error, with nothing signed or sent. -/
  failedEarly : SimulationFailed t ∨ (∃ q e, ⟨.prepareTransaction q, .error e⟩ ∈ t) →
    (∃ e, o = .returned (.error e)) ∧ ∀ x ∈ t, IsUnsubmitted x.1
  /-- An error in the simulation response is reported as a simulation error. -/
  simulationError : ∀ q simulation err, ⟨.simulateTransaction q, .ok simulation⟩ ∈ t →
    simulation.error = some err → ∃ msg, o = .returned (.error (.simulation msg))
  /-- Without a fee the run goes on, and what it prepares bids the floor. -/
  feeUnknown : ∀ u r v, t = u ++ ⟨.getFeeStats, r⟩ :: v → FeeUnknown r →
    (v = [] → o = .running) ∧ ∀ q r', ⟨.prepareTransaction q, r'⟩ ∈ v →
      q.contents.fee = minBaseFee

/-- An invocation that is over reports what it did: it was skipped, it was executed, or it ends in
an error, and its exchanges are as the report has them. -/
structure InvokeReport : Prop extends InvokeExchanges sdk networkPassphrase signer t o where
  ends : o = .running ∨ (∃ msg, o = .returned (.ok (.skippedNoStateChange msg))) ∨
    (∃ txHash, o = .returned (.ok (.executed txHash))) ∨ ∃ e, o = .returned (.error e)

variable {sdk networkPassphrase signer t o}

namespace InvokeRun

variable (h : InvokeRun sdk networkPassphrase signer contractAddress functionName args pollCfg t o)
include h

theorem skipped_iff : (∃ msg, o = .returned (.ok (.skippedNoStateChange msg))) ↔
    ∃ simulation, FirstSimulation (.ok simulation) t ∧ simulation.error = none ∧
      simulation.toStateChanges = [] := by
  -- The simulation is the second call, so what it was answered with is the first simulation.
  have hfirst {account : Account} {q : Transaction}
      {r r' : Except RpcError SimulateTransactionResponse} {t : List Exchange} :
      FirstSimulation r (⟨.getAccount signer.publicKey, .ok account⟩ ::
        ⟨.simulateTransaction q, r'⟩ :: t) ↔ r = r' := by
    constructor
    · rintro ⟨u, q', v, ht, hno⟩
      obtain ⟨_, rfl, ht₁⟩ := (cons_eq_append_cons_iff_of_ne (by simp)).mp ht
      obtain ⟨_, hx, _⟩ | ⟨_, rfl, _⟩ := cons_eq_append_cons_iff.mp ht₁
      · cases hx
        rfl
      · exact absurd (by simp) (hno q r')
    · rintro rfl
      exact ⟨[_], q, t, rfl, by simp⟩
  have hnone {t : List Exchange} {r : Except RpcError SimulateTransactionResponse}
      (ht : ∀ q r', (⟨.simulateTransaction q, r'⟩ : Exchange) ∉ t) : ¬ FirstSimulation r t := by
    rintro ⟨u, q, v, rfl, _⟩
    exact ht q r List.mem_append_cons_self
  cases h with
  | notBuilt e hop => exact iff_of_false (by simp) fun ⟨_, h, _⟩ ↦ hnone (by simp) h
  | fetching op hop => exact iff_of_false (by simp) fun ⟨_, h, _⟩ ↦ hnone (by simp) h
  | fetchFailed op hop e => exact iff_of_false (by simp) fun ⟨_, h, _⟩ ↦ hnone (by simp) h
  | simulating op hop account => exact iff_of_false (by simp) fun ⟨_, h, _⟩ ↦ hnone (by simp) h
  | simulateFailed op hop account e =>
    refine iff_of_false (by simp) fun ⟨_, h, _⟩ ↦ ?_
    cases hfirst.mp h
  | simulationError op hop account simulation err herr =>
    refine iff_of_false (by simp) fun ⟨_, h, hnone, _⟩ ↦ ?_
    cases hfirst.mp h
    cases herr.symm.trans hnone
  | skipped op hop account simulation herr hempty =>
    exact iff_of_true ⟨_, rfl⟩ ⟨simulation, hfirst.mpr rfl, herr, hempty⟩
  | bidding op hop account simulation herr hne =>
    refine iff_of_false (by simp) fun ⟨_, h, _, hempty⟩ ↦ ?_
    cases hfirst.mp h
    exact hne hempty
  | @submitted op hop account simulation herr hne stats t o hsend =>
    refine iff_of_false (fun ⟨msg, ho⟩ ↦ ?_) fun ⟨_, h, _, hempty⟩ ↦ ?_
    · obtain ⟨_, -, hx⟩ := Outcome.map_map_eq_returned_ok.mp ho
      cases hx
    · cases hfirst.mp h
      exact hne hempty

theorem executed {txHash : String} (ho : o = .returned (.ok (.executed txHash))) :
    ∃ q simulation unsigned tx, ⟨.simulateTransaction q, .ok simulation⟩ ∈ t ∧ sends t = [tx] ∧
      ⟨.sign signer unsigned networkPassphrase, .ok tx⟩ ∈ t ∧ txHash = tx.hexHash sdk ∧
      FirstFinalStatus txHash .success t ∧
      (PrepareKeepsOperations t → SignerKeepsContents t →
        tx.contents.operations = q.contents.operations) := by
  cases h with
  | @submitted op hop account simulation herr hne stats t o hsend =>
    obtain ⟨x, rfl, hhash⟩ := Outcome.map_map_eq_returned_ok.mp ho
    cases hhash
    obtain ⟨account', prepared, tx, hsends, hx, -, hprepared, hsign, hfinal⟩ :=
      hsend.firstFinalStatus_of_returned_ok rfl
    have hmem {y : Exchange} (hy : y ∈ t) : y ∈ ⟨.getAccount signer.publicKey, .ok account⟩ ::
        ⟨.simulateTransaction (unprepared networkPassphrase op minBaseFee account),
          .ok simulation⟩ :: ⟨.getFeeStats, stats⟩ :: t := by
      simp [hy]
    refine ⟨_, simulation, prepared, tx, List.mem_cons_of_mem _ List.mem_cons_self, hsends,
      hmem hsign, hx, hfinal, fun hprepare hsigner ↦ ?_⟩
    rw [hsigner _ _ _ _ (hmem hsign), hprepare _ _ (hmem hprepared)]
    rfl
  | _ => cases ho

theorem failedEarly
    (hfailed : SimulationFailed t ∨ ∃ q e, (⟨.prepareTransaction q, .error e⟩ : Exchange) ∈ t) :
    (∃ e, o = .returned (.error e)) ∧ ∀ x ∈ t, IsUnsubmitted x.1 := by
  cases h with
  | notBuilt e hop => exact ⟨⟨_, rfl⟩, by simp⟩
  | fetching op hop => simp [SimulationFailed] at hfailed
  | fetchFailed op hop e => exact ⟨⟨_, rfl⟩, by simp [IsUnsubmitted]⟩
  | simulating op hop account => simp [SimulationFailed] at hfailed
  | simulateFailed op hop account e => exact ⟨⟨_, rfl⟩, by simp [IsUnsubmitted]⟩
  | simulationError op hop account simulation err herr =>
    exact ⟨⟨_, rfl⟩, by simp [IsUnsubmitted]⟩
  | skipped op hop account simulation herr hempty => simp [SimulationFailed, herr] at hfailed
  | bidding op hop account simulation herr hne => simp [SimulationFailed, herr] at hfailed
  | submitted op hop account simulation herr hne stats hsend =>
    -- Nothing is simulated past the bid, so what failed is the prepare.
    have hno (q : Transaction) (r : Except RpcError SimulateTransactionResponse) :
        (⟨.simulateTransaction q, r⟩ : Exchange) ∉ _ := fun hmem ↦
      (hsend.calls _ hmem).elim id id
    rcases hfailed with (⟨q, e, hmem⟩ | ⟨q, simulation', err, hmem, herr'⟩) | ⟨q, e, hmem⟩
    · simp [hno] at hmem
    · simp only [List.mem_cons, hno, or_false] at hmem
      obtain hmem | hmem | hmem := hmem <;> cases hmem
      cases herr.symm.trans herr'
    · simp only [List.mem_cons] at hmem
      obtain hmem | hmem | hmem | hmem := hmem
      · cases hmem
      · cases hmem
      · cases hmem
      · obtain ⟨hquiet, e', rfl⟩ := hsend.of_prepareFailed hmem
        refine ⟨⟨e', rfl⟩, ?_⟩
        simpa [IsUnsubmitted] using hquiet

theorem of_simulationError {q : Transaction} {simulation : SimulateTransactionResponse}
    {err : String} (hmem : ⟨.simulateTransaction q, .ok simulation⟩ ∈ t)
    (herr : simulation.error = some err) : o = .returned (.error
      (.simulation (simulationErrorText sdk contractAddress functionName err))) := by
  cases h with
  | notBuilt e hop => simp at hmem
  | fetching op hop => simp at hmem
  | fetchFailed op hop e => simp at hmem
  | simulating op hop account => simp at hmem
  | simulateFailed op hop account e => simp at hmem
  | simulationError op hop account simulation' err' herr' =>
    simp at hmem
    rw [← hmem.2, herr, Option.some.injEq] at herr'
    rw [herr']
  | skipped op hop account simulation' herr' hempty =>
    simp at hmem
    cases herr.symm.trans (hmem.2 ▸ herr')
  | bidding op hop account simulation' herr' hne =>
    simp at hmem
    cases herr.symm.trans (hmem.2 ▸ herr')
  | submitted op hop account simulation' herr' hne stats hsend =>
    simp only [List.mem_cons] at hmem
    obtain hmem | hmem | hmem | hmem := hmem
    · cases hmem
    · cases hmem
      cases herr.symm.trans herr'
    · cases hmem
    · exact ((hsend.calls _ hmem).elim id id).elim

theorem feeUnknown {u v : List Exchange} {r : Except RpcError FeeStats}
    (ht : t = u ++ ⟨.getFeeStats, r⟩ :: v) (hr : FeeUnknown r) :
    (v = [] → o = .running) ∧ ∀ q r', (⟨.prepareTransaction q, r'⟩ : Exchange) ∈ v →
      q.contents.fee = minBaseFee := by
  cases h with
  | notBuilt e hop => simp at ht
  | fetching op hop => simp at ht
  | fetchFailed op hop e => simp [cons_eq_append_cons_iff] at ht
  | simulating op hop account => simp [cons_eq_append_cons_iff] at ht
  | simulateFailed op hop account e => simp [cons_eq_append_cons_iff] at ht
  | simulationError op hop account simulation err herr => simp [cons_eq_append_cons_iff] at ht
  | skipped op hop account simulation herr hempty => simp [cons_eq_append_cons_iff] at ht
  | bidding op hop account simulation herr hne =>
    exact ⟨fun _ ↦ rfl, by simp [cons_eq_append_cons_iff] at ht⟩
  | submitted op hop account simulation herr hne stats hsend =>
    obtain ⟨_, rfl, ht₁⟩ := (cons_eq_append_cons_iff_of_ne (by simp)).mp ht
    obtain ⟨_, rfl, ht₂⟩ := (cons_eq_append_cons_iff_of_ne (by simp)).mp ht₁
    obtain ⟨_, hx, rfl⟩ | ⟨_, _, ht₃⟩ := cons_eq_append_cons_iff.mp ht₂
    · cases hx
      refine ⟨fun hnil ↦ ?_, fun q r' hmem ↦ ?_⟩
      · subst hnil
        cases hsend
        rfl
      · obtain ⟨account', rfl⟩ := hsend.prepare_eq hmem
        exact feeBid_of_unknown hr
    · exact ((hsend.calls ⟨.getFeeStats, r⟩ (ht₃ ▸ List.mem_append_cons_self)).elim id id).elim

theorem invokeExchanges : InvokeExchanges sdk networkPassphrase signer t o where
  skipped_iff := h.skipped_iff
  skipped := by
    rintro ⟨msg, ho⟩
    cases h with
    | skipped op hop account simulation herr hempty => simp [IsUnsubmitted]
    | @submitted op hop account simulation herr hne stats t o hsend =>
      obtain ⟨_, -, hx⟩ := Outcome.map_map_eq_returned_ok.mp ho
      cases hx
    | _ => cases ho
  executed := fun txHash ho ↦ h.executed ho
  atMostOne := by
    cases h with
    | submitted op hop account simulation herr hne stats hsend => exact hsend.length_sends_le
    | _ => exact Nat.zero_le 1
  failedEarly := h.failedEarly
  simulationError := fun q simulation err hmem herr ↦ ⟨_, h.of_simulationError hmem herr⟩
  feeUnknown := fun u r v ht hr ↦ h.feeUnknown ht hr

/-- An invocation panics exactly when the deadline after its send is no instant. -/
theorem ne_panicked_iff : o ≠ .panicked ↔ DeadlineFits sdk pollCfg t := by
  cases h with
  | @submitted op hop account simulation herr hne stats t o hsend =>
    have hunsent : ∀ x ∈ [⟨.getAccount signer.publicKey, .ok account⟩,
        ⟨.simulateTransaction (unprepared networkPassphrase op minBaseFee account),
          .ok simulation⟩, (⟨.getFeeStats, stats⟩ : Exchange)], sentTransaction x = none := by
      simp [sentTransaction]
    rw [Outcome.map_ne_panicked, hsend.submissionRun.ne_panicked_iff, DeadlineFits, DeadlineFits,
      ← afterSends_append_iff hunsent]
    rfl
  | _ => exact iff_of_true (by simp) (afterSends_of_unsent (by simp [sentTransaction]))

end InvokeRun

/-- **Invocation.** What an invocation returns tells what it did, in every run; and a run ends in
one of the three ways there are exactly when the deadline after its send is an instant. -/
theorem invokeReport_iff_deadlineFits (sdk : Sdk) (networkPassphrase : String) (signer : Signer)
    (contractAddress functionName : String) (args : List ScVal) (pollCfg : PollConfig)
    (t : List Exchange) (o : Outcome (Except SorobanUtilsError InvokeOutcome))
    (h : Runs (invokeContract sdk networkPassphrase signer contractAddress functionName args
      pollCfg).run t o) :
    (InvokeReport sdk networkPassphrase signer t o ↔ DeadlineFits sdk pollCfg t) ∧
      InvokeExchanges sdk networkPassphrase signer t o := by
  have hrun := runs_invokeContract.mp h
  rw [← hrun.ne_panicked_iff]
  refine ⟨⟨fun hreport ↦ ?_, fun hne ↦ ⟨hrun.invokeExchanges, ?_⟩⟩, hrun.invokeExchanges⟩
  · rintro rfl
    simpa using hreport.ends
  · rcases o with _ | _ | e | txHash | msg
    · exact .inl rfl
    · exact absurd rfl hne
    · exact .inr (.inr (.inr ⟨e, rfl⟩))
    · exact .inr (.inr (.inl ⟨txHash, rfl⟩))
    · exact .inr (.inl ⟨msg, rfl⟩)

/-! ## An invocation that executes, and one that panics -/

/-- The invocation of a function without arguments. -/
def sampleInvocation : Operation :=
  .invokeContract (.contract zeroHash) ⟨"f".toUTF8, by decide⟩ []

/-- Its transaction. -/
def invocationTransaction : Transaction :=
  unprepared NetworkConfig.testnet.networkPassphrase sampleInvocation minBaseFee ⟨"G", 7⟩

/-- The exchanges of an invocation up to what there is to sign, although the fee statistics fail. -/
def unsignedInvocation : List Exchange :=
  [⟨.getAccount "G", .ok ⟨"G", 7⟩⟩,
    ⟨.simulateTransaction invocationTransaction, .ok ⟨none, [⟨.contractCode zeroHash⟩], none⟩⟩,
    ⟨.getFeeStats, .error (.other "")⟩, ⟨.getAccount "G", .ok ⟨"G", 7⟩⟩,
    ⟨.prepareTransaction invocationTransaction, .ok invocationTransaction⟩]

theorem runs_invocation {pollCfg : PollConfig} {t : List Exchange} {o : SubmissionOutcome}
    (h : LegRun .sample NetworkConfig.testnet.networkPassphrase .sample invocationTransaction
      pollCfg t o) :
    Runs (invokeContract .sample NetworkConfig.testnet.networkPassphrase .sample "C" "f" []
      pollCfg).run (unsignedInvocation ++ t) (o.map (Except.map fun x ↦ .executed x.1)) :=
  runs_invokeContract.mpr (.submitted sampleInvocation rfl ⟨"G", 7⟩
    ⟨none, [⟨.contractCode zeroHash⟩], none⟩ rfl (List.cons_ne_nil _ _) (.error (.other ""))
    (.leg ⟨"G", 7⟩ _ h))

/-- The exchanges of an invocation that executes. -/
def executedRun : List Exchange :=
  unsignedInvocation ++ successfulLeg invocationTransaction

/-- With the default timeout the invocation reports that it was executed. -/
theorem invokeReport_executedRun :
    InvokeReport .sample NetworkConfig.testnet.networkPassphrase .sample executedRun
      (.returned (.ok (.executed (invocationTransaction.hexHash .sample)))) := by
  have hpoll : Runs (pollTransactionStatus .sample (invocationTransaction.hexHash .sample)
      .default).run [⟨.now, 0⟩, ⟨.getTransaction (invocationTransaction.hexHash .sample),
        .ok ⟨.success, none⟩⟩] (.returned (.ok ⟨.success, none⟩)) :=
    runs_poll_success (by decide) rfl
  refine (invokeReport_iff_deadlineFits .sample _ _ "C" "f" [] .default _ _
    (runs_invocation (legRun_successfulLeg _))).1.mpr ?_
  refine (afterSends_append_iff (by simp [unsignedInvocation, sentTransaction])).mpr ?_
  refine (afterSends_leg_iff hpoll).mpr ?_
  rintro start v ⟨⟩
  decide

/-- The exchanges of an invocation that sends its transaction when the clock is at one second. -/
def panickedRun : List Exchange :=
  unsignedInvocation ++
  [⟨.sign .sample invocationTransaction NetworkConfig.testnet.networkPassphrase,
      .ok invocationTransaction⟩,
    ⟨.sendTransaction invocationTransaction,
      .ok ⟨.pending, invocationTransaction.hexHash .sample⟩⟩, ⟨.now, 1000000000⟩]

/-- A client accepts `Duration::MAX` as a timeout, and then the invocation sends its transaction and
panics. -/
theorem invocation_panics_after_send : ∃ pollCfg, pollCfg.timeout = .max ∧
    Runs (Client.withPollConfig .sample (fun _ ↦ .ok ()) (fun _ ↦ .ok "G") .testnet (.secret "S")
      pollCfg).run [] (.returned (.ok (.polling pollCfg))) ∧
    Runs (invokeContract .sample NetworkConfig.testnet.networkPassphrase .sample "C" "f" []
      (Client.polling pollCfg).pollCfg).run panickedRun .panicked ∧
    sends panickedRun = [invocationTransaction] ∧
    ¬InvokeReport .sample NetworkConfig.testnet.networkPassphrase .sample panickedRun
      .panicked := by
  have hlarge : ¬Representable .sample ⟨.fromSecs 2, .max⟩ 1000000000 := by decide
  refine ⟨⟨.fromSecs 2, .max⟩, rfl, runs_withPollConfig_sample _,
    runs_invocation (.polling invocationTransaction ⟨.pending, _⟩
      (runs_poll_unrepresentable hlarge)), rfl, fun hreport ↦ ?_⟩
  simpa using hreport.ends

end StellarRustClient
