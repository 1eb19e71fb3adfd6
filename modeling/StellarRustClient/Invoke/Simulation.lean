import StellarRustClient.Invoke.Report
import StellarRustClient.Read

/-!
# How a failed simulation is reported

The two functions that simulate look at different fields of the response. `invoke_contract` looks
for an error first, whatever else there is. `read_contract` looks for a result only: a response that
carries an error is reported as a missing return value, or not at all if it has a result as well.
-/

namespace StellarRustClient

open Interaction

variable (sdk : Sdk)

/-! ## Reading -/

/-- What `read_contract` makes of the response. -/
def readResult (simulation : SimulateTransactionResponse) : Except SorobanUtilsError ScVal :=
  match simulation.toResult with
  | some v => .ok v
  | none => .error .missingReturnValue

/-- The runs of `readContract`. -/
inductive ReadRun (networkPassphrase callerAddress contractAddress functionName : String)
    (args : List ScVal) : List Exchange → Outcome (Except SorobanUtilsError ScVal) → Prop
  | notBuilt (e : String) (hop : sdk.invokeContract contractAddress functionName args = .error e) :
      ReadRun networkPassphrase callerAddress contractAddress functionName args
        [] (.returned (.error (.xdr e)))
  | fetching (op : Operation)
      (hop : sdk.invokeContract contractAddress functionName args = .ok op) :
      ReadRun networkPassphrase callerAddress contractAddress functionName args [] .running
  | fetchFailed (op : Operation)
      (hop : sdk.invokeContract contractAddress functionName args = .ok op) (e : RpcError) :
      ReadRun networkPassphrase callerAddress contractAddress functionName args
        [⟨.getAccount callerAddress, .error e⟩] (.returned (.error (rpcError sdk e)))
  | simulating (op : Operation)
      (hop : sdk.invokeContract contractAddress functionName args = .ok op) (account : Account) :
      ReadRun networkPassphrase callerAddress contractAddress functionName args
        [⟨.getAccount callerAddress, .ok account⟩] .running
  | simulateFailed (op : Operation)
      (hop : sdk.invokeContract contractAddress functionName args = .ok op) (account : Account)
      (e : RpcError) :
      ReadRun networkPassphrase callerAddress contractAddress functionName args
        [⟨.getAccount callerAddress, .ok account⟩,
          ⟨.simulateTransaction (unprepared networkPassphrase op minBaseFee account), .error e⟩]
        (.returned (.error (simulationError sdk e)))
  | simulated (op : Operation)
      (hop : sdk.invokeContract contractAddress functionName args = .ok op) (account : Account)
      (simulation : SimulateTransactionResponse) :
      ReadRun networkPassphrase callerAddress contractAddress functionName args
        [⟨.getAccount callerAddress, .ok account⟩,
          ⟨.simulateTransaction (unprepared networkPassphrase op minBaseFee account),
            .ok simulation⟩]
        (.returned (readResult simulation))

section

variable {sdk} {networkPassphrase callerAddress contractAddress functionName : String}
  {args : List ScVal} {t : List Exchange} {o : Outcome (Except SorobanUtilsError ScVal)}

theorem readContract_eq :
    readContract sdk networkPassphrase callerAddress contractAddress functionName args =
      Prog.lift ((sdk.invokeContract contractAddress functionName args).mapError .xdr) >>= fun op ↦
        getAccount sdk callerAddress >>= fun account ↦
          Prog.ask (.simulateTransaction (unprepared networkPassphrase op minBaseFee account))
            (Except.mapError (simulationError sdk)) >>= fun simulation ↦
              Prog.lift (readResult simulation) := by
  refine congrArg (Prog.lift _ >>= ·) (funext fun op ↦ ?_)
  rw [buildAndSimulate, bind_assoc]
  refine congrArg (getAccount sdk callerAddress >>= ·) (funext fun account ↦ ?_)
  refine congrArg (Prog.ask _ _ >>= ·) (funext fun simulation ↦ ?_)
  rw [readResult]
  cases simulation.toResult <;> rfl

theorem runs_readContract :
    Runs (readContract sdk networkPassphrase callerAddress contractAddress functionName args).run
      t o ↔
      ReadRun sdk networkPassphrase callerAddress contractAddress functionName args t o := by
  rw [readContract_eq, runs_lift_mapError_bind]
  constructor
  · rintro (⟨e, hop, rfl, rfl⟩ | ⟨op, hop, h⟩)
    · exact .notBuilt e hop
    obtain ⟨rfl, rfl⟩ | ⟨e, rfl, rfl⟩ | ⟨account, t, rfl, h₁⟩ := runs_getAccount_bind.mp h
    · exact .fetching op hop
    · exact .fetchFailed op hop e
    obtain ⟨rfl, rfl⟩ | ⟨e, rfl, rfl⟩ | ⟨simulation, t, rfl, h₂⟩ := runs_simulate_bind.mp h₁
    · exact .simulating op hop account
    · exact .simulateFailed op hop account e
    · obtain ⟨rfl, rfl⟩ := runs_lift.mp h₂
      exact .simulated op hop account simulation
  · intro h
    cases h with
    | notBuilt e hop => exact .inl ⟨e, hop, rfl, rfl⟩
    | fetching op hop => exact .inr ⟨op, hop, runs_getAccount_bind.mpr .waiting⟩
    | fetchFailed op hop e => exact .inr ⟨op, hop, runs_getAccount_bind.mpr (.failed e)⟩
    | simulating op hop account =>
      refine .inr ⟨op, hop, runs_getAccount_bind.mpr (.reply account ?_)⟩
      exact runs_simulate_bind.mpr .waiting
    | simulateFailed op hop account e =>
      refine .inr ⟨op, hop, runs_getAccount_bind.mpr (.reply account ?_)⟩
      exact runs_simulate_bind.mpr (.failed e)
    | simulated op hop account simulation =>
      refine .inr ⟨op, hop, runs_getAccount_bind.mpr (.reply account ?_)⟩
      exact runs_simulate_bind.mpr (.reply simulation (runs_lift.mpr ⟨rfl, rfl⟩))

end

/-! ## One rule for both functions -/

/-- A call of one of the two functions that simulate. -/
inductive SimulatingCall
  | readContract (networkPassphrase callerAddress contractAddress functionName : String)
      (args : List ScVal)
  | invokeContract (networkPassphrase : String) (signer : Signer)
      (contractAddress functionName : String) (args : List ScVal) (pollCfg : PollConfig)

namespace SimulatingCall

/-- The type of the value that the call gives. -/
@[reducible] def Value : SimulatingCall → Type
  | readContract .. => ScVal
  | invokeContract .. => InvokeOutcome

/-- `read_contract` rather than `invoke_contract`. -/
def IsRead : SimulatingCall → Prop
  | readContract .. => True
  | invokeContract .. => False

/-- The call. -/
def call : (c : SimulatingCall) → Async c.Value
  | readContract networkPassphrase callerAddress contractAddress functionName args =>
    StellarRustClient.readContract sdk networkPassphrase callerAddress contractAddress functionName
      args
  | invokeContract networkPassphrase signer contractAddress functionName args pollCfg =>
    StellarRustClient.invokeContract sdk networkPassphrase signer contractAddress functionName args
      pollCfg

/-- The simulation that a run asked for was answered with this response. -/
def Simulated (simulation : SimulateTransactionResponse) (t : List Exchange) : Prop :=
  ∃ q, (⟨.simulateTransaction q, .ok simulation⟩ : Exchange) ∈ t

/-- What the results of `read_contract` say of the response. -/
def ReadsResult (t : List Exchange) :
    (c : SimulatingCall) → Outcome (Except SorobanUtilsError c.Value) → Prop
  | readContract .., o =>
    (∀ v, o = .returned (.ok v) →
      ∃ simulation, Simulated simulation t ∧ simulation.error = none ∧
        simulation.toResult = some v) ∧
    (o = .returned (.error .missingReturnValue) →
      ∃ simulation, Simulated simulation t ∧ simulation.error = none ∧
        simulation.toResult = none)
  | invokeContract .., _ => True

/-- One rule for all simulations: an error in the response is returned as such, and nothing else is
returned for it. -/
structure Classified (c : SimulatingCall) (t : List Exchange)
    (o : Outcome (Except SorobanUtilsError c.Value)) : Prop where
  /-- Whatever else the response contains, its error is what the call fails with. -/
  error : ∀ simulation err, Simulated simulation t → simulation.error = some err →
    ∃ context, o = .returned (.error (.simulation (context ++ sdk.debugString err)))
  result : ReadsResult t c o

variable {sdk} {c : SimulatingCall} {t : List Exchange}
  {o : Outcome (Except SorobanUtilsError c.Value)}

/-- The error of an invocation ends with that of the simulation. -/
theorem exists_context (contractAddress functionName err : String) : ∃ context,
    simulationErrorText sdk contractAddress functionName err = context ++ sdk.debugString err :=
  ⟨s!"invoke_contract({functionName}) on {contractAddress}: ", rfl⟩

end SimulatingCall

/-- A read returns the result of the response, and fails when there is none. -/
theorem readResult_eq_ok {simulation : SimulateTransactionResponse} {v : ScVal} :
    readResult simulation = .ok v ↔ simulation.toResult = some v := by
  rw [readResult]
  cases simulation.toResult <;> simp

theorem readResult_eq_error {simulation : SimulateTransactionResponse} {e : SorobanUtilsError} :
    readResult simulation = .error e ↔ simulation.toResult = none ∧ e = .missingReturnValue := by
  rw [readResult]
  cases simulation.toResult <;> simp [eq_comm]

open SimulatingCall in
/-- **Simulation failures.** An invocation always reports them by the rule, and a read exactly when
there is none. -/
theorem classified_iff {sdk : Sdk} {c : SimulatingCall} {t : List Exchange}
    {o : Outcome (Except SorobanUtilsError c.Value)} (h : Runs (c.call sdk).run t o) :
    Classified sdk c t o ↔
      (c.IsRead → ∀ simulation, Simulated simulation t → simulation.error = none) := by
  cases c with
  | readContract networkPassphrase callerAddress contractAddress functionName args =>
    have hrun := runs_readContract.mp h
    cases hrun with
    | simulated op hop account simulation =>
      have hsim (simulation' : SimulateTransactionResponse) :
          Simulated simulation' [⟨.getAccount callerAddress, .ok account⟩,
            ⟨.simulateTransaction (unprepared networkPassphrase op minBaseFee account),
              .ok simulation⟩] ↔ simulation' = simulation := by
        simp [Simulated]
      constructor
      · intro hclass _ simulation' hmem
        rw [hsim] at hmem
        subst hmem
        -- What the call fails with is never the error of the response.
        by_contra herr
        obtain ⟨err, herr⟩ := Option.ne_none_iff_exists'.mp herr
        obtain ⟨context, ho⟩ := hclass.error simulation' err ((hsim _).mpr rfl) herr
        rw [Outcome.returned.injEq, readResult_eq_error] at ho
        cases ho.2
      · intro hnone
        have herr : simulation.error = none := hnone trivial simulation ((hsim _).mpr rfl)
        refine ⟨fun simulation' err hmem herr' ↦ ?_, fun v hv ↦ ?_, fun hmissing ↦ ?_⟩
        · rw [hsim] at hmem
          subst hmem
          cases herr.symm.trans herr'
        · have hresult := readResult_eq_ok.mp (Outcome.returned.inj hv)
          exact ⟨simulation, (hsim _).mpr rfl, herr, hresult⟩
        · have hresult := (readResult_eq_error.mp (Outcome.returned.inj hmissing)).1
          exact ⟨simulation, (hsim _).mpr rfl, herr, hresult⟩
    | _ =>
      refine iff_of_true ⟨fun simulation err hmem ↦ ?_, fun v hv ↦ ?_, fun hmissing ↦ ?_⟩
        fun _ simulation hmem ↦ ?_
      · simp [Simulated] at hmem
      · cases hv
      · cases hmissing
      · simp [Simulated] at hmem
  | invokeContract networkPassphrase signer contractAddress functionName args pollCfg =>
    refine iff_of_true ⟨fun simulation err hsim herr ↦ ?_, trivial⟩ fun hread ↦ hread.elim
    obtain ⟨q, hmem⟩ := hsim
    obtain ⟨context, hcontext⟩ := @exists_context sdk contractAddress functionName err
    exact ⟨context, hcontext ▸ (runs_invokeContract.mp h).of_simulationError hmem herr⟩

/-! ## A response with an error -/

/-- A read of a contract that the sample SDK knows. -/
def sampleRead : SimulatingCall :=
  .readContract NetworkConfig.testnet.networkPassphrase "G" "C" "f" []

/-- The exchanges of the read up to the response. -/
def simulatedRead (simulation : SimulateTransactionResponse) : List Exchange :=
  [⟨.getAccount "G", .ok ⟨"G", 7⟩⟩,
    ⟨.simulateTransaction (unprepared NetworkConfig.testnet.networkPassphrase sampleInvocation
      minBaseFee ⟨"G", 7⟩), .ok simulation⟩]

theorem runs_sampleRead (simulation : SimulateTransactionResponse) :
    Runs (sampleRead.call .sample).run (simulatedRead simulation)
      (.returned (readResult simulation)) :=
  runs_readContract.mpr (.simulated sampleInvocation rfl ⟨"G", 7⟩ simulation)

theorem simulated_simulatedRead {simulation simulation' : SimulateTransactionResponse} :
    SimulatingCall.Simulated simulation' (simulatedRead simulation) ↔ simulation' = simulation := by
  simp [SimulatingCall.Simulated, simulatedRead]

theorem classified_sampleRead :
    SimulatingCall.Classified .sample sampleRead (simulatedRead ⟨none, [], some .void⟩)
      (.returned (.ok .void)) := by
  refine (classified_iff (runs_sampleRead ⟨none, [], some .void⟩)).mpr fun _ simulation hsim ↦ ?_
  rw [simulated_simulatedRead.mp hsim]

/-- An error without a result is reported as a missing return value. -/
theorem failed_read_misses_value : ∃ t o, Runs (sampleRead.call .sample).run t o ∧
    o = .returned (.error .missingReturnValue) ∧
    SimulatingCall.Simulated ⟨some "HostError", [], none⟩ t ∧
    ¬ SimulatingCall.Classified .sample sampleRead t o := by
  have hsim : SimulatingCall.Simulated ⟨some "HostError", [], none⟩
      (simulatedRead ⟨some "HostError", [], none⟩) := simulated_simulatedRead.mpr rfl
  refine ⟨_, _, runs_sampleRead ⟨some "HostError", [], none⟩, rfl, hsim, fun hclass ↦ ?_⟩
  obtain ⟨context, ho⟩ := hclass.error ⟨some "HostError", [], none⟩ "HostError" hsim rfl
  cases ho

end StellarRustClient
