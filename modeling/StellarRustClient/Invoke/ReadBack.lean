import StellarRustClient.Client.ReadOp
import StellarRustClient.Invoke.Simulation
import StellarRustClient.Submission.Landed

/-!
# Reading a write back

The contracts of a network as a machine whose state is of any kind, and on which anyone may act.
`invoke_contract` has an effect on it at one point of its run: the operation is executed there, or
it was simulated there and would have changed nothing. In the second case nothing is submitted, and
the network could not tell the difference. A value that `read_contract` returns after that is what
its own operation gives in a state that the network has come to since.
-/

namespace StellarRustClient

open Interaction

variable {σ : Type*} {sdk : Sdk} {source : String} {op : Operation} {t : List Exchange}

/-! ## The machine -/

/-- The contracts of a network. -/
structure ContractMachine (σ : Type*) where
  /-- The state after an operation that is executed for an account, and the value it returns if it
  has one, unless it traps. -/
  execute : String → Operation → σ → Option (σ × Option ScVal)
  /-- What else may happen. -/
  others : σ → σ → Prop

namespace ContractMachine

/-- A node simulates an operation as it would be executed in this state. -/
def Reports (M : ContractMachine σ) (s : σ) : Exchange → Prop
  | ⟨.simulateTransaction q, .ok simulation⟩ => ∀ op, q.contents.operations = [op] →
    match M.execute q.contents.source op s with
    | none => simulation.error ≠ none ∧ simulation.toResult = none
    | some (s', v) => simulation.error = none ∧ simulation.toResult = v ∧
      (simulation.toStateChanges = [] → s' = s)
  | _ => True

/-- The machine under the transactions of the network. -/
def protocol (M : ContractMachine σ) : Protocol σ where
  succeeds c v s s' := ∃ op, c.operations = [op] ∧ M.execute c.source op s = some (s', v)
  others := M.others
  reports := M.Reports

end ContractMachine

/-! ## The calls -/

/-- What is invoked. -/
structure Invocation where
  contractAddress : String
  functionName : String
  args : List ScVal

/-- The operation that invokes it. -/
def Invocation.operation (sdk : Sdk) (c : Invocation) : Except String Operation :=
  sdk.invokeContract c.contractAddress c.functionName c.args

/-- A call of one of the two versions of `invoke_contract`. -/
inductive InvokeCall
  | invokeContract (networkPassphrase : String) (signer : Signer) (pollCfg : PollConfig)
  | clientInvokeContract (client : Client)

/-- The call. -/
def InvokeCall.call (sdk : Sdk) (c : Invocation) : InvokeCall → Async InvokeOutcome
  | invokeContract networkPassphrase signer pollCfg =>
    StellarRustClient.invokeContract sdk networkPassphrase signer c.contractAddress c.functionName
      c.args pollCfg
  | clientInvokeContract client =>
    client.invokeContract sdk c.contractAddress c.functionName c.args

/-- A call of one of the two versions of `read_contract`. -/
inductive ReadCall
  | readContract (networkPassphrase callerAddress : String)
  | clientReadContract (client : Client)

/-- The call. -/
def ReadCall.call (sdk : Sdk) (c : Invocation) : ReadCall → Async ScVal
  | readContract networkPassphrase callerAddress =>
    StellarRustClient.readContract sdk networkPassphrase callerAddress c.contractAddress
      c.functionName c.args
  | clientReadContract client => client.readContract sdk c.contractAddress c.functionName c.args

/-! ## What a call exchanges -/

/-- An account was fetched. -/
def Fetched (source : String) (t : List Exchange) : Prop :=
  ∃ account, (⟨.getAccount source, .ok account⟩ : Exchange) ∈ t

/-- A transaction with the operation `op` was built from an account and simulated. -/
def SimulatedFor (source : String) (op : Operation) (simulation : SimulateTransactionResponse)
    (t : List Exchange) : Prop :=
  ∃ networkPassphrase fee account, (⟨.getAccount source, .ok account⟩ : Exchange) ∈ t ∧
    (⟨.simulateTransaction (unprepared networkPassphrase op fee account), .ok simulation⟩ :
      Exchange) ∈ t

theorem SimulatedFor.fetched {simulation : SimulateTransactionResponse}
    (h : SimulatedFor source op simulation t) : Fetched source t := by
  obtain ⟨-, -, account, hmem, -⟩ := h
  exact ⟨account, hmem⟩

theorem Landed.fetched {data : Option SorobanTransactionData} {final : GetTransactionResponse}
    {v : List Exchange} (h : Landed sdk source op data final v t) : Fetched source t := by
  obtain ⟨u, -, -, account, -, -, -, -, -, -⟩ := h
  exact ⟨account, List.mem_append_cons_self⟩

/-- The two ways of an invocation to succeed. -/
inductive Invoked (sdk : Sdk) (source : String) (op : Operation) (t : List Exchange) :
    InvokeOutcome → Prop
  | skipped (msg : String) (simulation : SimulateTransactionResponse)
      (hsim : SimulatedFor source op simulation t) (herr : simulation.error = none)
      (hempty : simulation.toStateChanges = []) :
      Invoked sdk source op t (.skippedNoStateChange msg)
  | executed (txHash : String) (final : GetTransactionResponse) (v : List Exchange)
      (hlanded : Landed sdk source op none final v t) : Invoked sdk source op t (.executed txHash)

theorem Invoked.inScope {t' : List Exchange} {result : InvokeOutcome}
    (h : Invoked sdk source op t result) (hscope : InScope t t') :
    Invoked sdk source op t' result := by
  cases h with
  | skipped msg simulation hsim herr hempty =>
    obtain ⟨networkPassphrase, fee, account, hfetch, hmem⟩ := hsim
    refine .skipped msg simulation ⟨networkPassphrase, fee, account, ?_, ?_⟩ herr hempty
    · exact (hscope.mem_iff id).mpr hfetch
    · exact (hscope.mem_iff id).mpr hmem
  | executed txHash final v hlanded =>
    obtain ⟨v', -, hlanded⟩ := hlanded.inScope hscope
    exact .executed txHash final v' hlanded

theorem InvokeRun.invoked {networkPassphrase contractAddress functionName : String}
    {signer : Signer} {args : List ScVal} {pollCfg : PollConfig} {result : InvokeOutcome}
    {o : Outcome (Except SorobanUtilsError InvokeOutcome)} (ho : o = .returned (.ok result))
    (h : InvokeRun sdk networkPassphrase signer contractAddress functionName args pollCfg t o) :
    ∃ op, sdk.invokeContract contractAddress functionName args = .ok op ∧
      Invoked sdk signer.publicKey op t result := by
  cases h with
  | skipped op hop account simulation herr hempty =>
    cases ho
    exact ⟨op, hop, .skipped _ simulation ⟨networkPassphrase, minBaseFee, account,
      List.mem_cons_self, List.mem_cons_of_mem _ List.mem_cons_self⟩ herr hempty⟩
  | submitted op hop account simulation herr hne stats hsend =>
    obtain ⟨x, hx, rfl⟩ := Outcome.map_map_eq_returned_ok.mp ho
    obtain ⟨v, hlanded⟩ := hsend.landed hx
    exact ⟨op, hop, .executed x.1 x.2 v (hlanded.append_left [_, _, _])⟩
  | _ => cases ho

theorem InvokeCall.invoked {w : InvokeCall} {c : Invocation} {result : InvokeOutcome}
    (h : Runs (w.call sdk c).run t (.returned (.ok result))) :
    ∃ source op, c.operation sdk = .ok op ∧ Invoked sdk source op t result := by
  cases w with
  | invokeContract networkPassphrase signer pollCfg =>
    exact ⟨signer.publicKey, (runs_invokeContract.mp h).invoked rfl⟩
  | clientInvokeContract client =>
    obtain ⟨-, ho⟩ | ⟨signer, t', o', hbody, hscope, ho⟩ := (runs_withSigner.mp h).exists_body
    · exact absurd rfl (ho result)
    obtain ⟨op, hop, hinvoked⟩ := (runs_invokeContract.mp hbody).invoked (ho _ rfl)
    exact ⟨signer.publicKey, op, hop, hinvoked.inScope hscope⟩

theorem ReadCall.simulated {r : ReadCall} {c : Invocation} {v : ScVal}
    (h : Runs (r.call sdk c).run t (.returned (.ok v))) :
    ∃ source op simulation, c.operation sdk = .ok op ∧ SimulatedFor source op simulation t ∧
      simulation.toResult = some v := by
  have hread {networkPassphrase callerAddress : String}
      (h : Runs (StellarRustClient.readContract sdk networkPassphrase callerAddress
        c.contractAddress c.functionName c.args).run t (.returned (.ok v))) :
      ∃ source op simulation, c.operation sdk = .ok op ∧ SimulatedFor source op simulation t ∧
        simulation.toResult = some v := by
    generalize ho : Outcome.returned (Except.ok v) = o at h
    cases runs_readContract.mp h with
    | simulated op hop account simulation =>
      refine ⟨callerAddress, op, simulation, hop, ⟨networkPassphrase, minBaseFee, account,
        List.mem_cons_self, List.mem_cons_of_mem _ List.mem_cons_self⟩, ?_⟩
      exact readResult_eq_ok.mp (Outcome.returned.inj ho.symm)
    | _ => cases ho
  cases r with
  | readContract networkPassphrase callerAddress => exact hread h
  | clientReadContract client => exact hread h

/-! ## Any schedule -/

section

variable {ι : Type*} [DecidableEq ι] {M : ContractMachine σ}
  {h : Schedule ι Call Reply (Network σ)} {i : ι} {s s' : Network σ}

/-- A simulation that does not fail shows what the operation does at a point of the schedule. -/
theorem SimulatedFor.exists_execute {simulation : SimulateTransactionResponse}
    (hsim : SimulatedFor source op simulation (h.traceOf i))
    (hpath : (networkWorld sdk M.protocol).Path s (h.map Prod.snd) s')
    (hok : simulation.error = none ∨ simulation.toResult ≠ none) :
    ∃ x y, M.protocol.Reaches s.state x ∧ M.protocol.Reaches x s'.state ∧
      M.execute source op x = some (y, simulation.toResult) ∧
      (simulation.toStateChanges = [] → y = x) := by
  obtain ⟨networkPassphrase, fee, account, hfetch, hmem⟩ := hsim
  obtain ⟨_, -, ⟨haccount, -⟩, -⟩ := Network.exists_of_mem_traceOf hpath hfetch
  obtain ⟨sₓ, ⟨hbefore, hafter⟩, -, hreports⟩ := Network.exists_of_mem_traceOf hpath hmem
  have hreports := hreports op rfl
  rw [show (unprepared networkPassphrase op fee account).contents.source = source from haccount]
    at hreports
  cases hexecute : M.execute source op sₓ.state with
  | none =>
    rw [hexecute] at hreports
    obtain hok | hok := hok
    · exact absurd hok hreports.1
    · exact absurd hreports.2 hok
  | some y =>
    rw [hexecute] at hreports
    obtain ⟨-, hresult, hsame⟩ := hreports
    exact ⟨sₓ.state, y.1, hbefore.reaches, hafter.reaches, by rw [hexecute, hresult], hsame⟩

/-- What the result of an invocation says of the states around its execution: a step of the network,
or nothing that would have changed. -/
def Moved (P : Protocol σ) : InvokeOutcome → σ → σ → Prop
  | .executed _, x, y => P.Step x y
  | .skippedNoStateChange _, x, y => y = x

/-- The invocation `c`, for an account that was fetched in the exchanges `t`. -/
def ContractMachine.Executes (M : ContractMachine σ) (sdk : Sdk) (c : Invocation)
    (t : List Exchange) (x y : σ) (v : Option ScVal) : Prop :=
  ∃ source op, Fetched source t ∧ c.operation sdk = .ok op ∧ M.execute source op x = some (y, v)

/-- An invocation that succeeds has its effect at a point of the schedule. -/
theorem Invoked.exists_execute {c : Invocation} {result : InvokeOutcome}
    (hinvoked : Invoked sdk source op (h.traceOf i) result) (hop : c.operation sdk = .ok op)
    (hpath : (networkWorld sdk M.protocol).Path s (h.map Prod.snd) s') :
    ∃ x y v, M.protocol.Reaches s.state x ∧ M.Executes sdk c (h.traceOf i) x y v ∧
      Moved M.protocol result x y ∧ M.protocol.Reaches y s'.state := by
  cases hinvoked with
  | skipped msg simulation hsim herr hempty =>
    obtain ⟨x, y, hx, hx', hexecute, hsame⟩ := hsim.exists_execute hpath (.inl herr)
    obtain rfl := hsame hempty
    exact ⟨y, y, _, hx, ⟨source, op, hsim.fetched, hop, hexecute⟩, rfl, hx'⟩
  | executed txHash final v hlanded =>
    obtain ⟨_, _, _, _, tx, -, -, -, hfetched, hlands⟩ := hlanded.exists_lands hpath
    obtain ⟨w, ⟨x, y, hx, hsucceeds, hy⟩, -⟩ := hlands.passes
    obtain ⟨op', hops, hexecute⟩ := hsucceeds
    obtain rfl : op' = op := by simpa [hlands.operations] using hops.symm
    rw [hlands.source] at hexecute
    refine ⟨x, y, w, hfetched.trans hx, ⟨source, op', hlanded.fetched, hop, hexecute⟩, ?_, hy⟩
    exact .inr ⟨tx, w, op', hops, hlands.source ▸ hexecute⟩

end

/-- **Reading a write back.** However the calls of any number of threads take turns, an invocation
that succeeds has its effect at one point in the course of its call, also if nothing was submitted;
and what a reading returns after that call is what it gives in a state that the network has come to
from there. -/
theorem write_reads_back (sdk : Sdk) (M : ContractMachine σ) (w : InvokeCall) (r : ReadCall)
    (c c' : Invocation) (result : InvokeOutcome) (value : ScVal) (ι : Type*) [DecidableEq ι]
    (i j : ι) (s₀ s₁ s₂ : Network σ) (h₁ h₂ : Schedule ι Call Reply (Network σ))
    (hpath₁ : (networkWorld sdk M.protocol).Path s₀ (h₁.map Prod.snd) s₁)
    (hcall : Runs (w.call sdk c).run (h₁.traceOf i) (.returned (.ok result)))
    (hpath₂ : (networkWorld sdk M.protocol).Path s₁ (h₂.map Prod.snd) s₂)
    (hread : Runs (r.call sdk c').run (h₂.traceOf j) (.returned (.ok value))) :
    ∃ x y v z z', M.protocol.Reaches s₀.state x ∧
      M.Executes sdk c (h₁.traceOf i) x y v ∧ Moved M.protocol result x y ∧
      M.protocol.Reaches y s₁.state ∧ M.protocol.Reaches s₁.state z ∧
      M.Executes sdk c' (h₂.traceOf j) z z' (some value) ∧ M.protocol.Reaches z s₂.state := by
  obtain ⟨source, op, hop, hinvoked⟩ := w.invoked hcall
  obtain ⟨x, y, v, hx, hexecutes, hmoved, hy⟩ := hinvoked.exists_execute hop hpath₁
  obtain ⟨source', op', simulation, hop', hsim, hvalue⟩ := r.simulated hread
  obtain ⟨z, z', hz, hz', hexecute, -⟩ := hsim.exists_execute hpath₂ (.inr (by simp [hvalue]))
  exact ⟨x, y, v, z, z', hx, hexecutes, hmoved, hy, hz,
    ⟨source', op', hsim.fetched, hop', hvalue ▸ hexecute⟩, hz'⟩

/-! ## A counter that is moved and read -/

/-- Every operation counts one on, and returns the number before that. -/
def ContractMachine.counter : ContractMachine ℕ where
  execute _ _ n := some (n + 1, some (.u32 (UInt32.ofNat n)))
  others _ _ := False

namespace Counter

/-- The invocation. -/
def invocation : Invocation where
  contractAddress := "C"
  functionName := "f"
  args := []

/-- The transaction that is simulated and sent, from a given number on. -/
def transaction (sequence : ℤ) : Transaction :=
  unprepared NetworkConfig.testnet.networkPassphrase sampleInvocation minBaseFee ⟨"G", sequence⟩

/-- The simulation of the transaction where the counter stands at `n`. -/
def simulation (n : ℕ) : SimulateTransactionResponse :=
  ⟨none, [⟨.contractCode zeroHash⟩], some (.u32 (UInt32.ofNat n))⟩

/-- The network with the counter at zero, and nothing on its way. -/
def start : Network ℕ where
  state := 0
  submitted := ∅
  succeeded := ∅

/-- The network once the transaction is sent. -/
def invoking : Network ℕ :=
  { start with submitted := insert (transaction 7).contents ∅ }

/-- The network once it has succeeded. -/
def invoked : Network ℕ :=
  { invoking with
    state := 1
    succeeded := insert ((transaction 7).contents, some (.u32 0)) ∅ }

/-- The exchanges before the transaction is sent. -/
def unsent : List Exchange :=
  [⟨.getAccount "G", .ok ⟨"G", 7⟩⟩, ⟨.simulateTransaction (transaction 7), .ok (simulation 0)⟩,
    ⟨.getFeeStats, .error (.other "")⟩, ⟨.getAccount "G", .ok ⟨"G", 7⟩⟩,
    ⟨.prepareTransaction (transaction 7), .ok (transaction 7)⟩,
    ⟨.sign .sample (transaction 7) NetworkConfig.testnet.networkPassphrase, .ok (transaction 7)⟩]

/-- The exchanges of the invocation, of one thread of two. -/
def schedule : Schedule Bool Call Reply (Network ℕ) :=
  unsent.map (true, start, ·) ++
  [(true, start, ⟨.sendTransaction (transaction 7), .ok ⟨.pending, ""⟩⟩),
    (true, invoking, ⟨.now, 0⟩),
    (true, invoked, ⟨.getTransaction ((transaction 7).hexHash .sample),
      .ok ⟨.success, some (some (.u32 0))⟩⟩)]

/-- The exchanges of the reading. -/
def simulated : List Exchange :=
  [⟨.getAccount "G", .ok ⟨"G", 8⟩⟩, ⟨.simulateTransaction (transaction 8), .ok (simulation 1)⟩]

/-- The reading, by the other thread. -/
def reading : Schedule Bool Call Reply (Network ℕ) :=
  simulated.map (false, invoked, ·)

/-- The world of the runs below. -/
abbrev world : World Call Reply (Network ℕ) :=
  networkWorld .sample ContractMachine.counter.protocol

theorem reports_simulation (n : ℕ) (sequence : ℤ) : ContractMachine.counter.Reports n
    ⟨.simulateTransaction (transaction sequence), .ok (simulation n)⟩ :=
  fun _ _ ↦ ⟨rfl, rfl, fun h ↦ absurd h (List.cons_ne_nil _ _)⟩

theorem path_schedule : world.Path start (schedule.map Prod.snd) invoked := by
  have hinvoke : world.drift invoking invoked :=
    .single (.succeed _ _ _ _ (Set.mem_insert _ _) ⟨sampleInvocation, rfl, rfl⟩)
  have hunsent : world.Path start (unsent.map (start, ·)) start := by
    refine World.path_of_stationary .refl ?_
    simp only [unsent, List.forall_mem_cons]
    refine ⟨⟨⟨⟨rfl, ?_⟩, trivial⟩, rfl⟩, ⟨⟨trivial, reports_simulation 0 7⟩, rfl⟩,
      ⟨⟨trivial, trivial⟩, rfl⟩, ⟨⟨⟨rfl, ?_⟩, trivial⟩, rfl⟩, ⟨⟨⟨rfl, rfl, rfl⟩, trivial⟩, rfl⟩,
      ⟨⟨rfl, trivial⟩, rfl⟩, by simp⟩
    · simp [start]
    · simp [start]
  refine hunsent.append (.cons .refl ⟨⟨trivial, trivial⟩, rfl⟩ (.cons .refl
    ⟨⟨trivial, trivial⟩, rfl⟩ (.cons hinvoke ⟨⟨?_, trivial⟩, rfl⟩ (.nil _))))
  rintro _ c hc -
  obtain rfl | hc := hc
  · exact ⟨_, Set.mem_insert _ _, by simp⟩
  · exact hc.elim

theorem path_reading : world.Path invoked (reading.map Prod.snd) invoked := by
  have hsequence : (transaction 7).contents.sequence ≤ 8 := by decide
  refine World.path_of_stationary (t := simulated) .refl ?_
  simp only [simulated, List.forall_mem_cons]
  refine ⟨⟨⟨⟨rfl, ?_⟩, trivial⟩, rfl⟩, ⟨⟨trivial, reports_simulation 1 8⟩, rfl⟩, by simp⟩
  rintro c v hc -
  obtain ⟨rfl, -⟩ | hc := hc
  · exact hsequence
  · exact hc.elim

theorem runs_schedule : Runs ((InvokeCall.invokeContract NetworkConfig.testnet.networkPassphrase
    .sample .default).call .sample invocation).run (schedule.traceOf true)
    (.returned (.ok (.executed ((transaction 7).hexHash .sample)))) :=
  runs_invokeContract.mpr (.submitted sampleInvocation rfl ⟨"G", 7⟩ (simulation 0) rfl
    (List.cons_ne_nil _ _) (.error (.other "")) (.leg ⟨"G", 7⟩ (transaction 7)
      (.polling (transaction 7) ⟨.pending, ""⟩ (runs_poll_success (by decide) rfl))))

theorem runs_reading : Runs ((ReadCall.readContract NetworkConfig.testnet.networkPassphrase
    "G").call .sample invocation).run (reading.traceOf false) (.returned (.ok (.u32 1))) :=
  runs_readContract.mpr (.simulated sampleInvocation rfl ⟨"G", 8⟩ (simulation 1))

/-- The counter is moved by one invocation, and the other thread reads that. -/
theorem counter_reads_back : ∃ x y v z z',
    ContractMachine.counter.protocol.Reaches start.state x ∧
    ContractMachine.counter.Executes .sample invocation (schedule.traceOf true) x y v ∧
    Moved ContractMachine.counter.protocol
      (.executed ((transaction 7).hexHash .sample)) x y ∧
    ContractMachine.counter.protocol.Reaches y invoked.state ∧
    ContractMachine.counter.protocol.Reaches invoked.state z ∧
    ContractMachine.counter.Executes .sample invocation (reading.traceOf false) z z'
      (some (.u32 1)) ∧
    ContractMachine.counter.protocol.Reaches z invoked.state :=
  write_reads_back .sample .counter _ _ invocation invocation _ (.u32 1) Bool true false start
    invoked invoked schedule reading path_schedule runs_schedule path_reading runs_reading

end Counter

end StellarRustClient
