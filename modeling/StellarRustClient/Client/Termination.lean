import StellarRustClient.Client.WriteOp
import StellarRustClient.Deploy.Runs
import StellarRustClient.Interaction.Budget
import StellarRustClient.Submission.Paths
import StellarRustClient.Submission.Timely

/-!
# Every write method ends

The only loop of the crate is the poll, and the clock bounds it. Around a poll each method makes a
fixed number of calls, so that its budget is a number that can be computed from the poll
configuration: no behaviour of the node, of the signers or of their errors makes a method go on for
longer. Where every call is answered a method therefore ends, and it ends with a result unless the
deadline of a poll is beyond the range of the clock.
-/

namespace StellarRustClient

open Interaction

variable {sdk : Sdk} {signer : Signer} {networkPassphrase hash : String} {cfg : PollConfig}
  {s s' deadline : Instant} {l : Timed} {t : List Exchange}

/-! ## The clock -/

/-- An exchange that starts at `s` and is over at `s'`, with any reply that does not read the
clock. -/
def clockStep (s : Instant) (x : Exchange) (s' : Instant) : Prop :=
  match x with
  | ⟨.now, clock⟩ => clock = s ∧ s' = s
  | ⟨.sleep duration, _⟩ => s + duration.nanos ≤ s'
  | _ => s ≤ s'

/-- The environment of which nothing is known but its clock. -/
def clockWorld : World Call Reply Instant where
  drift := Eq
  step := clockStep

theorem exists_of_keeps_clock {x : Exchange} (hl : l.trace = x :: t)
    (hkeeps : clockWorld.Keeps s l) :
    ∃ s' l', l = (x, s') :: l' ∧ Stamped.trace l' = t ∧ clockStep s x s' ∧
      clockWorld.Keeps s' l' := by
  obtain ⟨s', l', rfl, ht⟩ := Stamped.trace_eq_cons_iff.mp hl
  obtain ⟨⟨_, rfl, hstep⟩, hrest⟩ := hkeeps
  exact ⟨s', l', rfl, ht, hstep, hrest⟩

/-- What a chronicle answers takes the time it takes. -/
theorem Chronicle.clockStep_of_step {c : Chronicle} {x : Exchange} (h : c.step s x s') :
    clockStep s x s' := by
  obtain ⟨call, r⟩ := x
  cases call with
  | getTransaction hash =>
    cases r with
    | error e => exact h
    | ok response => exact h.1
  | _ => exact h

theorem Chronicle.serves_clockWorld (c : Chronicle) (start : Instant) :
    clockWorld.Serves start (c.promptly start) := by
  intro l call _
  refine ⟨l.last start, rfl, Chronicle.clockStep_of_step (c := c) ?_⟩
  cases call with
  | now => exact ⟨rfl, rfl⟩
  | sleep duration => exact le_rfl
  | getTransaction hash => exact ⟨le_rfl, rfl⟩
  | _ => exact le_rfl

/-! ## The calls of a poll -/

/-- A round past its reading of the clock has an interval left. -/
private theorem pos_of_early {m interval : ℕ} (hclock : s < deadline)
    (hm : deadline ≤ s + m * interval) : 0 < m := by
  refine Nat.pos_of_ne_zero fun hzero ↦ ?_
  rw [hzero, Nat.zero_mul] at hm
  exact absurd hclock (Nat.not_lt.mpr hm)

/-- A loop that starts `m` intervals before the deadline goes round at most `m` times, and reads the
clock once more. -/
theorem LoopRun.length_le_of_keeps {r : GetTransactionResponse}
    {o : Outcome (Except SorobanUtilsError GetTransactionResponse)}
    (h : LoopRun sdk hash cfg deadline r t o) (hl : l.trace = t) (hkeeps : clockWorld.Keeps s l) :
    ∀ m : ℕ, deadline ≤ s + m * cfg.interval.nanos → t.length ≤ 3 * m + 1 := by
  induction h generalizing s l with
  | final hs => exact fun m _ ↦ Nat.zero_le _
  | waiting hs hround =>
    intro m hm
    cases hround with
    | reading => exact Nat.zero_le _
    | sleeping clock hclock => exact Nat.le_add_left _ _
    | asking clock hclock =>
      obtain ⟨_, _, _, -, ⟨rfl, rfl⟩, -⟩ := exists_of_keeps_clock hl hkeeps
      have := pos_of_early hclock hm
      simp only [List.length_cons, List.length_nil]
      omega
  | failed hs hround =>
    intro m hm
    cases hround with
    | timeout clock hclock => exact Nat.le_add_left _ _
    | failed clock hclock e =>
      obtain ⟨_, _, _, -, ⟨rfl, rfl⟩, -⟩ := exists_of_keeps_clock hl hkeeps
      have := pos_of_early hclock hm
      simp only [List.length_cons, List.length_nil]
      omega
  | next hs hround _ ih =>
    intro m hm
    cases hround with
    | next clock hclock response =>
      obtain ⟨s₁, l₁, -, hl₁, ⟨rfl, rfl⟩, hkeeps₁⟩ := exists_of_keeps_clock hl hkeeps
      obtain ⟨s₂, l₂, -, hl₂, hsleep, hkeeps₂⟩ := exists_of_keeps_clock hl₁ hkeeps₁
      obtain ⟨s₃, l₃, -, hl₃, hquery, hkeeps₃⟩ := exists_of_keeps_clock hl₂ hkeeps₂
      obtain ⟨m, rfl⟩ := Nat.exists_eq_succ_of_ne_zero (pos_of_early hclock hm).ne'
      -- The next round starts an interval later, with one `m` less.
      have hearly : deadline ≤ s₃ + m * cfg.interval.nanos := by
        calc deadline ≤ s₁ + (m + 1) * cfg.interval.nanos := hm
          _ = s₁ + cfg.interval.nanos + m * cfg.interval.nanos := by
            rw [Nat.succ_mul, Nat.add_comm (m * _), Nat.add_assoc]
          _ ≤ s₃ + m * cfg.interval.nanos :=
            Nat.add_le_add_right (Nat.le_trans hsleep hquery) _
      have hle := ih hl₃ hkeeps₃ m hearly
      simp only [List.length_append, List.length_cons, List.length_nil]
      omega

theorem PollRun.length_le_of_keeps {o : Outcome (Except SorobanUtilsError GetTransactionResponse)}
    (h : PollRun sdk hash cfg t o) (hl : l.trace = t) (hkeeps : clockWorld.Keeps s l)
    (hinterval : 0 < cfg.interval.nanos) :
    t.length ≤ 3 * (cfg.timeout.nanos ⌈/⌉ cfg.interval.nanos) + 3 := by
  cases h with
  | loop start hstart r hloop =>
    obtain ⟨_, l₁, -, hl₁, ⟨rfl, rfl⟩, hkeeps₁⟩ := exists_of_keeps_clock hl hkeeps
    obtain ⟨s₂, l₂, -, hl₂, hquery, hkeeps₂⟩ := exists_of_keeps_clock hl₁ hkeeps₁
    have htimeout : cfg.timeout.nanos ≤
        cfg.interval.nanos * (cfg.timeout.nanos ⌈/⌉ cfg.interval.nanos) :=
      (ceilDiv_le_iff_le_mul hinterval).mp le_rfl
    rw [Nat.mul_comm] at htimeout
    have hle := hloop.length_le_of_keeps hl₂ hkeeps₂ (cfg.timeout.nanos ⌈/⌉ cfg.interval.nanos)
      (Nat.add_le_add hquery htimeout)
    simp only [List.length_cons]
    omega
  | starting => exact Nat.zero_le _
  | _ =>
    simp only [List.length_cons, List.length_nil]
    omega

/-- The clock reads an instant whose distance to the end of its range is less than the timeout. -/
def IsLate (sdk : Sdk) (cfg : PollConfig) : Exchange → Prop
  | ⟨.now, clock⟩ => sdk.instantMax < clock + cfg.timeout.nanos
  | _ => False

/-- The calls of a poll: the first reading of the clock and the first query, three calls for each
interval that begins before the deadline, and the last reading of the clock. -/
def PollConfig.callBudget (cfg : PollConfig) : ℕ :=
  3 * (cfg.timeout.nanos ⌈/⌉ cfg.interval.nanos) + 3

/-- The calls of a write method. -/
def WriteOp.callBudget (cfg : PollConfig) : WriteOp → ℕ
  | .uploadWasm _ => cfg.callBudget + 7
  | .createContractInstance _ _ => cfg.callBudget + 8
  | .deployContract _ _ => 2 * cfg.callBudget + 15
  | .invokeContract _ _ _ => cfg.callBudget + 9
  | .extendTtl _ _ _ _ _ => 2 * cfg.callBudget + 11
  | .extendInstanceTtl _ _ => 2 * cfg.callBudget + 11
  | .extendWasmTtl _ _ => 2 * cfg.callBudget + 11

/-- `p` stays within `n` calls, whatever the replies are. -/
abbrev Costs {α : Type} (sdk : Sdk) (cfg : PollConfig) (n : ℕ) (p : Async α) : Prop :=
  Within clockWorld (IsLate sdk cfg) n p

section

variable (hinterval : 0 < cfg.interval.nanos)
include hinterval

/-! ## One submission -/

theorem costs_pollTransactionStatus (hash : String) :
    Costs sdk cfg cfg.callBudget (pollTransactionStatus sdk hash cfg) where
  productive := productive_pollTransactionStatus
  length_le s l o hkeeps hrun := by
    have hlength := (runs_pollTransactionStatus.mp hrun).length_le_of_keeps rfl hkeeps hinterval
    rwa [Stamped.trace, List.length_map] at hlength
  blamed t hrun := by
    generalize ho : (Outcome.panicked : Outcome (Except SorobanUtilsError _)) = o at hrun
    cases runs_pollTransactionStatus.mp hrun with
    | overflow start hstart => exact ⟨⟨.now, start⟩, List.mem_singleton_self _, hstart⟩
    | loop start hstart r hloop =>
      exact absurd (Outcome.map_eq_panicked.mp ho.symm) hloop.ne_panicked
    | _ => cases ho

theorem costs_signSendPoll (prepared : Transaction) :
    Costs sdk cfg (cfg.callBudget + 2)
      (signSendPoll sdk networkPassphrase signer prepared cfg) := by
  rw [signSendPoll]
  refine ((Within.ask _ _).bind fun signed ↦ (Within.ask _ _).bind fun _ ↦
    (costs_pollTransactionStatus hinterval _).bind fun _ ↦ .pure _).mono ?_
  omega

theorem costs_submit (prepared : Transaction) :
    Costs sdk cfg (cfg.callBudget + 2) (submit sdk signer networkPassphrase prepared cfg) := by
  rw [submit_eq]
  exact (costs_signSendPoll hinterval prepared).map

theorem costs_prepareAndSend (callerAddress : String) (op : Operation) (fee : UInt32) :
    Costs sdk cfg (cfg.callBudget + 4)
      (prepareAndSend sdk networkPassphrase callerAddress op fee signer cfg) := by
  rw [prepareAndSend_eq]
  refine ((Within.ask _ _).bind fun account ↦ (Within.ask _ _).bind fun prepared ↦
    costs_signSendPoll hinterval prepared).mono ?_
  omega

/-! ## The free functions -/

theorem costs_submitAndDecode {β : Type} (op : Operation)
    (decode : ScVal → Except SorobanUtilsError β) :
    Costs sdk cfg (cfg.callBudget + 5)
      (submitAndDecode sdk networkPassphrase signer op cfg decode) := by
  rw [submitAndDecode, inclusionFee_eq]
  refine ((Within.ask _ _).bind fun fee ↦ (costs_prepareAndSend hinterval _ op fee).bind fun x ↦
    (Within.lift _).bind fun v ↦ .lift _).mono ?_
  omega

theorem costs_uploadWasm (wasm : ByteArray) :
    Costs sdk cfg (cfg.callBudget + 5) (uploadWasm sdk networkPassphrase signer wasm cfg) := by
  rw [uploadWasm_eq]
  refine ((Within.lift _).bind fun op ↦ costs_submitAndDecode hinterval op _).mono ?_
  omega

theorem costs_createContractInstance (wasmHash : Hash) (args : List ScVal) :
    Costs sdk cfg (cfg.callBudget + 6)
      (createContractInstance sdk networkPassphrase signer wasmHash args cfg) := by
  rw [createContractInstance_eq]
  refine ((Within.ask _ _).bind fun salt ↦ (Within.lift _).bind fun op ↦
    costs_submitAndDecode hinterval op _).mono ?_
  omega

theorem costs_invokeContract (contractAddress functionName : String) (args : List ScVal) :
    Costs sdk cfg (cfg.callBudget + 7)
      (invokeContract sdk networkPassphrase signer contractAddress functionName args cfg) := by
  have hsimulate (op : Operation) : Costs sdk cfg 2
      (buildAndSimulate sdk networkPassphrase signer.publicKey op minBaseFee) := by
    rw [buildAndSimulate]
    exact (Within.ask _ _).bind fun account ↦ .ask _ _
  rw [invokeContract]
  refine ((Within.lift _).bind fun op ↦ (hsimulate op).bind fun simulation ↦ ?_).mono
    (m := cfg.callBudget + 7) (n := 0 + (2 + (cfg.callBudget + 5))) (by omega)
  split
  · exact (Within.throw _).mono (Nat.zero_le _)
  · split
    · exact (Within.pure _).mono (Nat.zero_le _)
    · rw [inclusionFee_eq]
      refine ((Within.ask _ _).bind fun fee ↦
        (costs_prepareAndSend hinterval _ op fee).bind fun x ↦ .pure _).mono ?_
      omega

omit hinterval in
theorem costs_buildExtend (extendTo : UInt32) (data : SorobanTransactionData) :
    Costs sdk cfg 1 (buildExtend sdk networkPassphrase signer extendTo data) := by
  rw [buildExtend]
  exact (Within.ask _ _).bind fun account ↦ (Within.lift _).bind fun op ↦ .pure _

theorem costs_restoreEntry (fee : Int64) (data : SorobanTransactionData) :
    Costs sdk cfg (cfg.callBudget + 3)
      (restoreEntry sdk networkPassphrase signer fee data cfg) := by
  rw [restoreEntry]
  refine ((Within.lift _).bind fun op ↦ (Within.ask _ _).bind fun account ↦
    (costs_submit hinterval _).bind fun _ ↦ .pure _).mono ?_
  omega

/-- Two submissions where the entry is restored, and one where it is not. -/
theorem costs_extendLedgerKeyTtl (ledgerKey : LedgerKey) (extendTo : UInt32) :
    Costs sdk cfg (2 * cfg.callBudget + 9)
      (extendLedgerKeyTtl sdk networkPassphrase signer ledgerKey extendTo cfg) := by
  rw [extendLedgerKeyTtl]
  refine ((Within.lift _).bind fun data ↦ (costs_buildExtend extendTo data).bind fun tx ↦
    (Within.ask _ _).bind fun r ↦ ?_).mono
      (n := 0 + (1 + (1 + (2 * cfg.callBudget + 7)))) (by omega)
  cases r with
  | ok prepared => exact (costs_submit hinterval prepared).mono (by omega)
  | error e =>
    cases e with
    | restorationRequired fee restoreData =>
      refine ((costs_restoreEntry hinterval fee restoreData).bind fun _ ↦
        (costs_buildExtend extendTo data).bind fun tx ↦ (Within.ask _ _).bind fun prepared ↦
          costs_submit hinterval prepared).mono ?_
      omega
    | _ => exact (Within.throw _).mono (Nat.zero_le _)

/-! ## The methods of the client -/

omit hinterval in
theorem costs_withSigner {α : Type} {n : ℕ} {body : Signer → Async α}
    (hbody : ∀ signer, Costs sdk cfg n (body signer)) :
    Costs sdk cfg (n + 2) (withSigner body) := by
  rw [withSigner]
  refine ((Within.ask _ _).bind fun signer ↦ (hbody signer).ensuring).mono ?_
  omega

theorem costs_perform (client : Client) (hcfg : client.pollCfg = cfg) (op : WriteOp) :
    Costs sdk cfg (op.callBudget cfg) (client.perform sdk op) := by
  subst hcfg
  have hupload (wasm : ByteArray) :
      Costs sdk client.pollCfg (client.pollCfg.callBudget + 7) (client.uploadWasm sdk wasm) :=
    costs_withSigner fun signer ↦ costs_uploadWasm hinterval wasm
  have hcreate (wasmHash : Hash) (args : List ScVal) :
      Costs sdk client.pollCfg (client.pollCfg.callBudget + 8)
        (client.createContractInstance sdk wasmHash args) :=
    costs_withSigner fun signer ↦ costs_createContractInstance hinterval wasmHash args
  cases op with
  | uploadWasm wasm => exact (hupload wasm).map
  | createContractInstance wasmHash args => exact (hcreate wasmHash args).map
  | deployContract wasm args =>
    refine ((hupload wasm).bind fun wasmHash ↦ (hcreate wasmHash args).bind fun address ↦
      .pure _).map.mono ?_
    rw [WriteOp.callBudget]
    omega
  | invokeContract contractAddress functionName args =>
    exact (costs_withSigner fun signer ↦
      costs_invokeContract hinterval contractAddress functionName args).map
  | extendTtl contractAddress mappingName details durability extendTo =>
    refine (costs_withSigner fun signer ↦ ((Within.lift _).bind fun storageKey ↦
      (Within.lift _).bind fun contract ↦
        costs_extendLedgerKeyTtl hinterval _ extendTo).mono ?_).map
    omega
  | extendInstanceTtl contractAddress extendTo =>
    refine (costs_withSigner fun signer ↦ ((Within.lift _).bind fun contract ↦
      costs_extendLedgerKeyTtl hinterval _ extendTo).mono ?_).map
    omega
  | extendWasmTtl wasmHash extendTo =>
    exact (costs_withSigner fun signer ↦ costs_extendLedgerKeyTtl hinterval _ extendTo).map

end

/-! ## Termination -/

/-- An end of a method: a result, or a panic over a deadline that is no instant. -/
def Ends (sdk : Sdk) (client : Client) (op : WriteOp) (t : List Exchange) : Prop :=
  (∃ x, Runs (client.perform sdk op).run t (.returned x)) ∨
    Runs (client.perform sdk op).run t .panicked ∧
      ∃ clock, ⟨.now, clock⟩ ∈ t ∧ sdk.instantMax < clock + client.pollCfg.timeout.nanos

/-- **Termination.** No run of a write method goes beyond its budget, whatever it is answered, and
wherever every call is answered the method ends. -/
theorem write_method_ends (sdk : Sdk) (client : Client) (op : WriteOp) (start : Instant)
    (hinterval : 0 < client.pollCfg.interval.nanos) :
    (∀ l o, clockWorld.Keeps start l → Runs (client.perform sdk op).run l.trace o →
      l.length ≤ op.callBudget client.pollCfg) ∧
    ∀ answer, clockWorld.Serves start answer →
      ∃ l, Answered answer l ∧ Ends sdk client op l.trace := by
  have hcosts : Costs sdk client.pollCfg (op.callBudget client.pollCfg) (client.perform sdk op) :=
    costs_perform hinterval client rfl op
  refine ⟨hcosts.length_le start, fun answer hserves ↦ ?_⟩
  obtain ⟨l, o, hl, hrun, ho⟩ := hcosts.exists_ended hserves
  refine ⟨l, hl, ?_⟩
  cases o with
  | running => exact absurd rfl ho
  | returned x => exact .inl ⟨x, hrun⟩
  | panicked =>
    obtain ⟨⟨call, reply⟩, hmem, hlate⟩ := hcosts.blamed _ hrun
    cases call with
    | now => exact .inr ⟨hrun, reply, hmem, hlate⟩
    | _ => exact hlate.elim

/-- An upload ends where every call is answered at once. -/
theorem upload_ends : ∃ l, Answered (Chronicle.sample.promptly 0) l ∧
    Ends .sample .sample (.uploadWasm ⟨#[]⟩) l.trace :=
  (write_method_ends .sample .sample (.uploadWasm ⟨#[]⟩) 0 (by decide)).2 _
    (Chronicle.sample.serves_clockWorld 0)

end StellarRustClient
