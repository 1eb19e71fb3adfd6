import StellarRustClient.Client.Scope
import StellarRustClient.Client.WriteOp
import StellarRustClient.Deploy.Runs
import StellarRustClient.Interaction.World
import StellarRustClient.Submission.Paths
import StellarRustClient.Ttl.Runs

/-!
# What an error stands for

An error of a write method is a variant and a text, and the caller decides by it what has happened
to its money. `Explained` lists the situations that an error comes from, each with the variant and
the text: the last exchange is the one to blame, and nothing that a method gives up on, no `fault`,
has happened before it.

Not all bad news is a fault. A method does without a fee report that fails; an extend follows the
first request for a restoration; and nobody looks at what a node replies to a send, so a transaction
that the node has refused is polled for like any other, and may end in `Timeout`.

The walk is in the recording world, where the postcondition of an error is about the whole run.
-/

namespace StellarRustClient

open Interaction

/-! ## Causes -/

/-- The error that a reply is turned into, where a method gives up on it. There is none for a failed
fee report, for a request for a restoration, and for any status that a send is answered with. -/
def fault (sdk : Sdk) : Exchange → Option SorobanUtilsError
  | ⟨.buildSigner, .error e⟩ => some e
  | ⟨.getAccount _, .error e⟩ => some (rpcError sdk e)
  | ⟨.simulateTransaction _, .error e⟩ => some (simulationError sdk e)
  | ⟨.prepareTransaction _, .error (.restorationRequired _ _)⟩ => none
  | ⟨.prepareTransaction _, .error e⟩ => some (simulationError sdk e)
  | ⟨.sign _ _ _, .error e⟩ => some e
  | ⟨.sendTransaction _, .error e⟩ => some (rpcError sdk e)
  | ⟨.getTransaction _, .error e⟩ => some (rpcError sdk e)
  | ⟨.getTransaction hash, .ok response⟩ =>
    if response.status = .failed then
      some (.transactionFailed hash TransactionStatus.failed.debug)
    else none
  | _ => none

/-- There is no fault among the replies. -/
def NoFault (sdk : Sdk) (t : List Exchange) : Prop :=
  ∀ x ∈ t, fault sdk x = none

/-- The errors of building an operation from the arguments of a method. -/
def WriteOp.Unbuildable (sdk : Sdk) : WriteOp → SorobanUtilsError → Prop
  | .uploadWasm wasm, e => ∃ msg, sdk.uploadWasm wasm = .error msg ∧ e = .xdr msg
  | .createContractInstance wasmHash args, e => ∃ publicKey salt msg,
    sdk.createContract publicKey wasmHash salt args = .error msg ∧ e = .xdr msg
  | .deployContract wasm args, e => (∃ msg, sdk.uploadWasm wasm = .error msg ∧ e = .xdr msg) ∨
    ∃ publicKey wasmHash salt msg,
      sdk.createContract publicKey wasmHash salt args = .error msg ∧ e = .xdr msg
  | .invokeContract contractAddress functionName args, e => ∃ msg,
    sdk.invokeContract contractAddress functionName args = .error msg ∧ e = .xdr msg
  | .extendTtl contractAddress mappingName details _ extendTo, e =>
    mappingEntryKey mappingName details = .error e ∨
      contractScAddress sdk contractAddress = .error e ∨
      (∃ msg, sdk.extendFootprintTtl extendTo = .error msg ∧ e = .xdr msg) ∨
      ∃ msg, sdk.restoreFootprint = .error msg ∧ e = .xdr msg
  | .extendInstanceTtl contractAddress extendTo, e =>
    contractScAddress sdk contractAddress = .error e ∨
      (∃ msg, sdk.extendFootprintTtl extendTo = .error msg ∧ e = .xdr msg) ∨
      ∃ msg, sdk.restoreFootprint = .error msg ∧ e = .xdr msg
  | .extendWasmTtl _ extendTo, e =>
    (∃ msg, sdk.extendFootprintTtl extendTo = .error msg ∧ e = .xdr msg) ∨
      ∃ msg, sdk.restoreFootprint = .error msg ∧ e = .xdr msg

/-- The errors that a method makes of a response to a transaction that succeeded. -/
def WriteOp.Undecodable (sdk : Sdk) (response : GetTransactionResponse) :
    WriteOp → SorobanUtilsError → Prop
  | .uploadWasm _, e => response.returnValue >>= wasmHashOfReturnValue sdk = .error e
  | .createContractInstance _ _, e => response.returnValue >>= addressOfReturnValue sdk = .error e
  | .deployContract _ _, e => response.returnValue >>= wasmHashOfReturnValue sdk = .error e ∨
    response.returnValue >>= addressOfReturnValue sdk = .error e
  | _, _ => False

/-- The methods that follow a request for restoration, once. -/
def WriteOp.Restores : WriteOp → Prop
  | .extendTtl _ _ _ _ _ => True
  | .extendInstanceTtl _ _ => True
  | .extendWasmTtl _ _ => True
  | _ => False

/-- A restoration has been asked for. -/
def RestoreAsked (t : List Exchange) : Prop :=
  ∃ tx fee data, ⟨.prepareTransaction tx, .error (.restorationRequired fee data)⟩ ∈ t

/-- The transaction that was sent last has the hash `hash`, and the clock was read as `start` right
after it. -/
def PollingFor (sdk : Sdk) (hash : String) (start : Instant) (t : List Exchange) : Prop :=
  ∃ v tx r w, t = v ++ ⟨.sendTransaction tx, .ok r⟩ :: ⟨.now, start⟩ :: w ∧
    tx.hexHash sdk = hash ∧ ∀ x ∈ w, sentTransaction x = none

/-- The runs of a method up to the point where it comes to an error. -/
inductive Explained (sdk : Sdk) (cfg : PollConfig) (op : WriteOp) :
    List Exchange → SorobanUtilsError → Prop
  /-- The last reply is one to give up on. -/
  | fault {u : List Exchange} {x : Exchange} {e : SorobanUtilsError}
      (hfault : fault sdk x = some e) : Explained sdk cfg op (u ++ [x]) e
  /-- A restoration is asked for, of a method that makes none or for a second time. -/
  | unrestored {u : List Exchange} (tx : Transaction) (fee : Int64)
      (data : SorobanTransactionData) (hagain : op.Restores → RestoreAsked u) :
      Explained sdk cfg op
        (u ++ [⟨.prepareTransaction tx, .error (.restorationRequired fee data)⟩])
        (simulationError sdk (.restorationRequired fee data))
  /-- The simulation of an invocation reports an error. -/
  | refused {u : List Exchange} (tx : Transaction) {response : SimulateTransactionResponse}
      {err contractAddress functionName : String} {args : List ScVal}
      (hop : op = .invokeContract contractAddress functionName args)
      (herr : response.error = some err) : Explained sdk cfg op
        (u ++ [⟨.simulateTransaction tx, .ok response⟩])
        (.simulation
          s!"invoke_contract({functionName}) on {contractAddress}: {sdk.debugString err}")
  /-- The clock reads an instant at or after the deadline of the poll for the transaction that was
  sent last. -/
  | timeout {u : List Exchange} {hash : String} {start clock : Instant}
      {response : GetTransactionResponse} (hstart : PollingFor sdk hash start u)
      (hstatus : response.status = .notFound) (hlate : start + cfg.timeout.nanos ≤ clock) :
      Explained sdk cfg op (u ++ [⟨.getTransaction hash, .ok response⟩, ⟨.now, clock⟩])
        (.timeout hash)
  /-- The transaction succeeded, and its return value is not what the method is after. -/
  | undecoded {u : List Exchange} {hash : String} {response : GetTransactionResponse}
      {e : SorobanUtilsError} (hstatus : response.status = .success)
      (he : op.Undecodable sdk response e) :
      Explained sdk cfg op (u ++ [⟨.getTransaction hash, .ok response⟩]) e
  /-- An operation of the method cannot be built. -/
  | unbuilt {u : List Exchange} {e : SorobanUtilsError} (hnone : NoFault sdk u)
      (he : op.Unbuildable sdk e) : Explained sdk cfg op u e

variable {sdk : Sdk} {cfg : PollConfig} {op : WriteOp} {signer : Signer}
  {networkPassphrase : String}

/-! ## Whose error it is -/

/-- The errors of what a method computes between its calls. -/
def SorobanUtilsError.IsLocal : SorobanUtilsError → Prop
  | .missingReturnValue => True
  | .xdr _ => True
  | .invalidAddress _ => True
  | _ => False

/-- The errors that the replies of a node are turned into. -/
def SorobanUtilsError.IsRemote : SorobanUtilsError → Prop
  | .rpc _ => True
  | .simulation _ => True
  | .transactionFailed _ _ => True
  | _ => False

/-- A computation that fails with local errors only. -/
def FailsLocally {α : Type} (x : Except SorobanUtilsError α) : Prop :=
  ∀ e, x = .error e → e.IsLocal

namespace FailsLocally

variable {α β : Type}

theorem mapError {ε : Type} {x : Except ε α} {g : ε → SorobanUtilsError}
    (hg : ∀ e, (g e).IsLocal) : FailsLocally (x.mapError g) := by
  rintro e h
  cases x with
  | error e' =>
    cases h
    exact hg e'
  | ok a => cases h

theorem bind {x : Except SorobanUtilsError α} {f : α → Except SorobanUtilsError β}
    (hx : FailsLocally x) (hf : ∀ a, FailsLocally (f a)) : FailsLocally (x >>= f) := by
  rintro e h
  cases x with
  | error e' => exact hx e (congrArg Except.error (Except.error.inj h))
  | ok a => exact hf a e h

theorem pure (a : α) : FailsLocally (Except.ok a : Except SorobanUtilsError α) := by
  rintro e ⟨⟩

end FailsLocally

theorem failsLocally_mappingEntryKey (mappingName : String) (details : List ScVal) :
    FailsLocally (mappingEntryKey mappingName details) :=
  .bind (.bind (.mapError fun _ ↦ trivial) fun _ ↦ .pure _) fun _ ↦
    .bind (.mapError fun _ ↦ trivial) fun _ ↦ .pure _

theorem failsLocally_contractScAddress (contractAddress : String) :
    FailsLocally (contractScAddress sdk contractAddress) :=
  .bind (.mapError fun _ ↦ trivial) fun _ ↦ .mapError fun _ ↦ trivial

theorem failsLocally_returnValue (response : GetTransactionResponse) :
    FailsLocally response.returnValue := by
  rintro e h
  rw [GetTransactionResponse.returnValue] at h
  split at h <;> cases h <;> trivial

theorem failsLocally_wasmHashOfReturnValue (v : ScVal) :
    FailsLocally (wasmHashOfReturnValue sdk v) := by
  rintro e h
  rw [wasmHashOfReturnValue.eq_def] at h
  split at h
  · split at h <;> cases h
    trivial
  · cases h
    trivial

theorem failsLocally_addressOfReturnValue (v : ScVal) :
    FailsLocally (addressOfReturnValue sdk v) := by
  rintro e h
  rw [addressOfReturnValue.eq_def] at h
  split at h <;> cases h
  trivial

theorem WriteOp.Unbuildable.isLocal {e : SorobanUtilsError} (h : op.Unbuildable sdk e) :
    e.IsLocal := by
  cases op with
  | uploadWasm wasm =>
    obtain ⟨_, -, rfl⟩ := h
    trivial
  | createContractInstance wasmHash args =>
    obtain ⟨_, _, _, -, rfl⟩ := h
    trivial
  | deployContract wasm args =>
    obtain ⟨_, -, rfl⟩ | ⟨_, _, _, _, -, rfl⟩ := h <;> trivial
  | invokeContract contractAddress functionName args =>
    obtain ⟨_, -, rfl⟩ := h
    trivial
  | extendTtl contractAddress mappingName details durability extendTo =>
    obtain he | he | ⟨_, -, rfl⟩ | ⟨_, -, rfl⟩ := h
    · exact failsLocally_mappingEntryKey mappingName details e he
    · exact failsLocally_contractScAddress contractAddress e he
    · trivial
    · trivial
  | extendInstanceTtl contractAddress extendTo =>
    obtain he | ⟨_, -, rfl⟩ | ⟨_, -, rfl⟩ := h
    · exact failsLocally_contractScAddress contractAddress e he
    · trivial
    · trivial
  | extendWasmTtl wasmHash extendTo =>
    obtain ⟨_, -, rfl⟩ | ⟨_, -, rfl⟩ := h <;> trivial

theorem WriteOp.Undecodable.isLocal {response : GetTransactionResponse} {e : SorobanUtilsError}
    (h : op.Undecodable sdk response e) : e.IsLocal := by
  have hupload : FailsLocally (response.returnValue >>= wasmHashOfReturnValue sdk) :=
    .bind (failsLocally_returnValue response) failsLocally_wasmHashOfReturnValue
  have hcreate : FailsLocally (response.returnValue >>= addressOfReturnValue sdk) :=
    .bind (failsLocally_returnValue response) failsLocally_addressOfReturnValue
  cases op with
  | uploadWasm wasm => exact hupload e h
  | createContractInstance wasmHash args => exact hcreate e h
  | deployContract wasm args =>
    obtain h | h := h
    · exact hupload e h
    · exact hcreate e h
  | _ => exact h.elim

/-- A fault is an error of the node, or what a signer has failed with. -/
theorem isRemote_or_of_fault {x : Exchange} {e : SorobanUtilsError} (h : fault sdk x = some e) :
    e.IsRemote ∨ x = ⟨.buildSigner, .error e⟩ ∨
      ∃ signer tx networkPassphrase, x = ⟨.sign signer tx networkPassphrase, .error e⟩ := by
  unfold fault at h
  split at h
  case h_1 =>
    obtain rfl := Option.some.inj h
    exact .inr (.inl rfl)
  case h_6 =>
    obtain rfl := Option.some.inj h
    exact .inr (.inr ⟨_, _, _, rfl⟩)
  case h_9 =>
    split at h <;> cases h
    exact .inl trivial
  all_goals cases h <;> exact .inl trivial

/-! ## Blame -/

/-- An error that is explained by what came last, and by nothing before it. -/
def Blamed (sdk : Sdk) (cfg : PollConfig) (op : WriteOp) (e : SorobanUtilsError)
    (u : List Exchange) : Prop :=
  Explained sdk cfg op u e ∧ NoFault sdk u.dropLast

theorem NoFault.append {u : List Exchange} {x : Exchange} (h : NoFault sdk u)
    (hx : fault sdk x = none) : NoFault sdk (u ++ [x]) :=
  List.forall_mem_append.mpr ⟨h, List.forall_mem_singleton.mpr hx⟩

theorem PollingFor.append {hash : String} {start : Instant} {u : List Exchange} {x : Exchange}
    (h : PollingFor sdk hash start u) (hx : sentTransaction x = none) :
    PollingFor sdk hash start (u ++ [x]) := by
  obtain ⟨v, tx, r, w, rfl, hhash, hw⟩ := h
  refine ⟨v, tx, r, w ++ [x], by simp, hhash, ?_⟩
  exact List.forall_mem_append.mpr ⟨hw, List.forall_mem_singleton.mpr hx⟩

theorem NoFault.dropLast {u : List Exchange} (h : NoFault sdk u) : NoFault sdk u.dropLast :=
  fun x hx ↦ h x (List.dropLast_subset u hx)

theorem NoFault.blamed {u : List Exchange} {x : Exchange} {e : SorobanUtilsError}
    (h : NoFault sdk u) (he : Explained sdk cfg op (u ++ [x]) e) :
    Blamed sdk cfg op e (u ++ [x]) :=
  ⟨he, by rwa [List.dropLast_concat]⟩

/-- Every run of `p`, in an attempt to get from `P` to `Q`, is without a fault up to where it
ends. -/
abbrev Explains {α : Type} (sdk : Sdk) (cfg : PollConfig) (op : WriteOp)
    (P : List Exchange → Prop) (p : Async α) (Q : α → List Exchange → Prop) : Prop :=
  Triple World.record (fun _ _ ↦ True) P p Q (Blamed sdk cfg op)

/-- The last exchange has sent the transaction. -/
def JustSent (sdk : Sdk) (tx : Transaction) (u : List Exchange) : Prop :=
  ∃ v r, u = v ++ [⟨.sendTransaction tx, .ok r⟩] ∧ NoFault sdk v

/-! ## Single calls -/

/-- A call that fails with a fault only. -/
theorem explains_ask {α : Type} {c : Call} {f : Reply c → Except SorobanUtilsError α}
    (hok : ∀ r a, f r = .ok a → fault sdk ⟨c, r⟩ = none)
    (herror : ∀ r e, f r = .error e → fault sdk ⟨c, r⟩ = some e) :
    Explains sdk cfg op (NoFault sdk) (Prog.ask c f) fun _ ↦ NoFault sdk :=
  .ask_record (fun _ _ _ ↦ trivial) (fun _ r a h hr ↦ h.append (hok r a hr))
    fun _ r e h hr ↦ h.blamed (.fault (herror r e hr))

theorem explains_getAccount (address : String) :
    Explains sdk cfg op (NoFault sdk) (getAccount sdk address) fun _ ↦ NoFault sdk := by
  refine explains_ask ?_ ?_ <;> rintro (e | account) a hr <;> cases hr <;> rfl

theorem explains_sign (tx : Transaction) :
    Explains sdk cfg op (NoFault sdk) (signer.sign tx networkPassphrase) fun _ ↦ NoFault sdk := by
  refine explains_ask ?_ ?_ <;> rintro (e | signed) a hr <;> cases hr <;> rfl

theorem explains_sendTransaction (tx : Transaction) :
    Explains sdk cfg op (NoFault sdk) (sendTransaction sdk tx) fun _ ↦ JustSent sdk tx := by
  refine .ask_record (fun _ _ _ ↦ trivial) ?_ ?_
  · rintro u (e | response) a h hr <;> cases hr
    exact ⟨u, response, rfl, h⟩
  · rintro u (e | response) a h hr <;> cases hr
    exact h.blamed (.fault rfl)

theorem explains_inclusionFee :
    Explains sdk cfg op (NoFault sdk) (inclusionFee sdk) fun _ ↦ NoFault sdk := by
  rw [inclusionFee_eq]
  refine explains_ask ?_ ?_ <;> rintro (e | stats) a hr <;> cases hr <;> rfl

theorem explains_prepare (tx : Transaction) :
    Explains sdk cfg op (fun u ↦ NoFault sdk u ∧ (op.Restores → RestoreAsked u))
      (Prog.ask (.prepareTransaction tx) (Except.mapError (simulationError sdk)))
      fun _ ↦ NoFault sdk := by
  refine .ask_record (fun _ _ _ ↦ trivial) ?_ ?_
  · rintro u r a ⟨h, -⟩ hr
    cases r with
    | error e => cases hr
    | ok prepared => exact h.append rfl
  · rintro u r e ⟨h, hagain⟩ hr
    cases r with
    | error e' =>
      cases hr
      cases e' with
      | restorationRequired fee data => exact h.blamed (.unrestored tx fee data hagain)
      | _ => exact h.blamed (.fault rfl)
    | ok prepared => cases hr

theorem explains_lift {α : Type} (x : Except SorobanUtilsError α)
    (hx : ∀ e, x = .error e → op.Unbuildable sdk e) :
    Explains sdk cfg op (NoFault sdk) (Prog.lift x) fun _ ↦ NoFault sdk :=
  .lift (fun _ _ _ h ↦ h) fun e _ he h ↦ ⟨.unbuilt h (hx e he), h.dropLast⟩

/-- The building of an operation by the SDK. -/
theorem explains_build {α : Type} (x : Except String α)
    (hx : ∀ msg, x = .error msg → op.Unbuildable sdk (.xdr msg)) :
    Explains sdk cfg op (NoFault sdk) (Prog.lift (x.mapError .xdr)) fun _ ↦ NoFault sdk := by
  refine explains_lift _ fun e he ↦ ?_
  cases x with
  | error msg =>
    cases he
    exact hx msg rfl
  | ok a => cases he

/-! ## One submission -/

/-- The last exchange is the response `response` of the poll for `hash` that began at `start`. -/
def Polled (sdk : Sdk) (hash : String) (start : Instant) (response : GetTransactionResponse)
    (u : List Exchange) : Prop :=
  ∃ v, u = v ++ [⟨.getTransaction hash, .ok response⟩] ∧ NoFault sdk v ∧
    PollingFor sdk hash start v

/-- The last exchange is a response that reports a success. -/
def Succeeded (sdk : Sdk) (response : GetTransactionResponse) (u : List Exchange) : Prop :=
  response.status = .success ∧
    ∃ hash v, u = v ++ [⟨.getTransaction hash, .ok response⟩] ∧ NoFault sdk v

theorem Succeeded.noFault {response : GetTransactionResponse} {u : List Exchange}
    (h : Succeeded sdk response u) : NoFault sdk u := by
  obtain ⟨hs, hash, v, rfl, hv⟩ := h
  refine hv.append ?_
  rw [fault, hs]
  rfl

theorem explains_pollRound {hash : String} {start : Instant} (response : GetTransactionResponse) :
    Explains sdk cfg op (Polled sdk hash start response)
      (pollRound sdk hash cfg (start + cfg.timeout.nanos) response)
      (fun y u ↦ y.elim (Polled sdk hash start · u) fun r ↦
        Polled sdk hash start r u ∧ r.status ≠ .notFound) := by
  have hquiet {u : List Exchange} (hs : response.status = .notFound)
      (h : Polled sdk hash start response u) : NoFault sdk u ∧ PollingFor sdk hash start u := by
    obtain ⟨v, rfl, hv, hstart⟩ := h
    refine ⟨hv.append ?_, hstart.append rfl⟩
    rw [fault, hs]
    rfl
  simp only [pollRound]
  split
  · rename_i hs
    -- The reading of the clock is remembered, with the response that stands before it.
    refine Triple.bind (M := fun clock u ↦ ∃ v, u = v ++ [⟨.now, clock⟩] ∧
      Polled sdk hash start response v) ?_ fun clock ↦ ?_
    · refine .ask_record (fun _ _ _ ↦ trivial) (fun u r a h hr ↦ ?_) (by rintro _ _ _ _ ⟨⟩)
      obtain rfl := Except.ok.inj hr
      exact ⟨u, rfl, h⟩
    · split
      · rename_i hlate
        refine .throw ?_
        rintro _ ⟨_, rfl, v, rfl, hv, hstart⟩
        refine ⟨?_, ?_⟩
        · rw [List.append_assoc]
          exact .timeout hstart hs hlate
        · rw [List.dropLast_concat]
          exact (hquiet hs ⟨v, rfl, hv, hstart⟩).1
      · refine Triple.bind (M := fun _ u ↦ NoFault sdk u ∧ PollingFor sdk hash start u) ?_
          fun _ ↦ ?_
        · refine .ask_record (fun _ _ _ ↦ trivial) ?_ (by rintro _ _ _ _ ⟨⟩)
          rintro _ r a ⟨v, rfl, h⟩ -
          obtain ⟨hv, hstart⟩ := hquiet hs h
          exact ⟨(hv.append rfl).append rfl, (hstart.append rfl).append rfl⟩
        · refine Triple.bind (M := Polled sdk hash start) ?_ fun r ↦ .pure fun u h ↦ h
          refine .ask_record (fun _ _ _ ↦ trivial) ?_ ?_
          · rintro u (e | r) a ⟨hu, hstart⟩ hr <;> cases hr
            exact ⟨u, rfl, hu, hstart⟩
          · rintro u (e | r) a ⟨hu, -⟩ hr <;> cases hr
            exact hu.blamed (.fault rfl)
  · exact .pure fun u h ↦ ⟨h, ‹_›⟩

theorem explains_pollTransactionStatus (tx : Transaction) :
    Explains sdk cfg op (JustSent sdk tx) (pollTransactionStatus sdk (tx.hexHash sdk) cfg)
      (Succeeded sdk) := by
  rw [pollTransactionStatus]
  refine Triple.bind
    (M := fun start u ↦ NoFault sdk u ∧ PollingFor sdk (tx.hexHash sdk) start u) ?_ fun start ↦ ?_
  · refine .ask_record (fun _ _ _ ↦ trivial) ?_ (by rintro _ _ _ _ ⟨⟩)
    rintro _ start a ⟨v, r, rfl, hv⟩ hr
    obtain rfl := Except.ok.inj hr
    exact ⟨(hv.append rfl).append rfl, v, tx, r, [], by simp, rfl, by simp⟩
  refine Triple.bind (M := fun deadline u ↦ deadline = start + cfg.timeout.nanos ∧ NoFault sdk u ∧
    PollingFor sdk (tx.hexHash sdk) start u) ?_ fun deadline ↦ ?_
  · rw [instantAdd]
    split
    · exact .pure fun u h ↦ ⟨rfl, h⟩
    · exact .crash
  refine Triple.of_and fun hdeadline ↦ ?_
  subst hdeadline
  refine Triple.bind (M := Polled sdk (tx.hexHash sdk) start) ?_ fun response ↦ ?_
  · refine .ask_record (fun _ _ _ ↦ trivial) ?_ ?_
    · rintro u (e | r) a ⟨hu, hstart⟩ hr <;> cases hr
      exact ⟨u, rfl, hu, hstart⟩
    · rintro u (e | r) a ⟨hu, -⟩ hr <;> cases hr
      exact hu.blamed (.fault rfl)
  have hloop : Explains sdk cfg op (Polled sdk (tx.hexHash sdk) start response)
      (Prog.iterate (pollRound sdk (tx.hexHash sdk) cfg (start + cfg.timeout.nanos)) response)
      fun r u ↦ Polled sdk (tx.hexHash sdk) start r u ∧ r.status ≠ .notFound :=
    Triple.iterate (I := Polled sdk (tx.hexHash sdk) start) explains_pollRound response
  refine hloop.bind fun r ↦ ?_
  split
  · rename_i hs
    refine .pure ?_
    rintro u ⟨⟨v, rfl, hv, -⟩, -⟩
    exact ⟨hs, _, v, rfl, hv⟩
  · rename_i hsuccess
    refine .throw ?_
    rintro u ⟨⟨v, rfl, hv, -⟩, hfinal⟩
    have hs : r.status = .failed := by
      cases h : r.status with
      | success => exact absurd h hsuccess
      | notFound => exact absurd h hfinal
      | failed => rfl
    rw [hs]
    exact hv.blamed (.fault (by rw [fault, if_pos hs]))

theorem explains_signSendPoll (prepared : Transaction) :
    Explains sdk cfg op (NoFault sdk)
      (signSendPoll sdk networkPassphrase signer prepared cfg) fun x ↦ Succeeded sdk x.2 := by
  rw [signSendPoll]
  refine (explains_sign prepared).bind fun signed ↦ ?_
  refine (explains_sendTransaction signed).bind fun _ ↦ ?_
  exact (explains_pollTransactionStatus _).bind fun response ↦ .pure fun u h ↦ h

theorem explains_submit (prepared : Transaction) :
    Explains sdk cfg op (NoFault sdk) (submit sdk signer networkPassphrase prepared cfg)
      fun _ ↦ NoFault sdk := by
  rw [submit_eq]
  exact Triple.map ((explains_signSendPoll prepared).conseq (fun _ ↦ id)
    (fun _ _ h ↦ h.noFault) fun _ _ ↦ id)

theorem explains_prepareAndSend (hop : ¬ op.Restores) (callerAddress : String)
    (operation : Operation) (fee : UInt32) :
    Explains sdk cfg op (NoFault sdk)
      (prepareAndSend sdk networkPassphrase callerAddress operation fee signer cfg)
      fun x ↦ Succeeded sdk x.2 := by
  rw [prepareAndSend_eq]
  refine (explains_getAccount callerAddress).bind fun account ↦ ?_
  refine Triple.bind ((explains_prepare _).pre fun u h ↦ ?_) fun prepared ↦
    explains_signSendPoll prepared
  exact ⟨h, fun h ↦ absurd h hop⟩

/-! ## The free functions -/

/-- A method that reads the return value of what it submits. -/
theorem explains_submitAndDecode {β : Type} {decode : ScVal → Except SorobanUtilsError β}
    (hop : ¬ op.Restores) (operation : Operation)
    (hdecode : ∀ response e, response.returnValue >>= decode = .error e →
      op.Undecodable sdk response e) :
    Explains sdk cfg op (NoFault sdk)
      (submitAndDecode sdk networkPassphrase signer operation cfg decode)
      fun _ ↦ NoFault sdk := by
  rw [submitAndDecode]
  refine explains_inclusionFee.bind fun fee ↦ ?_
  refine (explains_prepareAndSend hop _ operation fee).bind fun x ↦ ?_
  obtain ⟨_, response⟩ := x
  have hlift : (Prog.lift response.returnValue >>= fun v ↦ Prog.lift (decode v) : Async β) =
      Prog.lift (response.returnValue >>= decode) := by
    cases response.returnValue <;> rfl
  change Explains sdk cfg op _ (Prog.lift response.returnValue >>= fun v ↦ Prog.lift (decode v)) _
  rw [hlift]
  refine .lift (fun _ _ _ h ↦ h.noFault) ?_
  rintro e _ he ⟨hs, hash, v, rfl, hv⟩
  exact hv.blamed (.undecoded hs (hdecode response e he))

theorem explains_uploadWasm {wasm : ByteArray} (hop : ¬ op.Restores)
    (hbuild : ∀ msg, sdk.uploadWasm wasm = .error msg → op.Unbuildable sdk (.xdr msg))
    (hdecode : ∀ response e, response.returnValue >>= wasmHashOfReturnValue sdk = .error e →
      op.Undecodable sdk response e) :
    Explains sdk cfg op (NoFault sdk) (uploadWasm sdk networkPassphrase signer wasm cfg)
      fun _ ↦ NoFault sdk := by
  rw [uploadWasm_eq]
  exact (explains_build _ hbuild).bind fun operation ↦
    explains_submitAndDecode hop operation hdecode

theorem explains_createContractInstance {wasmHash : Hash} {args : List ScVal}
    (hop : ¬ op.Restores)
    (hbuild : ∀ salt msg, sdk.createContract signer.publicKey wasmHash salt args = .error msg →
      op.Unbuildable sdk (.xdr msg))
    (hdecode : ∀ response e, response.returnValue >>= addressOfReturnValue sdk = .error e →
      op.Undecodable sdk response e) :
    Explains sdk cfg op (NoFault sdk)
      (createContractInstance sdk networkPassphrase signer wasmHash args cfg)
      fun _ ↦ NoFault sdk := by
  rw [createContractInstance_eq]
  refine Triple.bind (M := fun _ ↦ NoFault sdk) ?_ fun salt ↦ ?_
  · exact explains_ask (fun _ _ _ ↦ rfl) (by rintro _ _ ⟨⟩)
  · exact (explains_build _ (hbuild salt)).bind fun operation ↦
      explains_submitAndDecode hop operation hdecode

theorem explains_buildAndSimulate (callerAddress : String) (operation : Operation) (fee : UInt32) :
    Explains sdk cfg op (NoFault sdk)
      (buildAndSimulate sdk networkPassphrase callerAddress operation fee)
      fun response u ↦ ∃ v tx, u = v ++ [⟨.simulateTransaction tx, .ok response⟩] ∧
        NoFault sdk v := by
  rw [buildAndSimulate]
  refine (explains_getAccount callerAddress).bind fun account ↦ ?_
  refine .ask_record (fun _ _ _ ↦ trivial) ?_ ?_
  · rintro u (e | response) a h hr <;> cases hr
    exact ⟨u, _, rfl, h⟩
  · rintro u (e | response) a h hr <;> cases hr
    exact h.blamed (.fault rfl)

theorem explains_invokeContract (contractAddress functionName : String) (args : List ScVal) :
    Explains sdk cfg (.invokeContract contractAddress functionName args) (NoFault sdk)
      (invokeContract sdk networkPassphrase signer contractAddress functionName args cfg)
      fun _ ↦ NoFault sdk := by
  rw [invokeContract]
  refine Triple.bind (explains_build _ ?_) fun operation ↦ ?_
  · exact fun msg hmsg ↦ ⟨msg, hmsg, rfl⟩
  refine (explains_buildAndSimulate signer.publicKey operation minBaseFee).bind fun simulation ↦ ?_
  have hquiet (u : List Exchange) (h : ∃ v tx, u = v ++
      [⟨.simulateTransaction tx, .ok simulation⟩] ∧ NoFault sdk v) : NoFault sdk u := by
    obtain ⟨v, tx, rfl, hv⟩ := h
    exact hv.append rfl
  split
  · rename_i err herr
    refine .throw ?_
    rintro _ ⟨v, tx, rfl, hv⟩
    exact hv.blamed (.refused tx rfl herr)
  · split
    · exact .pure hquiet
    · refine Triple.bind (explains_inclusionFee.pre hquiet) fun fee ↦ ?_
      refine (explains_prepareAndSend id _ operation fee).bind fun x ↦ ?_
      exact .pure fun u h ↦ h.noFault

/-! ## Extending -/

theorem explains_buildExtend {extendTo : UInt32} (data : SorobanTransactionData)
    (hbuild : ∀ msg, sdk.extendFootprintTtl extendTo = .error msg →
      op.Unbuildable sdk (.xdr msg)) :
    Explains sdk cfg op (NoFault sdk)
      (buildExtend sdk networkPassphrase signer extendTo data) fun _ ↦ NoFault sdk := by
  rw [buildExtend]
  refine (explains_getAccount signer.publicKey).bind fun account ↦ ?_
  exact (explains_build _ hbuild).bind fun operation ↦ .pure fun _ h ↦ h

theorem explains_restoreEntry (fee : Int64) (data : SorobanTransactionData)
    (hbuild : ∀ msg, sdk.restoreFootprint = .error msg → op.Unbuildable sdk (.xdr msg)) :
    Explains sdk cfg op (NoFault sdk)
      (restoreEntry sdk networkPassphrase signer fee data cfg) fun _ ↦ NoFault sdk := by
  rw [restoreEntry]
  refine (explains_build _ hbuild).bind fun operation ↦ ?_
  refine (explains_getAccount signer.publicKey).bind fun account ↦ ?_
  exact (explains_submit _).bind fun _ ↦ .pure fun _ h ↦ h

theorem RestoreAsked.append {u v : List Exchange} (h : RestoreAsked u) : RestoreAsked (u ++ v) := by
  obtain ⟨tx, fee, data, hmem⟩ := h
  exact ⟨tx, fee, data, List.mem_append_left _ hmem⟩

theorem explains_extendLedgerKeyTtl {extendTo : UInt32} (ledgerKey : LedgerKey)
    (hextend : ∀ msg, sdk.extendFootprintTtl extendTo = .error msg → op.Unbuildable sdk (.xdr msg))
    (hrestore : ∀ msg, sdk.restoreFootprint = .error msg → op.Unbuildable sdk (.xdr msg)) :
    Explains sdk cfg op (NoFault sdk)
      (extendLedgerKeyTtl sdk networkPassphrase signer ledgerKey extendTo cfg)
      fun _ ↦ NoFault sdk := by
  rw [extendLedgerKeyTtl_eq]
  refine (explains_buildExtend _ hextend).bind fun tx ↦ ?_
  -- What the first prepare answers decides the branch, also where it is an error.
  refine Triple.bind (M := fun r u ↦ ∃ v, u = v ++ [⟨.prepareTransaction tx, r⟩] ∧ NoFault sdk v)
    (.ask_record (fun _ _ _ ↦ trivial) (by rintro u r _ h ⟨⟩; exact ⟨u, rfl, h⟩)
      (by rintro _ _ _ _ ⟨⟩)) fun r ↦ ?_
  cases r with
  | ok prepared =>
    refine (explains_submit prepared).pre ?_
    rintro _ ⟨v, rfl, hv⟩
    exact hv.append rfl
  | error e =>
    cases e with
    | restorationRequired fee data =>
      have hframe : Explains sdk cfg op (fun u ↦ NoFault sdk u ∧ RestoreAsked u)
          (restoreEntry sdk networkPassphrase signer fee data cfg)
          fun _ u ↦ NoFault sdk u ∧ RestoreAsked u :=
        (explains_restoreEntry fee data hrestore).frame_record fun _ _ ↦ RestoreAsked.append
      refine Triple.bind (hframe.pre ?_) fun _ ↦ ?_
      · rintro _ ⟨v, rfl, hv⟩
        exact ⟨hv.append rfl, tx, fee, data, by simp⟩
      · refine ((explains_buildExtend _ hextend).frame_record
          fun _ _ ↦ RestoreAsked.append).bind fun tx ↦ ?_
        refine Triple.bind ((explains_prepare tx).pre fun u h ↦ ?_) explains_submit
        exact ⟨h.1, fun _ ↦ h.2⟩
    | _ =>
      refine .throw ?_
      rintro _ ⟨v, rfl, hv⟩
      exact hv.blamed (.fault rfl)

/-! ## The methods of the client -/

/-- What is blamed stands at the end, but for the drop of a signer. -/
def BlamedInScope (sdk : Sdk) (cfg : PollConfig) (op : WriteOp) (e : SorobanUtilsError)
    (t : List Exchange) : Prop :=
  ∃ u, (t = u ∨ ∃ signer, t = u ++ [⟨.dropSigner signer, ()⟩]) ∧ Blamed sdk cfg op e u

theorem explains_withSigner {α : Type} {body : Signer → Async α}
    (hbody : ∀ signer, Explains sdk cfg op (NoFault sdk) (body signer) fun _ ↦ NoFault sdk) :
    Triple World.record (fun _ _ ↦ True) (NoFault sdk) (withSigner body)
      (fun _ ↦ NoFault sdk) (BlamedInScope sdk cfg op) := by
  rw [withSigner]
  refine Triple.bind (M := fun _ ↦ NoFault sdk) ?_ fun signer ↦ ?_
  · refine .ask_record (fun _ _ _ ↦ trivial) ?_ ?_
    · rintro u r a h rfl
      exact h.append rfl
    · rintro u r e h rfl
      exact ⟨_, .inl rfl, h.blamed (.fault rfl)⟩
  · have hdrop : Triple World.record (fun _ _ ↦ True) (NoFault sdk)
        (Prog.ask (.dropSigner signer) .ok : Async Unit) (fun _ ↦ NoFault sdk) fun _ _ ↦ True :=
      .ask_record (fun _ _ _ ↦ trivial) (fun _ _ _ h _ ↦ h.append rfl) fun _ _ _ _ _ ↦ trivial
    refine (hbody signer).ensuring (fun _ ↦ hdrop) fun e ↦ ?_
    exact .ask_record (fun _ _ _ ↦ trivial) (fun u _ _ h _ ↦ ⟨u, .inr ⟨signer, rfl⟩, h⟩)
      fun _ _ _ _ _ ↦ trivial

theorem explains_perform (client : Client) (op : WriteOp) :
    Triple World.record (fun _ _ ↦ True) (NoFault sdk) (client.perform sdk op)
      (fun _ ↦ NoFault sdk) (BlamedInScope sdk client.pollCfg op) := by
  cases op with
  | uploadWasm wasm =>
    refine Triple.map (explains_withSigner fun signer ↦ explains_uploadWasm id ?_ ?_)
    · exact fun msg hmsg ↦ ⟨msg, hmsg, rfl⟩
    · exact fun _ _ he ↦ he
  | createContractInstance wasmHash args =>
    refine Triple.map (explains_withSigner fun signer ↦ explains_createContractInstance id ?_ ?_)
    · exact fun salt msg hmsg ↦ ⟨signer.publicKey, salt, msg, hmsg, rfl⟩
    · exact fun _ _ he ↦ he
  | deployContract wasm args =>
    refine Triple.map (Triple.bind (M := fun _ ↦ NoFault sdk) ?_ fun wasmHash ↦
      Triple.bind (M := fun _ ↦ NoFault sdk) ?_ fun _ ↦ .pure fun _ h ↦ h)
    · refine explains_withSigner fun signer ↦ explains_uploadWasm id ?_ ?_
      · exact fun msg hmsg ↦ .inl ⟨msg, hmsg, rfl⟩
      · exact fun _ _ he ↦ .inl he
    · refine explains_withSigner fun signer ↦ explains_createContractInstance id ?_ ?_
      · exact fun salt msg hmsg ↦ .inr ⟨signer.publicKey, wasmHash, salt, msg, hmsg, rfl⟩
      · exact fun _ _ he ↦ .inr he
  | invokeContract contractAddress functionName args =>
    exact Triple.map (explains_withSigner fun signer ↦ explains_invokeContract _ _ _)
  | extendTtl contractAddress mappingName details durability extendTo =>
    refine Triple.map (explains_withSigner fun signer ↦ ?_)
    refine Triple.bind (explains_lift _ ?_) fun storageKey ↦ ?_
    · exact fun e he ↦ .inl he
    refine Triple.bind (explains_lift _ ?_) fun contract ↦ ?_
    · exact fun e he ↦ .inr (.inl he)
    exact explains_extendLedgerKeyTtl _ (fun msg hmsg ↦ .inr (.inr (.inl ⟨msg, hmsg, rfl⟩)))
      fun msg hmsg ↦ .inr (.inr (.inr ⟨msg, hmsg, rfl⟩))
  | extendInstanceTtl contractAddress extendTo =>
    refine Triple.map (explains_withSigner fun signer ↦ ?_)
    refine Triple.bind (explains_lift _ ?_) fun contract ↦ ?_
    · exact fun e he ↦ .inl he
    exact explains_extendLedgerKeyTtl _ (fun msg hmsg ↦ .inr (.inl ⟨msg, hmsg, rfl⟩))
      fun msg hmsg ↦ .inr (.inr ⟨msg, hmsg, rfl⟩)
  | extendWasmTtl wasmHash extendTo =>
    refine Triple.map (explains_withSigner fun signer ↦ ?_)
    exact explains_extendLedgerKeyTtl _ (fun msg hmsg ↦ .inl ⟨msg, hmsg, rfl⟩)
      fun msg hmsg ↦ .inr ⟨msg, hmsg, rfl⟩

/-- What the exchanges of a call are, given its result. -/
def AccountsFor (sdk : Sdk) (cfg : PollConfig) (op : WriteOp) (t : List Exchange) :
    Except SorobanUtilsError Unit → Prop
  | .ok _ => NoFault sdk t
  | .error e => BlamedInScope sdk cfg op e t

/-- A fault in an explained run is the error that is explained. -/
theorem Blamed.eq_of_fault {u : List Exchange} {e e' : SorobanUtilsError} {y : Exchange}
    (h : Blamed sdk cfg op e u) (hy : y ∈ u) (hfault : fault sdk y = some e') : e = e' := by
  obtain ⟨hexplained, hnone⟩ := h
  have hlast {v : List Exchange} {z : Exchange} (hu : u = v ++ [z]) : y = z := by
    subst hu
    rw [List.dropLast_concat] at hnone
    obtain hy | hy := List.mem_append.mp hy
    · rw [hnone y hy] at hfault
      cases hfault
    · exact List.mem_singleton.mp hy
  cases hexplained with
  | fault hz =>
    obtain rfl := hlast rfl
    exact Option.some.inj (hz.symm.trans hfault)
  | unrestored tx fee data hagain =>
    obtain rfl := hlast rfl
    cases hfault
  | refused tx hop herr =>
    obtain rfl := hlast rfl
    cases hfault
  | @timeout v hash start clock response hstart hstatus hlate =>
    obtain rfl := hlast (List.append_cons v _ _)
    cases hfault
  | @undecoded v hash response e hstatus he =>
    obtain rfl := hlast rfl
    rw [fault, hstatus] at hfault
    cases hfault
  | unbuilt hu he =>
    rw [hu y hy] at hfault
    cases hfault

/-- **Results account for their runs.** A method that succeeds has met with no `fault`; one that
fails stops at what its error stands for, with no fault before; and a fault is never turned into the
error of something else. -/
theorem result_accounted_for (sdk : Sdk) (client : Client) (op : WriteOp) (t : List Exchange)
    (x : Except SorobanUtilsError Unit) (hrun : Runs (client.perform sdk op).run t (.returned x)) :
    AccountsFor sdk client.pollCfg op t x ∧ ∀ y ∈ t, ∀ e, fault sdk y = some e → x = .error e := by
  obtain ⟨-, hok, herror⟩ := (explains_perform client op).of_record (by simp [NoFault]) hrun
  cases x with
  | ok a =>
    refine ⟨hok a rfl, fun y hy e he ↦ ?_⟩
    rw [hok a rfl y hy] at he
    cases he
  | error e =>
    have hblamed := herror e rfl
    refine ⟨hblamed, fun y hy e' he ↦ ?_⟩
    obtain ⟨u, ht, hu⟩ := hblamed
    have hmem : y ∈ u := by
      obtain rfl | ⟨signer, rfl⟩ := ht
      · exact hy
      · obtain hy | hy := List.mem_append.mp hy
        · exact hy
        · obtain rfl := List.mem_singleton.mp hy
          cases he
    rw [hu.eq_of_fault hmem he]

theorem uploads_accounted_for :
    AccountsFor .sample Client.sample.pollCfg (.uploadWasm ⟨#[]⟩) acceptedUpload (.ok ()) ∧
      BlamedInScope .sample Client.sample.pollCfg (.uploadWasm ⟨#[]⟩) (.signer "") refusedUpload :=
  ⟨(result_accounted_for .sample .sample (.uploadWasm ⟨#[]⟩) acceptedUpload _
      runs_acceptedUpload).1,
    (result_accounted_for .sample .sample (.uploadWasm ⟨#[]⟩) refusedUpload _
      runs_refusedUpload).1⟩

end StellarRustClient
