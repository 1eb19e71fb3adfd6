import StellarRustClient.Client.WriteOp
import StellarRustClient.Interaction.World
import StellarRustClient.Submission.Paths
import StellarRustClient.Deploy.Runs

/-!
# The discipline of the write methods

Every write method goes through the same stations: a signer is held, an account is fetched, a
transaction is built from it and perhaps prepared, signed, sent, and polled until it is final. A
`Discipline` gives each station a meaning, as a predicate of the state of a world, and says that the
calls between two stations lead from one to the other. `Discipline.perform` walks through the code
of all seven methods once, so that a property of what they do in some world is left with the calls.
-/

namespace StellarRustClient

open Interaction

variable {σ : Type*}

/-- Calls that none of the stations depends on. -/
def IsQuiet : Call → Prop
  | .simulateTransaction _ => True
  | .getFeeStats => True
  | .salt => True
  | _ => False

/-- The stations of a write method in a world, and the calls between them. -/
structure Discipline (sdk : Sdk) (W : World Call Reply σ) (G : σ → Exchange → Prop) where
  /-- No method is running, and the last one succeeded. -/
  Idle : σ → Prop
  /-- No method is running. -/
  Done : σ → Prop
  /-- A signer is held, and no transaction is on its way. -/
  Held : Signer → σ → Prop
  /-- A signer is held by a method that is about to fail. -/
  Failed : Signer → σ → Prop
  Fetched : Signer → Account → σ → Prop
  Unsigned : Signer → Transaction → σ → Prop
  Signed : Signer → Transaction → σ → Prop
  Sent : Signer → Transaction → σ → Prop
  failed_of_held : ∀ signer s, Held signer s → Failed signer s
  held_of_fetched : ∀ signer account s, Fetched signer account s → Held signer s
  /-- A transaction that is built from the account that was fetched. -/
  unsigned_of_fetched : ∀ signer account s networkPassphrase fee op data,
    Fetched signer account s →
      Unsigned signer (TransactionBuilder.build account networkPassphrase fee op data).1 s
  buildSigner : Triple W G Idle (Prog.ask .buildSigner fun r ↦ r) Held fun _ ↦ Done
  dropSigner : ∀ signer, Triple W G (Held signer)
    (Prog.ask (.dropSigner signer) .ok : Async Unit) (fun _ ↦ Idle) fun _ ↦ Done
  dropSigner_failed : ∀ signer, Triple W G (Failed signer)
    (Prog.ask (.dropSigner signer) .ok : Async Unit) (fun _ ↦ Done) fun _ ↦ Done
  quiet : ∀ signer c, IsQuiet c → Triple W G (Held signer)
    (Prog.ask c .ok : Async (Reply c)) (fun _ ↦ Held signer) fun _ ↦ Failed signer
  getAccount : ∀ signer, Triple W G (Held signer) (getAccount sdk signer.publicKey)
    (Fetched signer) fun _ ↦ Failed signer
  prepareTransaction : ∀ signer tx, Triple W G (Unsigned signer tx)
    (Prog.ask (.prepareTransaction tx) .ok : Async (Except RpcError Transaction))
    (fun r s ↦ match r with
      | .ok prepared => Unsigned signer prepared s
      | .error _ => Held signer s)
    fun _ ↦ Failed signer
  sign : ∀ signer tx networkPassphrase, Triple W G (Unsigned signer tx)
    (signer.sign tx networkPassphrase) (Signed signer) fun _ ↦ Failed signer
  sendTransaction : ∀ signer tx, Triple W G (Signed signer tx) (sendTransaction sdk tx)
    (fun _ ↦ Sent signer tx) fun _ ↦ Failed signer
  now : ∀ signer tx, Triple W G (Sent signer tx) now (fun _ ↦ Sent signer tx)
    fun _ ↦ Failed signer
  sleep : ∀ signer tx duration, Triple W G (Sent signer tx) (sleep duration)
    (fun _ ↦ Sent signer tx) fun _ ↦ Failed signer
  failed_of_sent : ∀ signer tx s, Sent signer tx s → Failed signer s
  getTransaction : ∀ signer tx, Triple W G (Sent signer tx)
    (getTransaction sdk (tx.hexHash sdk))
    (fun response s ↦ match response.status with
      | .success => Held signer s
      | .notFound => Sent signer tx s
      | .failed => Failed signer s)
    fun _ ↦ Failed signer

namespace Discipline

variable {sdk : Sdk} {W : World Call Reply σ} {G : σ → Exchange → Prop} (D : Discipline sdk W G)
  {signer : Signer} {networkPassphrase : String} {pollCfg : PollConfig}

/-- The states in which a method that holds `signer` can go on. -/
abbrev holding {α : Type} (signer : Signer) : α → σ → Prop := fun _ ↦ D.Held signer

/-- The states in which a method that holds `signer` can fail. -/
abbrev failing (signer : Signer) : SorobanUtilsError → σ → Prop := fun _ ↦ D.Failed signer

include D

/-! ## One submission -/

/-- What the status of a response says about the transaction it was asked for. -/
def polled (signer : Signer) (tx : Transaction) (response : GetTransactionResponse) (s : σ) :
    Prop :=
  match response.status with
  | .success => D.Held signer s
  | .notFound => D.Sent signer tx s
  | .failed => D.Failed signer s

theorem polled_final {tx : Transaction} {response : GetTransactionResponse} {s : σ}
    (h : D.polled signer tx response s) (hstatus : response.status ≠ .success) :
    D.Failed signer s := by
  rw [polled] at h
  split at h
  · rename_i hs
    exact absurd hs hstatus
  · exact D.failed_of_sent signer tx s h
  · exact h

theorem pollRound (tx : Transaction) (deadline : Instant) (response : GetTransactionResponse) :
    Triple W G (D.polled signer tx response)
      (StellarRustClient.pollRound sdk (tx.hexHash sdk) pollCfg deadline response)
      (fun y s ↦ y.elim (D.polled signer tx · s) (D.polled signer tx · s)) (D.failing signer) := by
  simp only [StellarRustClient.pollRound]
  split
  · rename_i hs
    have hsent (s : σ) (h : D.polled signer tx response s) : D.Sent signer tx s := by
      simpa only [polled, hs] using h
    refine ((D.now signer tx).pre hsent).bind fun t ↦ ?_
    split
    · exact .throw (D.failed_of_sent signer tx)
    · refine (D.sleep signer tx pollCfg.interval).bind fun _ ↦ ?_
      exact (D.getTransaction signer tx).bind fun response ↦ .pure fun s h ↦ h
  · exact .pure fun s h ↦ h

theorem pollTransactionStatus (tx : Transaction) :
    Triple W G (D.Sent signer tx)
      (StellarRustClient.pollTransactionStatus sdk (tx.hexHash sdk) pollCfg) (D.holding signer)
      (D.failing signer) := by
  rw [StellarRustClient.pollTransactionStatus]
  refine (D.now signer tx).bind fun start ↦ ?_
  have hdeadline : Triple W G (D.Sent signer tx) (instantAdd sdk start pollCfg.timeout)
      (fun _ ↦ D.Sent signer tx) (D.failing signer) := by
    rw [instantAdd]
    split
    · exact .pure fun s h ↦ h
    · exact .crash
  refine hdeadline.bind fun deadline ↦ (D.getTransaction signer tx).bind fun response ↦ ?_
  refine (Triple.iterate (D.pollRound tx deadline) response).bind fun response ↦ ?_
  split
  · rename_i hs
    exact .pure fun s h ↦ by simpa only [polled, hs] using h
  · exact .throw fun s h ↦ D.polled_final h ‹_›

theorem signSendPoll (tx : Transaction) :
    Triple W G (D.Unsigned signer tx)
      (StellarRustClient.signSendPoll sdk networkPassphrase signer tx pollCfg) (D.holding signer)
      (D.failing signer) := by
  rw [StellarRustClient.signSendPoll]
  refine (D.sign signer tx networkPassphrase).bind fun signed ↦ ?_
  refine (D.sendTransaction signer signed).bind fun _ ↦ ?_
  exact (D.pollTransactionStatus signed).bind fun response ↦ .pure fun s h ↦ h

theorem submit (tx : Transaction) :
    Triple W G (D.Unsigned signer tx)
      (StellarRustClient.submit sdk signer networkPassphrase tx pollCfg) (D.holding signer)
      (D.failing signer) := by
  rw [submit_eq]
  exact Triple.map (D.signSendPoll tx)

/-- A prepare whose failure is the failure of the method. -/
theorem prepare (tx : Transaction) :
    Triple W G (D.Unsigned signer tx)
      (Prog.ask (.prepareTransaction tx) (Except.mapError (simulationError sdk)))
      (D.Unsigned signer) (D.failing signer) := by
  have hstep : (Prog.ask (.prepareTransaction tx) (Except.mapError (simulationError sdk)) :
      Async Transaction) = Prog.ask (.prepareTransaction tx) .ok >>= fun r ↦
        Prog.lift (r.mapError (simulationError sdk)) := rfl
  rw [hstep]
  refine (D.prepareTransaction signer tx).bind fun r ↦ ?_
  cases r with
  | error e => exact .lift (by rintro _ _ ⟨⟩) fun _ s _ h ↦ D.failed_of_held signer s h
  | ok prepared => exact .lift (by rintro _ s ⟨⟩ h; exact h) (by rintro _ _ ⟨⟩)

theorem prepareAndSend (op : Operation) (fee : UInt32) :
    Triple W G (D.Held signer)
      (StellarRustClient.prepareAndSend sdk networkPassphrase signer.publicKey op fee signer
        pollCfg)
      (D.holding signer) (D.failing signer) := by
  rw [prepareAndSend_eq]
  refine (D.getAccount signer).bind fun account ↦ ?_
  refine Triple.bind ((D.prepare _).pre fun s h ↦ ?_) fun prepared ↦ D.signSendPoll prepared
  exact D.unsigned_of_fetched signer account s networkPassphrase fee op none h

theorem inclusionFee :
    Triple W G (D.Held signer) (StellarRustClient.inclusionFee sdk) (D.holding signer)
      (D.failing signer) := by
  have hstep : StellarRustClient.inclusionFee sdk =
      Prog.ask .getFeeStats .ok >>= fun r ↦ pure (feeBid r) := inclusionFee_eq
  rw [hstep]
  exact (D.quiet signer .getFeeStats trivial).bind fun _ ↦ .pure fun s h ↦ h

/-- A computation in between. -/
theorem lift {α : Type} (x : Except SorobanUtilsError α) :
    Triple W G (D.Held signer) (Prog.lift x) (D.holding signer) (D.failing signer) :=
  .lift (fun _ _ _ h ↦ h) fun _ s _ h ↦ D.failed_of_held signer s h

/-! ## The free functions -/

theorem submitAndDecode {β : Type} (op : Operation) (decode : ScVal → Except SorobanUtilsError β) :
    Triple W G (D.Held signer)
      (StellarRustClient.submitAndDecode sdk networkPassphrase signer op pollCfg decode)
      (D.holding signer) (D.failing signer) := by
  rw [StellarRustClient.submitAndDecode]
  refine D.inclusionFee.bind fun fee ↦ (D.prepareAndSend op fee).bind fun x ↦ ?_
  exact (D.lift _).bind fun v ↦ D.lift _

theorem uploadWasm (wasm : ByteArray) :
    Triple W G (D.Held signer)
      (StellarRustClient.uploadWasm sdk networkPassphrase signer wasm pollCfg) (D.holding signer)
      (D.failing signer) := by
  rw [uploadWasm_eq]
  exact (D.lift _).bind fun op ↦ D.submitAndDecode op _

theorem createContractInstance (wasmHash : Hash) (args : List ScVal) :
    Triple W G (D.Held signer)
      (StellarRustClient.createContractInstance sdk networkPassphrase signer wasmHash args pollCfg)
      (D.holding signer) (D.failing signer) := by
  rw [createContractInstance_eq]
  refine (D.quiet signer .salt trivial).bind fun salt ↦ ?_
  exact (D.lift _).bind fun op ↦ D.submitAndDecode op _

theorem buildAndSimulate (op : Operation) (fee : UInt32) :
    Triple W G (D.Held signer)
      (StellarRustClient.buildAndSimulate sdk networkPassphrase signer.publicKey op fee)
      (D.holding signer) (D.failing signer) := by
  rw [StellarRustClient.buildAndSimulate]
  refine (D.getAccount signer).bind fun account ↦ ?_
  have hstep (tx : Transaction) :
      (Prog.ask (.simulateTransaction tx) (Except.mapError (simulationError sdk)) :
        Async SimulateTransactionResponse) = Prog.ask (.simulateTransaction tx) .ok >>= fun r ↦
          Prog.lift (r.mapError (simulationError sdk)) := rfl
  rw [hstep]
  refine Triple.bind ((D.quiet signer (.simulateTransaction _) trivial).pre ?_) fun r ↦ D.lift _
  exact D.held_of_fetched signer account

theorem invokeContract (contractAddress functionName : String) (args : List ScVal) :
    Triple W G (D.Held signer)
      (StellarRustClient.invokeContract sdk networkPassphrase signer contractAddress functionName
        args pollCfg) (D.holding signer) (D.failing signer) := by
  rw [StellarRustClient.invokeContract]
  refine (D.lift _).bind fun op ↦ (D.buildAndSimulate op minBaseFee).bind fun simulation ↦ ?_
  split
  · exact .throw (D.failed_of_held signer)
  · split
    · exact .pure fun s h ↦ h
    · refine D.inclusionFee.bind fun fee ↦ ?_
      exact (D.prepareAndSend op fee).bind fun x ↦ .pure fun s h ↦ h

theorem buildExtend (extendTo : UInt32) (data : SorobanTransactionData) :
    Triple W G (D.Held signer)
      (StellarRustClient.buildExtend sdk networkPassphrase signer extendTo data) (D.Unsigned signer)
      (D.failing signer) := by
  rw [StellarRustClient.buildExtend]
  refine (D.getAccount signer).bind fun account ↦ ?_
  refine Triple.bind (M := fun _ ↦ D.Fetched signer account) ?_ fun op ↦ .pure fun s h ↦ ?_
  · exact .lift (fun _ _ _ h ↦ h) fun _ s _ h ↦
      D.failed_of_held signer s (D.held_of_fetched signer account s h)
  · exact D.unsigned_of_fetched signer account s networkPassphrase minBaseFee op (some data) h

theorem restoreEntry (fee : Int64) (restoreData : SorobanTransactionData) :
    Triple W G (D.Held signer)
      (StellarRustClient.restoreEntry sdk networkPassphrase signer fee restoreData pollCfg)
      (D.holding signer) (D.failing signer) := by
  rw [StellarRustClient.restoreEntry]
  refine (D.lift _).bind fun op ↦ (D.getAccount signer).bind fun account ↦ ?_
  refine Triple.bind ((D.submit _).pre fun s h ↦ ?_) fun _ ↦ .pure fun s h ↦ h
  exact D.unsigned_of_fetched signer account s networkPassphrase _ op (some restoreData) h

theorem extendLedgerKeyTtl (ledgerKey : LedgerKey) (extendTo : UInt32) :
    Triple W G (D.Held signer)
      (StellarRustClient.extendLedgerKeyTtl sdk networkPassphrase signer ledgerKey extendTo pollCfg)
      (D.holding signer) (D.failing signer) := by
  rw [StellarRustClient.extendLedgerKeyTtl]
  refine (D.lift _).bind fun data ↦ (D.buildExtend extendTo data).bind fun tx ↦ ?_
  refine (D.prepareTransaction signer tx).bind fun r ↦ ?_
  cases r with
  | ok prepared => exact D.submit prepared
  | error e =>
    cases e with
    | restorationRequired fee restoreData =>
      refine (D.restoreEntry fee restoreData).bind fun _ ↦ ?_
      refine (D.buildExtend extendTo data).bind fun tx ↦ ?_
      exact (D.prepare tx).bind fun prepared ↦ D.submit prepared
    | _ => exact .throw (D.failed_of_held signer)

/-! ## The methods of the client -/

theorem withSigner {α : Type} {body : Signer → Async α}
    (hbody : ∀ signer, Triple W G (D.Held signer) (body signer) (D.holding signer)
      (D.failing signer)) :
    Triple W G D.Idle (StellarRustClient.withSigner body) (fun _ ↦ D.Idle) fun _ ↦ D.Done := by
  rw [StellarRustClient.withSigner]
  refine D.buildSigner.bind fun signer ↦ ?_
  exact (hbody signer).ensuring (fun _ ↦ D.dropSigner signer) fun _ ↦ D.dropSigner_failed signer

/-- **Every write method** keeps the discipline. -/
theorem perform (client : Client) (op : WriteOp) :
    Triple W G D.Idle (client.perform sdk op) (fun _ ↦ D.Idle) fun _ ↦ D.Done := by
  have hupload (wasm : ByteArray) : Triple W G D.Idle (client.uploadWasm sdk wasm)
      (fun _ ↦ D.Idle) fun _ ↦ D.Done :=
    D.withSigner fun signer ↦ D.uploadWasm wasm
  have hcreate (wasmHash : Hash) (args : List ScVal) :
      Triple W G D.Idle (client.createContractInstance sdk wasmHash args) (fun _ ↦ D.Idle)
        fun _ ↦ D.Done :=
    D.withSigner fun signer ↦ D.createContractInstance wasmHash args
  cases op with
  | uploadWasm wasm => exact (hupload wasm).map
  | createContractInstance wasmHash args => exact (hcreate wasmHash args).map
  | deployContract wasm args =>
    refine Triple.map ((hupload wasm).bind fun wasmHash ↦ ?_)
    exact (hcreate wasmHash args).bind fun address ↦ .pure fun s h ↦ h
  | invokeContract contractAddress functionName args =>
    exact (D.withSigner fun signer ↦ D.invokeContract contractAddress functionName args).map
  | extendTtl contractAddress mappingName details durability extendTo =>
    refine Triple.map (D.withSigner fun signer ↦ ?_)
    refine (D.lift _).bind fun storageKey ↦ (D.lift _).bind fun contract ↦ ?_
    exact D.extendLedgerKeyTtl _ extendTo
  | extendInstanceTtl contractAddress extendTo =>
    refine Triple.map (D.withSigner fun signer ↦ ?_)
    exact (D.lift _).bind fun contract ↦ D.extendLedgerKeyTtl _ extendTo
  | extendWasmTtl wasmHash extendTo =>
    exact (D.withSigner fun signer ↦ D.extendLedgerKeyTtl _ extendTo).map

end Discipline

end StellarRustClient
