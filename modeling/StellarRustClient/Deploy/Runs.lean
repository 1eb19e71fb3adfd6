import StellarRustClient.Client
import StellarRustClient.Submission.Paths

/-!
# The runs of the two deployment steps

Uploading a contract and creating an instance of it end the same way: bid a fee, submit one
operation, and decode the return value. `DecodedRun` lists the runs of that end, `UploadRun` and
`CreateRun` those of the two functions.
-/

namespace StellarRustClient

open Interaction

variable (sdk : Sdk) {β : Type}

/-- The common end of `upload_wasm` and `create_contract_instance`. -/
def submitAndDecode (networkPassphrase : String) (signer : Signer) (op : Operation)
    (pollCfg : PollConfig) (decode : ScVal → Except SorobanUtilsError β) : Async β := do
  let fee ← inclusionFee sdk
  let (_, response) ← prepareAndSend sdk networkPassphrase signer.publicKey op fee signer pollCfg
  let returnValue ← Prog.lift response.returnValue
  Prog.lift (decode returnValue)

theorem uploadWasm_eq (networkPassphrase : String) (signer : Signer) (wasm : ByteArray)
    (pollCfg : PollConfig) :
    uploadWasm sdk networkPassphrase signer wasm pollCfg =
      Prog.lift ((sdk.uploadWasm wasm).mapError .xdr) >>= fun op ↦
        submitAndDecode sdk networkPassphrase signer op pollCfg (wasmHashOfReturnValue sdk) := rfl

theorem createContractInstance_eq (networkPassphrase : String) (signer : Signer) (wasmHash : Hash)
    (constructorArgs : List ScVal) (pollCfg : PollConfig) :
    createContractInstance sdk networkPassphrase signer wasmHash constructorArgs pollCfg =
      Prog.ask .salt .ok >>= fun salt ↦
        Prog.lift ((sdk.createContract signer.publicKey wasmHash salt constructorArgs).mapError
          .xdr) >>= fun op ↦
        submitAndDecode sdk networkPassphrase signer op pollCfg (addressOfReturnValue sdk) := rfl

/-- The value of a submission, once its response is decoded. -/
def decodeResponse (decode : ScVal → Except SorobanUtilsError β)
    (x : String × GetTransactionResponse) : Except SorobanUtilsError β :=
  x.2.returnValue >>= decode

/-- The runs of `submitAndDecode`. -/
inductive DecodedRun (networkPassphrase : String) (signer : Signer) (op : Operation)
    (pollCfg : PollConfig) (decode : ScVal → Except SorobanUtilsError β) :
    List Exchange → Outcome (Except SorobanUtilsError β) → Prop
  | bidding : DecodedRun networkPassphrase signer op pollCfg decode [] .running
  | submitted (stats : Except RpcError FeeStats) {t : List Exchange} {o : SubmissionOutcome}
      (hsend : PrepareAndSendRun sdk networkPassphrase signer.publicKey op (feeBid stats) signer
        pollCfg t o) :
      DecodedRun networkPassphrase signer op pollCfg decode (⟨.getFeeStats, stats⟩ :: t)
        (o.map (· >>= decodeResponse decode))

/-- The runs of `uploadWasm`. -/
inductive UploadRun (networkPassphrase : String) (signer : Signer) (wasm : ByteArray)
    (pollCfg : PollConfig) : List Exchange → Outcome (Except SorobanUtilsError Hash) → Prop
  | notBuilt (e : String) (hop : sdk.uploadWasm wasm = .error e) :
      UploadRun networkPassphrase signer wasm pollCfg [] (.returned (.error (.xdr e)))
  | built (op : Operation) (hop : sdk.uploadWasm wasm = .ok op) {t : List Exchange}
      {o : Outcome (Except SorobanUtilsError Hash)}
      (hrun : DecodedRun sdk networkPassphrase signer op pollCfg (wasmHashOfReturnValue sdk) t o) :
      UploadRun networkPassphrase signer wasm pollCfg t o

/-- The runs of `createContractInstance`. -/
inductive CreateRun (networkPassphrase : String) (signer : Signer) (wasmHash : Hash)
    (constructorArgs : List ScVal) (pollCfg : PollConfig) :
    List Exchange → Outcome (Except SorobanUtilsError String) → Prop
  | salting : CreateRun networkPassphrase signer wasmHash constructorArgs pollCfg [] .running
  | notBuilt (salt : Hash) (e : String)
      (hop : sdk.createContract signer.publicKey wasmHash salt constructorArgs = .error e) :
      CreateRun networkPassphrase signer wasmHash constructorArgs pollCfg [⟨.salt, salt⟩]
        (.returned (.error (.xdr e)))
  | built (salt : Hash) (op : Operation)
      (hop : sdk.createContract signer.publicKey wasmHash salt constructorArgs = .ok op)
      {t : List Exchange} {o : Outcome (Except SorobanUtilsError String)}
      (hrun : DecodedRun sdk networkPassphrase signer op pollCfg (addressOfReturnValue sdk) t o) :
      CreateRun networkPassphrase signer wasmHash constructorArgs pollCfg (⟨.salt, salt⟩ :: t) o

variable {sdk} {networkPassphrase : String} {signer : Signer} {pollCfg : PollConfig}
  {t : List Exchange}

theorem runs_submitAndDecode {op : Operation} {decode : ScVal → Except SorobanUtilsError β}
    {o : Outcome (Except SorobanUtilsError β)} :
    Runs (submitAndDecode sdk networkPassphrase signer op pollCfg decode).run t o ↔
      DecodedRun sdk networkPassphrase signer op pollCfg decode t o := by
  have hdecode (x : String × GetTransactionResponse) :
      (Prog.lift x.2.returnValue >>= fun v ↦ Prog.lift (decode v) : Async β) =
        Prog.lift (decodeResponse decode x) := by
    rw [decodeResponse]
    cases x.2.returnValue <;> rfl
  have hstep : submitAndDecode sdk networkPassphrase signer op pollCfg decode =
      inclusionFee sdk >>= fun fee ↦
        prepareAndSend sdk networkPassphrase signer.publicKey op fee signer pollCfg >>= fun x ↦
          Prog.lift (decodeResponse decode x) := by
    simp only [submitAndDecode, hdecode]
  rw [hstep, runs_inclusionFee_bind]
  constructor
  · intro h
    obtain ⟨rfl, rfl⟩ | ⟨stats, t, rfl, h₁⟩ := h
    · exact .bidding
    · obtain ⟨o', hsend, rfl⟩ := runs_except_bind_lift.mp h₁
      exact .submitted stats (runs_prepareAndSend.mp hsend)
  · intro h
    cases h with
    | bidding => exact .inl ⟨rfl, rfl⟩
    | submitted stats hsend =>
      refine .inr ⟨stats, _, rfl, runs_except_bind_lift.mpr ⟨_, ?_, rfl⟩⟩
      exact runs_prepareAndSend.mpr hsend

theorem runs_uploadWasm {wasm : ByteArray} {o : Outcome (Except SorobanUtilsError Hash)} :
    Runs (uploadWasm sdk networkPassphrase signer wasm pollCfg).run t o ↔
      UploadRun sdk networkPassphrase signer wasm pollCfg t o := by
  rw [uploadWasm_eq, runs_lift_mapError_bind]
  simp only [runs_submitAndDecode]
  constructor
  · rintro (⟨e, hop, rfl, rfl⟩ | ⟨op, hop, hrun⟩)
    · exact .notBuilt e hop
    · exact .built op hop hrun
  · intro h
    cases h with
    | notBuilt e hop => exact .inl ⟨e, hop, rfl, rfl⟩
    | built op hop hrun => exact .inr ⟨op, hop, hrun⟩

theorem runs_createContractInstance {wasmHash : Hash} {constructorArgs : List ScVal}
    {o : Outcome (Except SorobanUtilsError String)} :
    Runs (createContractInstance sdk networkPassphrase signer wasmHash constructorArgs
      pollCfg).run t o ↔
      CreateRun sdk networkPassphrase signer wasmHash constructorArgs pollCfg t o := by
  rw [createContractInstance_eq, runs_ask_ok_bind]
  simp only [runs_lift_mapError_bind, runs_submitAndDecode]
  constructor
  · rintro (⟨rfl, rfl⟩ | ⟨salt, t, rfl, ⟨e, hop, rfl, rfl⟩ | ⟨op, hop, hrun⟩⟩)
    · exact .salting
    · exact .notBuilt salt e hop
    · exact .built salt op hop hrun
  · intro h
    cases h with
    | salting => exact .inl ⟨rfl, rfl⟩
    | notBuilt salt e hop => exact .inr ⟨salt, [], rfl, .inl ⟨e, hop, rfl, rfl⟩⟩
    | built salt op hop hrun => exact .inr ⟨salt, _, rfl, .inr ⟨op, hop, hrun⟩⟩

/-! ## An upload that succeeds -/

/-- A client of the test network. -/
def Client.sample : Client where
  network := .testnet
  publicKey := "G"
  pollCfg := .default

/-- The upload of no code at all. -/
def sampleUpload : Transaction :=
  unprepared NetworkConfig.testnet.networkPassphrase (.uploadContractWasm ⟨#[]⟩) minBaseFee ⟨"G", 7⟩

/-- The exchanges of an upload that is polled as a success, up to the signature. -/
def unsignedUpload : List Exchange :=
  [⟨.getFeeStats, .error (.other "")⟩, ⟨.getAccount "G", .ok ⟨"G", 7⟩⟩,
    ⟨.prepareTransaction sampleUpload, .ok sampleUpload⟩]

/-- The return value of an upload: the hash zero. -/
def zeroHashVal : ScVal :=
  .bytes ⟨⟨zeroHash.toArray⟩, by decide⟩

/-- The exchanges of an upload that is polled as a success. -/
def uploadedRun : List Exchange :=
  unsignedUpload ++
    resultLeg sampleUpload (some (some zeroHashVal))

theorem uploadRun_uploadedRun : UploadRun .sample NetworkConfig.testnet.networkPassphrase .sample
    ⟨#[]⟩ .default uploadedRun (.returned (.ok zeroHash)) :=
  .built (.uploadContractWasm ⟨#[]⟩) rfl
    (.submitted _ (.leg _ _ (legRun_resultLeg sampleUpload _)))

end StellarRustClient
