import StellarRustClient.Deploy.Agreement
import StellarRustClient.Deploy.Contracts
import StellarRustClient.Submission.Landed

/-!
# Reading a deployment back

What a deployment achieves is seen with `wasm_hash_of`, which reads the code that a contract runs.
A deployment that returns has landed an upload and a creation, and what it returns is what these
have returned: `Returned`. So the address that it hands out is that of a contract which runs the
code that was handed in, and whoever reads the contract sees that, unless the entry of the instance
has expired.
-/

namespace StellarRustClient

open Interaction

variable {sdk : Sdk} {op : Operation} {rv : ScVal} {t : List Exchange} {wasm : ByteArray}
  {wasmHash : Hash} {args : List ScVal} {address networkPassphrase : String} {signer : Signer}
  {pollCfg : PollConfig}

/-! ## What a deployment has landed -/

/-- A transaction with the operation `op` has landed, and the poll has reported the value `rv`. -/
def Returned (sdk : Sdk) (op : Operation) (rv : ScVal) (t : List Exchange) : Prop :=
  ∃ address final v, Landed sdk address op none final v t ∧ final.toResultMeta = some (some rv)

theorem Returned.append_left (h : Returned sdk op rv t) (w : List Exchange) :
    Returned sdk op rv (w ++ t) := by
  obtain ⟨address, final, v, hlanded, hrv⟩ := h
  exact ⟨address, final, v, hlanded.append_left w, hrv⟩

theorem Returned.append_right (h : Returned sdk op rv t) (w : List Exchange) :
    Returned sdk op rv (t ++ w) := by
  obtain ⟨address, final, v, hlanded, hrv⟩ := h
  exact ⟨address, final, v ++ w, hlanded.append_right w, hrv⟩

theorem Returned.inScope {t' : List Exchange} (h : Returned sdk op rv t) (hscope : InScope t t') :
    Returned sdk op rv t' := by
  obtain ⟨address, final, v, hlanded, hrv⟩ := h
  obtain ⟨v', -, hlanded⟩ := hlanded.inScope hscope
  exact ⟨address, final, v', hlanded, hrv⟩

theorem toResultMeta_of_returnValue {response : GetTransactionResponse}
    (h : response.returnValue = .ok rv) : response.toResultMeta = some (some rv) := by
  rw [GetTransactionResponse.returnValue] at h
  split at h
  · cases h
  · cases h
  · rename_i hmeta
    rw [hmeta, Except.ok.inj h]

theorem DecodedRun.returned {β : Type} {decode : ScVal → Except SorobanUtilsError β} {y : β}
    {o : Outcome (Except SorobanUtilsError β)} (ho : o = .returned (.ok y))
    (h : DecodedRun sdk networkPassphrase signer op pollCfg decode t o) :
    ∃ rv, Returned sdk op rv t ∧ decode rv = .ok y := by
  cases h with
  | bidding => cases ho
  | submitted stats hsend =>
    obtain ⟨x, hx, hdecode⟩ := Outcome.map_bind_eq_returned_ok.mp ho
    obtain ⟨v, hlanded⟩ := hsend.landed hx
    obtain ⟨rv, hrv, hy⟩ := decodeResponse_eq_ok.mp hdecode
    exact ⟨rv, Returned.append_left ⟨_, x.2, v, hlanded, toResultMeta_of_returnValue hrv⟩ [_], hy⟩

/-- The code `wasm` was uploaded, and its hash is what was returned. -/
def UploadReturned (sdk : Sdk) (wasm : ByteArray) (wasmHash : Hash) (t : List Exchange) : Prop :=
  ∃ b : ScBytes, Returned sdk (.uploadContractWasm wasm) (.bytes b) t ∧
    b.data.data = wasmHash.toArray

/-- An instance of `wasmHash` was created, and its address is what was returned. -/
def CreateReturned (sdk : Sdk) (wasmHash : Hash) (args : List ScVal) (address : String)
    (t : List Exchange) : Prop :=
  ∃ deployer salt a, Returned sdk (.createContract deployer salt wasmHash args) (.address a) t ∧
    address = sdk.displayScAddress a

theorem UploadRun.uploadReturned (hsdk : sdk.Lawful)
    {o : Outcome (Except SorobanUtilsError Hash)} (ho : o = .returned (.ok wasmHash))
    (h : UploadRun sdk networkPassphrase signer wasm pollCfg t o) :
    UploadReturned sdk wasm wasmHash t := by
  cases h with
  | notBuilt e hop => cases ho
  | built op hop hrun =>
    obtain ⟨_, hreturned, hdecode⟩ := hrun.returned ho
    obtain ⟨b, rfl, hb⟩ := wasmHashOfReturnValue_eq_ok.mp hdecode
    exact ⟨b, hsdk.uploadWasm hop ▸ hreturned, hb⟩

theorem CreateRun.createReturned (hsdk : sdk.Lawful)
    {o : Outcome (Except SorobanUtilsError String)} (ho : o = .returned (.ok address))
    (h : CreateRun sdk networkPassphrase signer wasmHash args pollCfg t o) :
    CreateReturned sdk wasmHash args address t := by
  cases h with
  | salting => cases ho
  | notBuilt salt e hop => cases ho
  | built salt op hop hrun =>
    obtain ⟨deployer, rfl⟩ := hsdk.createContract hop
    obtain ⟨_, hreturned, hdecode⟩ := hrun.returned ho
    obtain ⟨a, rfl, ha⟩ := addressOfReturnValue_eq_ok.mp hdecode
    exact ⟨deployer, salt, a, hreturned.append_left [_], ha⟩

/-- A scope around an upload or a creation does not matter. -/
theorem exists_of_runs_withSigner {α : Type} {body : Signer → Async α} {x : α}
    (h : Runs (withSigner body).run t (.returned (.ok x))) :
    ∃ signer t', Runs (body signer).run t' (.returned (.ok x)) ∧ InScope t' t := by
  obtain ⟨-, ho⟩ | ⟨signer, t', o', hbody, hscope, ho⟩ := (runs_withSigner.mp h).exists_body
  · exact absurd rfl (ho x)
  · exact ⟨signer, t', ho _ rfl ▸ hbody, hscope⟩

/-- A call of one of the two versions of `deploy_contract`. -/
inductive DeployCall
  | deployContract (networkPassphrase : String) (signer : Signer) (pollCfg : PollConfig)
  | clientDeployContract (client : Client)

/-- The call, for the code `wasm` and the arguments of its constructor. -/
def DeployCall.call (sdk : Sdk) (wasm : ByteArray) (args : List ScVal) :
    DeployCall → Async (String × Hash)
  | deployContract networkPassphrase signer pollCfg =>
    StellarRustClient.deployContract sdk networkPassphrase signer wasm args pollCfg
  | clientDeployContract client => client.deployContract sdk wasm args

/-- An upload that returns a hash, and then a creation for that hash that returns an address. -/
theorem returned_of_steps {p : Async Hash} {q : Hash → Async String}
    (hp : ∀ t hash, Runs p.run t (.returned (.ok hash)) → UploadReturned sdk wasm hash t)
    (hq : ∀ t hash address, Runs (q hash).run t (.returned (.ok address)) →
      CreateReturned sdk hash args address t)
    (h : Runs (p >>= fun wasmHash ↦ (fun address ↦ (address, wasmHash)) <$> q wasmHash).run t
      (.returned (.ok (address, wasmHash)))) :
    UploadReturned sdk wasm wasmHash t ∧ CreateReturned sdk wasmHash args address t := by
  obtain ⟨-, ho⟩ | ⟨-, ho⟩ | ⟨_, -, ho⟩ | ⟨t₁, t₂, hash, rfl, h₁, h₂⟩ := runs_except_bind.mp h
  · cases ho
  · cases ho
  · cases ho
  · obtain ⟨_, h₃, ho⟩ := runs_except_map.mp h₂
    obtain ⟨_, rfl, heq⟩ := Outcome.map_map_eq_returned_ok.mp ho.symm
    cases heq
    obtain ⟨b, huploaded, hb⟩ := hp t₁ _ h₁
    obtain ⟨deployer, salt, a, hcreated, ha⟩ := hq t₂ _ _ h₃
    exact ⟨⟨b, huploaded.append_right t₂, hb⟩, deployer, salt, a, hcreated.append_left t₁, ha⟩

/-- A deployment that returns has landed its upload and its creation, whichever version it is. -/
theorem DeployCall.returned (hsdk : sdk.Lawful) {d : DeployCall}
    (h : Runs (d.call sdk wasm args).run t (.returned (.ok (address, wasmHash)))) :
    UploadReturned sdk wasm wasmHash t ∧ CreateReturned sdk wasmHash args address t := by
  cases d with
  | deployContract networkPassphrase signer pollCfg =>
    rw [call, deployContract_eq] at h
    refine returned_of_steps (fun t hash h ↦ ?_) (fun t hash address h ↦ ?_) h
    · exact (runs_uploadWasm.mp h).uploadReturned hsdk rfl
    · exact (runs_createContractInstance.mp h).createReturned hsdk rfl
  | clientDeployContract client =>
    rw [call, Client.deployContract_eq] at h
    refine returned_of_steps (fun t hash h ↦ ?_) (fun t hash address h ↦ ?_) h
    · obtain ⟨signer, t', hbody, hscope⟩ := exists_of_runs_withSigner h
      obtain ⟨b, hreturned, hb⟩ := (runs_uploadWasm.mp hbody).uploadReturned hsdk rfl
      exact ⟨b, hreturned.inScope hscope, hb⟩
    · obtain ⟨signer, t', hbody, hscope⟩ := exists_of_runs_withSigner h
      obtain ⟨deployer, salt, a, hreturned, ha⟩ :=
        (runs_createContractInstance.mp hbody).createReturned hsdk rfl
      exact ⟨deployer, salt, a, hreturned.inScope hscope, ha⟩

/-! ## The reading -/

/-- The code that an entry names, where it is an instance that runs any. -/
def LedgerEntryResult.codeHash (entry : LedgerEntryResult) : Option Hash :=
  match entry.toData with
  | some (.contractInstance (.wasm hash) _) => some hash
  | _ => none

/-- What `wasm_hash_of` makes of a reply: an entry that is not found names no code. -/
def codeHashOfReply (sdk : Sdk) :
    Except RpcError LedgerEntryResult → Except SorobanUtilsError (Option Hash)
  | .error .contractDataNotFound => .ok none
  | .error e => .error (rpcError sdk e)
  | .ok entry => .ok entry.codeHash

theorem wasmHashOf_eq : wasmHashOf sdk address =
    Prog.ask (.getContractData address instanceKey .persistent) (codeHashOfReply sdk) := by
  have hentry (entry : LedgerEntryResult) :
      (match entry.toData with
        | some (.contractInstance (.wasm hash) _) => pure (some hash)
        | _ => pure none : Async (Option Hash)) = Prog.lift (.ok entry.codeHash) := by
    rw [LedgerEntryResult.codeHash]
    split <;> rfl
  refine congrArg (Prog.call (Call.getContractData address instanceKey .persistent))
    (funext fun r ↦ ?_)
  rcases r with e | entry
  · cases e <;> rfl
  · exact hentry entry

/-- The runs of `wasm_hash_of`: one call. -/
theorem runs_wasmHashOf {o : Outcome (Except SorobanUtilsError (Option Hash))} :
    Runs (wasmHashOf sdk address).run t o ↔ (t = [] ∧ o = .running) ∨
      ∃ r, t = [⟨.getContractData address instanceKey .persistent, r⟩] ∧
        o = .returned (codeHashOfReply sdk r) := by
  rw [wasmHashOf_eq, runs_ask]

/-! ## Any schedule -/

/-- What a reading of the instance at `address` has seen: the code with the hash `wasmHash`, or no
instance at all. -/
def SeesCode (address : String) (wasmHash : Hash) (t : List Exchange) (x : Option Hash) : Prop :=
  x = some wasmHash ∨ x = none ∧
    t = [⟨.getContractData address instanceKey .persistent, .error .contractDataNotFound⟩]

/-- **Reading a deployment back.** However the calls of any number of threads take turns, what a
deployment returns is the hash of the code that it was given, and the address of a contract that
shows this code to every reading that finds it. -/
theorem deployed_contract_reads_back (sdk : Sdk) (hsdk : sdk.Lawful) (naming : Naming)
    (pinned : Set ScAddress) (d : DeployCall) (wasm : ByteArray) (args : List ScVal)
    (address : String) (wasmHash : Hash) (x : Option Hash) (ι : Type*) [DecidableEq ι] (i j : ι)
    (s₀ s₁ s₂ : Network Contracts) (h₁ h₂ : Schedule ι Call Reply (Network Contracts))
    (hpath₁ : (networkWorld sdk (contractsProtocol sdk naming pinned)).Path s₀
      (h₁.map Prod.snd) s₁)
    (hcall : Runs (d.call sdk wasm args).run (h₁.traceOf i)
      (.returned (.ok (address, wasmHash))))
    (hpinned : ∀ a, sdk.displayScAddress a = address → a ∈ pinned)
    (hpath₂ : (networkWorld sdk (contractsProtocol sdk naming pinned)).Path s₁
      (h₂.map Prod.snd) s₂)
    (hread : Runs (wasmHashOf sdk address).run (h₂.traceOf j) (.returned (.ok x))) :
    wasmHash = naming.codeHash wasm ∧ SeesCode address wasmHash (h₂.traceOf j) x := by
  obtain ⟨⟨b, ⟨_, _, _, huploaded, hb⟩, hhash⟩, deployer, salt, a, ⟨_, _, _, hcreated, ha⟩, rfl⟩ :=
    DeployCall.returned hsdk hcall
  obtain ⟨_, _, _, _, _, -, -, -, -, hupload⟩ := huploaded.exists_lands hpath₁
  obtain ⟨_, _, _, _, _, -, -, -, -, hcreate⟩ := hcreated.exists_lands hpath₁
  refine ⟨?_, ?_⟩
  · obtain ⟨v, hpasses, hv⟩ := hupload.passes
    obtain ⟨b', rfl, hb'⟩ := Contracts.codeHash_of_passes hpasses hupload.operations
    cases hv _ hb
    exact Vector.toArray_inj.mp (hhash.symm.trans hb')
  · obtain ⟨v, hpasses, hv⟩ := hcreate.passes
    obtain ⟨a', rfl, hexecutable⟩ := Contracts.executable_of_passes hpasses hcreate.operations
    cases hv _ ha
    -- The instance runs the code from the end of the call on.
    have hcode : s₁.state.executable a = some wasmHash := hexecutable (hpinned a rfl)
    rw [wasmHashOf_eq] at hread
    obtain ⟨r, s, ht, hx, ⟨hbefore, -⟩, hreports⟩ := Network.exists_of_runs_ask hpath₂ hread
    have hcode : s.state.executable a = some wasmHash :=
      (Contracts.grows_of_reaches hbefore.reaches).executable a (hpinned a rfl) wasmHash hcode
    rcases r with e | entry
    · cases e with
      | contractDataNotFound =>
        cases hx
        exact .inr ⟨rfl, ht⟩
      | _ => cases hx
    · obtain ⟨storage, hdata⟩ := hreports rfl rfl a wasmHash rfl hcode
      cases hx
      left
      rw [LedgerEntryResult.codeHash, hdata]

/-! ## A deployment that is read -/

/-- A network on which all code has the hash zero, and all contracts would have the same address. -/
def Naming.sample : Naming where
  codeHash _ := zeroHash
  contractId _ _ := .contract zeroHash

namespace Deployment

/-- A network with nothing on it. -/
def start : Network Contracts where
  state := ⟨∅, fun _ ↦ none⟩
  submitted := ∅
  succeeded := ∅

/-- The network once the upload is sent. -/
def uploading : Network Contracts :=
  { start with submitted := insert sampleUpload.contents ∅ }

/-- The network once the upload has succeeded. -/
def uploaded : Network Contracts :=
  { uploading with
    state := ⟨insert zeroHash ∅, fun _ ↦ none⟩
    succeeded := insert (sampleUpload.contents, some zeroHashVal) ∅ }

/-- The network once the creation is sent. -/
def creating : Network Contracts :=
  { uploaded with submitted := insert sampleCreate.contents uploaded.submitted }

/-- The network once the creation has succeeded. -/
def created : Network Contracts :=
  { creating with
    state :=
      ⟨insert zeroHash ∅, Function.update (fun _ ↦ none) (.contract zeroHash) (some zeroHash)⟩
    succeeded := insert (sampleCreate.contents, some (.address (.contract zeroHash)))
      uploaded.succeeded }

/-- The exchanges before the creation is sent. -/
def uncreated : List Exchange :=
  [⟨.salt, zeroHash⟩, ⟨.getFeeStats, .error (.other "")⟩, ⟨.getAccount "G", .ok ⟨"G", 8⟩⟩,
    ⟨.prepareTransaction sampleCreate, .ok sampleCreate⟩,
    ⟨.sign .sample sampleCreate NetworkConfig.testnet.networkPassphrase, .ok sampleCreate⟩]

/-- The exchanges before the upload is sent. -/
def unuploaded : List Exchange :=
  unsignedUpload ++
  [⟨.sign .sample sampleUpload NetworkConfig.testnet.networkPassphrase, .ok sampleUpload⟩]

/-- The exchanges of the deployment, of one thread of two. -/
def schedule : Schedule Bool Call Reply (Network Contracts) :=
  unuploaded.map (true, start, ·) ++
  ((true, start, ⟨.sendTransaction sampleUpload, .ok ⟨.pending, sampleUpload.hexHash .sample⟩⟩) ::
    (true, uploading, ⟨.now, 0⟩) ::
    (true, uploaded, ⟨.getTransaction (sampleUpload.hexHash .sample),
      .ok ⟨.success, some (some zeroHashVal)⟩⟩) ::
    (uncreated.map (true, uploaded, ·) ++
    [(true, uploaded,
        ⟨.sendTransaction sampleCreate, .ok ⟨.pending, sampleCreate.hexHash .sample⟩⟩),
      (true, creating, ⟨.now, 0⟩),
      (true, created, ⟨.getTransaction (sampleCreate.hexHash .sample),
        .ok ⟨.success, some (some (.address (.contract zeroHash)))⟩⟩)]))

/-- The exchange of the reading, of the other. -/
def reading : Schedule Bool Call Reply (Network Contracts) :=
  [(false, created, ⟨.getContractData "C" instanceKey .persistent,
    .ok ⟨some (.contractInstance (.wasm zeroHash) none), none⟩⟩)]

/-- The world of the runs below. -/
abbrev world : World Call Reply (Network Contracts) :=
  networkWorld .sample (contractsProtocol .sample .sample Set.univ)

theorem path_unuploaded : world.Path start (unuploaded.map (start, ·)) start := by
  refine World.path_of_stationary .refl ?_
  simp [unuploaded, unsignedUpload, networkWorld, contractsProtocol, Network.Answers,
    Contracts.Reports, Network.after, start]

theorem path_uncreated : world.Path uploaded (uncreated.map (uploaded, ·)) uploaded := by
  have hsequence : sampleUpload.contents.sequence ≤ 8 := by decide
  refine World.path_of_stationary .refl ?_
  simp [uncreated, networkWorld, contractsProtocol, Network.Answers, Contracts.Reports,
    Network.after, uploaded, hsequence]

theorem path_schedule : world.Path start (schedule.map Prod.snd) created := by
  have hupload : world.drift uploading uploaded :=
    .single (.succeed _ _ _ _ (Set.mem_insert _ _) (.upload _ _ rfl rfl))
  have hcreate : world.drift creating created :=
    .single (.succeed _ _ _ _ (Set.mem_insert _ _) (.create _ rfl (Set.mem_insert _ _) rfl))
  refine path_unuploaded.append (.cons .refl ⟨⟨trivial, trivial⟩, rfl⟩ (.cons .refl
    ⟨⟨trivial, trivial⟩, rfl⟩ (.cons hupload ⟨⟨?_, trivial⟩, rfl⟩ (path_uncreated.append (.cons
      .refl ⟨⟨trivial, trivial⟩, rfl⟩ (.cons .refl ⟨⟨trivial, trivial⟩, rfl⟩ (.cons hcreate
        ⟨⟨?_, trivial⟩, rfl⟩ (.nil _))))))))
  · rintro _ c hc -
    obtain rfl | hc := hc
    · exact ⟨some zeroHashVal, Set.mem_insert _ _, by simp⟩
    · exact hc.elim
  · rintro _ c hc hhash
    obtain rfl | rfl | hc := hc
    · exact ⟨_, Set.mem_insert _ _, by simp⟩
    · cases (by decide : Ledger.hexHash .sample sampleUpload.contents ≠
        sampleCreate.hexHash .sample) hhash
    · exact hc.elim

theorem path_reading : world.Path created (reading.map Prod.snd) created := by
  refine .cons .refl ⟨⟨trivial, ?_⟩, rfl⟩ (.nil _)
  rintro - - a wasmHash - ha
  have hhash : wasmHash = zeroHash := by
    change Function.update (fun _ ↦ none) (.contract zeroHash) (some zeroHash) a = _ at ha
    by_cases h : a = .contract zeroHash
    · rw [h, Function.update_self] at ha
      exact (Option.some.inj ha).symm
    · rw [Function.update_of_ne h] at ha
      cases ha
  exact ⟨none, by rw [hhash]⟩

/-- A deployment of no code at all, read by someone else. -/
theorem deployment_reads_back :
    zeroHash = Naming.sample.codeHash ⟨#[]⟩ ∧
      SeesCode "C" zeroHash (reading.traceOf false) (some zeroHash) :=
  deployed_contract_reads_back .sample Sdk.sample_lawful .sample Set.univ
    (.deployContract NetworkConfig.testnet.networkPassphrase .sample .default) ⟨#[]⟩ [] "C"
    zeroHash _ Bool true false start created created schedule reading path_schedule
    runs_deployedRun (fun _ _ ↦ Set.mem_univ _) path_reading
    (runs_wasmHashOf.mpr (.inr ⟨_, rfl, rfl⟩))

end Deployment

end StellarRustClient
