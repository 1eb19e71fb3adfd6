import StellarRustClient.Deploy.TwoStep
import StellarRustClient.Interaction.Determinism

/-!
# The two versions of a deployment agree

`deploy::deploy_contract` is handed one signer; `Client::deploy_contract` builds one for each
transaction and drops it again. `seen signer t` is what is left of a run when the life of signers is
not looked at and whoever signs is taken for `signer`: the calls to the node, the clock and the
salt, and what was signed. With signers of the same account, the two versions have the same runs up
to `seen`.
-/

namespace StellarRustClient

open Interaction

variable {sdk : Sdk} {α β : Type} {networkPassphrase : String} {signer s : Signer}
  {pollCfg : PollConfig} {t t' : List Exchange} {wasm : ByteArray} {wasmHash : Hash}
  {args : List ScVal}

/-- An exchange without the life of a signer, and signed by `signer`. -/
def seenAs (signer : Signer) : Exchange → Option Exchange
  | ⟨.buildSigner, _⟩ => none
  | ⟨.dropSigner _, _⟩ => none
  | ⟨.sign _ tx networkPassphrase, r⟩ => some ⟨.sign signer tx networkPassphrase, r⟩
  | x => some x

/-- The exchanges of a run, as far as they are seen. -/
def seen (signer : Signer) (t : List Exchange) : List Exchange :=
  t.filterMap (seenAs signer)

@[simp] theorem seen_append (t t' : List Exchange) :
    seen signer (t ++ t') = seen signer t ++ seen signer t' :=
  List.filterMap_append ..

/-- The life of a signer is not seen. -/
@[simp] theorem seen_scope (t : List Exchange) (r : Except SorobanUtilsError Signer) :
    seen signer (⟨.buildSigner, r⟩ :: (t ++ [⟨.dropSigner s, ()⟩])) = seen signer t := by
  have hdrop : seen signer [⟨.dropSigner s, ()⟩] = [] := rfl
  have hbuild (t : List Exchange) : seen signer (⟨.buildSigner, r⟩ :: t) = seen signer t := rfl
  rw [hbuild, seen_append, hdrop, List.append_nil]

@[simp] theorem seen_buildSigner (t : List Exchange) (r : Except SorobanUtilsError Signer) :
    seen signer (⟨.buildSigner, r⟩ :: t) = seen signer t := rfl

/-- Calls that are seen as they are, when `signer` signs. -/
def IsSeen (signer : Signer) : Call → Prop
  | .buildSigner => False
  | .dropSigner _ => False
  | .sign s _ _ => s = signer
  | _ => True

theorem seen_eq_self (ht : ∀ x ∈ t, IsSeen signer x.1) : seen signer t = t := by
  induction t with
  | nil => rfl
  | cons x t ih =>
    obtain ⟨hx, ht⟩ := List.forall_mem_cons.mp ht
    have hsome : seenAs signer x = some x := by
      obtain ⟨c, r⟩ := x
      cases c with
      | sign s tx networkPassphrase =>
        cases hx
        rfl
      | buildSigner => exact hx.elim
      | dropSigner s => exact hx.elim
      | _ => rfl
    rw [seen, List.filterMap_cons_some hsome]
    exact congrArg (x :: ·) (ih ht)

/-- It does not matter as whose an exchange was seen before. -/
theorem seen_seen : seen signer (seen s t) = seen signer t := by
  rw [seen, seen, seen, List.filterMap_filterMap]
  refine List.filterMap_congr fun x _ ↦ ?_
  obtain ⟨c, r⟩ := x
  cases c <;> rfl

theorem isSeen_of_mem_seen {x : Exchange} (hx : x ∈ seen signer t) : IsSeen signer x.1 := by
  obtain ⟨⟨c, r⟩, -, hsome⟩ := List.mem_filterMap.mp hx
  cases c <;> cases hsome <;> trivial

/-! ## One submission -/

theorem IsPollCall.isSeen {hash : String} {c : Call} (h : IsPollCall hash c) : IsSeen signer c := by
  cases c <;> trivial

namespace LegRun

variable {prepared : Transaction} {o : SubmissionOutcome}
  (h : LegRun sdk networkPassphrase s prepared pollCfg t o)
include h

theorem isSeen : ∀ x ∈ t, IsSeen s x.1 := by
  cases h with
  | signing => simp
  | signFailed e => simp [IsSeen]
  | sending signed => simp [IsSeen]
  | sendFailed signed e => simp [IsSeen]
  | polling signed response hpoll =>
    refine List.forall_mem_cons.mpr ⟨rfl, List.forall_mem_cons.mpr ⟨trivial, fun x hx ↦ ?_⟩⟩
    exact ((pollTransactionStatus_spec hpoll).1 x hx).isSeen

/-- A leg with one signer is seen as a leg with the other. -/
theorem seen : LegRun sdk networkPassphrase signer prepared pollCfg (seen signer t) o := by
  cases h with
  | signing => exact .signing
  | signFailed e => exact .signFailed e
  | sending signed => exact .sending signed
  | sendFailed signed e => exact .sendFailed signed e
  | @polling signed response t o hpoll =>
    have hself : StellarRustClient.seen signer t = t :=
      seen_eq_self fun x hx ↦ ((pollTransactionStatus_spec hpoll).1 x hx).isSeen
    have hseen : StellarRustClient.seen signer
        (⟨.sign s prepared networkPassphrase, .ok signed⟩ ::
          ⟨.sendTransaction signed, .ok response⟩ :: t) =
        ⟨.sign signer prepared networkPassphrase, .ok signed⟩ ::
          ⟨.sendTransaction signed, .ok response⟩ :: StellarRustClient.seen signer t := rfl
    rw [hseen, hself]
    exact .polling signed response hpoll

end LegRun

theorem PrepareAndSendRun.isSeen {address : String} {op : Operation} {fee : UInt32}
    {o : SubmissionOutcome}
    (h : PrepareAndSendRun sdk networkPassphrase address op fee s pollCfg t o) :
    ∀ x ∈ t, IsSeen s x.1 := by
  cases h with
  | leg account prepared hleg =>
    exact List.forall_mem_cons.mpr ⟨trivial, List.forall_mem_cons.mpr ⟨trivial, hleg.isSeen⟩⟩
  | _ => simp [IsSeen]

theorem PrepareAndSendRun.seen {address : String} {op : Operation} {fee : UInt32}
    {o : SubmissionOutcome}
    (h : PrepareAndSendRun sdk networkPassphrase address op fee s pollCfg t o) :
    PrepareAndSendRun sdk networkPassphrase address op fee signer pollCfg (seen signer t) o := by
  cases h with
  | fetching => exact .fetching
  | fetchFailed e => exact .fetchFailed e
  | preparing account => exact .preparing account
  | prepareFailed account e => exact .prepareFailed account e
  | leg account prepared hleg => exact .leg account prepared hleg.seen

/-! ## One step -/

theorem DecodedRun.isSeen {op : Operation} {decode : ScVal → Except SorobanUtilsError β}
    {o : Outcome (Except SorobanUtilsError β)}
    (h : DecodedRun sdk networkPassphrase s op pollCfg decode t o) : ∀ x ∈ t, IsSeen s x.1 := by
  cases h with
  | bidding => simp
  | submitted stats hsend => exact List.forall_mem_cons.mpr ⟨trivial, hsend.isSeen⟩

theorem DecodedRun.seen {op : Operation} {decode : ScVal → Except SorobanUtilsError β}
    {o : Outcome (Except SorobanUtilsError β)}
    (h : DecodedRun sdk networkPassphrase s op pollCfg decode t o)
    (hkey : s.publicKey = signer.publicKey) :
    DecodedRun sdk networkPassphrase signer op pollCfg decode (seen signer t) o := by
  cases h with
  | bidding => exact .bidding
  | submitted stats hsend =>
    rw [hkey] at hsend
    exact .submitted stats hsend.seen

theorem UploadRun.isSeen {o : Outcome (Except SorobanUtilsError Hash)}
    (h : UploadRun sdk networkPassphrase s wasm pollCfg t o) : ∀ x ∈ t, IsSeen s x.1 := by
  cases h with
  | notBuilt e hop => simp
  | built op hop hrun => exact hrun.isSeen

theorem UploadRun.seen {o : Outcome (Except SorobanUtilsError Hash)}
    (h : UploadRun sdk networkPassphrase s wasm pollCfg t o)
    (hkey : s.publicKey = signer.publicKey) :
    UploadRun sdk networkPassphrase signer wasm pollCfg (seen signer t) o := by
  cases h with
  | notBuilt e hop => exact .notBuilt e hop
  | built op hop hrun => exact .built op hop (hrun.seen hkey)

theorem CreateRun.isSeen {o : Outcome (Except SorobanUtilsError String)}
    (h : CreateRun sdk networkPassphrase s wasmHash args pollCfg t o) : ∀ x ∈ t, IsSeen s x.1 := by
  cases h with
  | salting => simp
  | notBuilt salt e hop => simp [IsSeen]
  | built salt op hop hrun => exact List.forall_mem_cons.mpr ⟨trivial, hrun.isSeen⟩

theorem CreateRun.seen {o : Outcome (Except SorobanUtilsError String)}
    (h : CreateRun sdk networkPassphrase s wasmHash args pollCfg t o)
    (hkey : s.publicKey = signer.publicKey) :
    CreateRun sdk networkPassphrase signer wasmHash args pollCfg (seen signer t) o := by
  cases h with
  | salting => exact .salting
  | notBuilt salt e hop => exact .notBuilt salt e (hkey ▸ hop)
  | built salt op hop hrun => exact .built salt op (hkey ▸ hop) (hrun.seen hkey)

/-- Both functions have a run before their first call is answered. -/
theorem exists_uploadRun_nil : ∃ o, UploadRun sdk networkPassphrase signer wasm pollCfg [] o := by
  cases hop : sdk.uploadWasm wasm with
  | error e => exact ⟨_, .notBuilt e hop⟩
  | ok op => exact ⟨_, .built op hop .bidding⟩

/-! ## Scopes -/

/-- Every signer that is built is one of the account of `signer`. -/
def BuildsAlike (signer : Signer) (t : List Exchange) : Prop :=
  ∀ r, (⟨.buildSigner, r⟩ : Exchange) ∈ t → ∃ s, r = .ok s ∧ s.publicKey = signer.publicKey

theorem BuildsAlike.mono (h : BuildsAlike signer t) (hsub : t' ⊆ t) : BuildsAlike signer t' :=
  fun r hmem ↦ h r (hsub hmem)

/-- A scope is seen as its body with `signer`; a scope that has not ended may have a body that
has. -/
theorem ScopeRun.seen {P : Signer → List Exchange → Outcome (Except SorobanUtilsError α) → Prop}
    {o : Outcome (Except SorobanUtilsError α)} (h : ScopeRun P t o) (ht : BuildsAlike signer t)
    (hP : ∀ s t o, s.publicKey = signer.publicKey → P s t o → P signer (seen signer t) o)
    (hstart : ∃ o, P signer [] o) :
    ∃ o', P signer (seen signer t) o' ∧ (o ≠ .running → o' = o) := by
  have hkey {s : Signer} (hmem : ⟨.buildSigner, .ok s⟩ ∈ t) : s.publicKey = signer.publicKey := by
    obtain ⟨_, ⟨rfl⟩, hkey⟩ := ht _ hmem
    exact hkey
  cases h with
  | building =>
    obtain ⟨o, ho⟩ := hstart
    exact ⟨o, ho, fun hne ↦ absurd rfl hne⟩
  | notBuilt e =>
    obtain ⟨_, ⟨⟩, _⟩ := ht _ List.mem_cons_self
  | inside s hbody ho =>
    rw [seen_buildSigner]
    exact ⟨_, hP s _ _ (hkey List.mem_cons_self) hbody, fun _ ↦ rfl⟩
  | dropping s hbody =>
    rw [seen_buildSigner]
    exact ⟨_, hP s _ _ (hkey List.mem_cons_self) hbody, fun hne ↦ absurd rfl hne⟩
  | @dropped s t x hbody =>
    rw [seen_scope]
    exact ⟨_, hP s _ _ (hkey List.mem_cons_self) hbody, fun _ ↦ rfl⟩

/-- A run of a body is seen in a scope that builds `s`. -/
theorem exists_scopeRun {P : Signer → List Exchange → Outcome (Except SorobanUtilsError α) → Prop}
    {o : Outcome (Except SorobanUtilsError α)} (h : P s (seen s t) o)
    (ht : ∀ x ∈ t, IsSeen signer x.1) :
    ∃ t', ScopeRun P t' o ∧ seen signer t' = t ∧
      ∀ r, (⟨.buildSigner, r⟩ : Exchange) ∈ t' → r = .ok s := by
  have hseen : seen signer (seen s t) = t := by
    rw [seen_seen, seen_eq_self ht]
  have hbuild (r : Except SorobanUtilsError Signer) :
      (⟨.buildSigner, r⟩ : Exchange) ∉ seen s t := isSeen_of_mem_seen
  rcases o with _ | _ | x
  · exact ⟨_, .inside s h (by simp), hseen, by simp [hbuild]⟩
  · exact ⟨_, .inside s h (by simp), hseen, by simp [hbuild]⟩
  · exact ⟨_, .dropped s h, by rw [seen_scope, hseen], by simp [hbuild]⟩

/-! ## The methods of the client -/

variable {client : Client}

theorem uploadWasm_seen {o : Outcome (Except SorobanUtilsError Hash)}
    (h : Runs (client.uploadWasm sdk wasm).run t o) (ht : BuildsAlike signer t) :
    ∃ o', Runs (uploadWasm sdk client.network.networkPassphrase signer wasm client.pollCfg).run
      (seen signer t) o' ∧ (o ≠ .running → o' = o) := by
  have hscope := runs_withSigner.mp h
  simp only [runs_uploadWasm] at hscope ⊢
  exact hscope.seen ht (fun s t o hkey hrun ↦ hrun.seen hkey) exists_uploadRun_nil

theorem createContractInstance_seen {o : Outcome (Except SorobanUtilsError String)}
    (h : Runs (client.createContractInstance sdk wasmHash args).run t o)
    (ht : BuildsAlike signer t) :
    ∃ o', Runs (createContractInstance sdk client.network.networkPassphrase signer wasmHash args
      client.pollCfg).run (seen signer t) o' ∧ (o ≠ .running → o' = o) := by
  have hscope := runs_withSigner.mp h
  simp only [runs_createContractInstance] at hscope ⊢
  exact hscope.seen ht (fun s t o hkey hrun ↦ hrun.seen hkey) ⟨_, .salting⟩

theorem exists_client_uploadWasm {o : Outcome (Except SorobanUtilsError Hash)}
    (h : Runs (uploadWasm sdk client.network.networkPassphrase signer wasm client.pollCfg).run t o)
    (hkey : s.publicKey = signer.publicKey) :
    ∃ t', Runs (client.uploadWasm sdk wasm).run t' o ∧ seen signer t' = t ∧
      ∀ r, (⟨.buildSigner, r⟩ : Exchange) ∈ t' → r = .ok s := by
  have hrun := runs_uploadWasm.mp h
  have hbody := runs_uploadWasm.mpr (hrun.seen hkey.symm)
  obtain ⟨t', hscope, ht'⟩ := exists_scopeRun
    (P := fun s t o ↦ Runs (uploadWasm sdk client.network.networkPassphrase s wasm
      client.pollCfg).run t o) hbody hrun.isSeen
  exact ⟨t', runs_withSigner.mpr hscope, ht'⟩

theorem exists_client_createContractInstance {o : Outcome (Except SorobanUtilsError String)}
    (h : Runs (createContractInstance sdk client.network.networkPassphrase signer wasmHash args
      client.pollCfg).run t o) (hkey : s.publicKey = signer.publicKey) :
    ∃ t', Runs (client.createContractInstance sdk wasmHash args).run t' o ∧ seen signer t' = t ∧
      ∀ r, (⟨.buildSigner, r⟩ : Exchange) ∈ t' → r = .ok s := by
  have hrun := runs_createContractInstance.mp h
  have hbody := runs_createContractInstance.mpr (hrun.seen hkey.symm)
  obtain ⟨t', hscope, ht'⟩ := exists_scopeRun
    (P := fun s t o ↦ Runs (createContractInstance sdk client.network.networkPassphrase s wasmHash
      args client.pollCfg).run t o) hbody hrun.isSeen
  exact ⟨t', runs_withSigner.mpr hscope, ht'⟩

/-- What the client does is seen as a run of `deploy_contract` with `signer`. -/
theorem deployContract_seen {o : Outcome (Except SorobanUtilsError (String × Hash))}
    (h : Runs (client.deployContract sdk wasm args).run t o) (ht : BuildsAlike signer t) :
    ∃ o', Runs (deployContract sdk client.network.networkPassphrase signer wasm args
      client.pollCfg).run (seen signer t) o' ∧ (o ≠ .running → o' = o) := by
  rw [Client.deployContract_eq] at h
  rw [deployContract_eq]
  obtain ⟨h₁, rfl⟩ | ⟨h₁, rfl⟩ | ⟨e, h₁, rfl⟩ | ⟨t₁, t₂, hash, rfl, h₁, h₂⟩ := runs_except_bind.mp h
  · obtain ⟨o', h₁', -⟩ := uploadWasm_seen h₁ ht
    simp only [ne_eq, not_true_eq_false, false_implies, and_true]
    -- The body may have ended where the client still waits for the end of its scope.
    rcases o' with _ | _ | e | hash
    · exact ⟨_, runs_except_bind.mpr (.inl ⟨h₁', rfl⟩)⟩
    · exact ⟨_, runs_except_bind.mpr (.inr (.inl ⟨h₁', rfl⟩))⟩
    · exact ⟨_, runs_except_bind.mpr (.inr (.inr (.inl ⟨e, h₁', rfl⟩)))⟩
    · refine ⟨.running, runs_except_bind.mpr (.inr (.inr (.inr ⟨_, [], hash, ?_, h₁', ?_⟩)))⟩
      · rw [List.append_nil]
      · exact runs_except_map.mpr ⟨.running, runs_createContractInstance.mpr .salting, rfl⟩
  · obtain ⟨o', h₁', ho'⟩ := uploadWasm_seen h₁ ht
    cases ho' (by simp)
    exact ⟨_, runs_except_bind.mpr (.inr (.inl ⟨h₁', rfl⟩)), fun _ ↦ rfl⟩
  · obtain ⟨o', h₁', ho'⟩ := uploadWasm_seen h₁ ht
    cases ho' (by simp)
    exact ⟨_, runs_except_bind.mpr (.inr (.inr (.inl ⟨e, h₁', rfl⟩))), fun _ ↦ rfl⟩
  · obtain ⟨o₁, h₁', ho₁⟩ := uploadWasm_seen h₁ (ht.mono (List.subset_append_left _ _))
    cases ho₁ (by simp)
    obtain ⟨o, hcreate, rfl⟩ := runs_except_map.mp h₂
    obtain ⟨o₂, h₂', ho₂⟩ :=
      createContractInstance_seen hcreate (ht.mono (List.subset_append_right _ _))
    refine ⟨o₂.map (Except.map fun address ↦ (address, hash)), ?_, fun hne ↦ ?_⟩
    · refine runs_except_bind.mpr (.inr (.inr (.inr ⟨_, _, hash, seen_append t₁ t₂, h₁', ?_⟩)))
      exact runs_except_map.mpr ⟨o₂, h₂', rfl⟩
    · rw [ho₂ fun hrunning ↦ hne (by rw [hrunning]; rfl)]

/-- Every run of `deploy_contract` with `signer` is what is seen of the client, when the factory
builds `s` each time. -/
theorem exists_client_deployContract {o : Outcome (Except SorobanUtilsError (String × Hash))}
    (h : Runs (deployContract sdk client.network.networkPassphrase signer wasm args
      client.pollCfg).run t o) (hkey : s.publicKey = signer.publicKey) :
    ∃ t', Runs (client.deployContract sdk wasm args).run t' o ∧ seen signer t' = t ∧
      ∀ r, (⟨.buildSigner, r⟩ : Exchange) ∈ t' → r = .ok s := by
  rw [deployContract_eq] at h
  rw [Client.deployContract_eq]
  obtain ⟨h₁, rfl⟩ | ⟨h₁, rfl⟩ | ⟨e, h₁, rfl⟩ | ⟨t₁, t₂, hash, rfl, h₁, h₂⟩ := runs_except_bind.mp h
  · obtain ⟨t', h₁', ht'⟩ := exists_client_uploadWasm h₁ hkey
    exact ⟨t', runs_except_bind.mpr (.inl ⟨h₁', rfl⟩), ht'⟩
  · obtain ⟨t', h₁', ht'⟩ := exists_client_uploadWasm h₁ hkey
    exact ⟨t', runs_except_bind.mpr (.inr (.inl ⟨h₁', rfl⟩)), ht'⟩
  · obtain ⟨t', h₁', ht'⟩ := exists_client_uploadWasm h₁ hkey
    exact ⟨t', runs_except_bind.mpr (.inr (.inr (.inl ⟨e, h₁', rfl⟩))), ht'⟩
  · obtain ⟨t₁', h₁', ht₁, hs₁⟩ := exists_client_uploadWasm h₁ hkey
    obtain ⟨o₂, hcreate, rfl⟩ := runs_except_map.mp h₂
    obtain ⟨t₂', h₂', ht₂, hs₂⟩ := exists_client_createContractInstance hcreate hkey
    refine ⟨t₁' ++ t₂', ?_, by rw [seen_append, ht₁, ht₂], fun r hmem ↦ ?_⟩
    · refine runs_except_bind.mpr (.inr (.inr (.inr ⟨_, _, hash, rfl, h₁', ?_⟩)))
      exact runs_except_map.mpr ⟨_, h₂', rfl⟩
    · exact (List.mem_append.mp hmem).elim (hs₁ r) (hs₂ r)

/-! ## The two versions -/

/-- The two steps of a deployment, in both versions, and their agreement. -/
structure TwoStepDeployment (sdk : Sdk) (client : Client) (signer : Signer) (wasm : ByteArray)
    (args : List ScVal) : Prop where
  /-- `deploy::deploy_contract`, with any signer. -/
  free : ∀ t o, PrepareKeepsOperations t → SignerKeepsContents t →
    Runs (deployContract sdk client.network.networkPassphrase signer wasm args
      client.pollCfg).run t o → TwoStep sdk wasm args t o
  /-- `Client::deploy_contract`, with any factory. -/
  method : ∀ t o, PrepareKeepsOperations t → SignerKeepsContents t →
    Runs (client.deployContract sdk wasm args).run t o → TwoStep sdk wasm args t o
  /-- Whatever the client does is a run of the other version, with the same result. -/
  seen : ∀ t o, Runs (client.deployContract sdk wasm args).run t o → BuildsAlike signer t →
    ∃ o', Runs (deployContract sdk client.network.networkPassphrase signer wasm args
      client.pollCfg).run (seen signer t) o' ∧ (o ≠ .running → o' = o)
  /-- Whatever the other version does is done by the client, with the same result. -/
  exists_seen : ∀ t o s, Runs (deployContract sdk client.network.networkPassphrase signer wasm args
      client.pollCfg).run t o → s.publicKey = signer.publicKey →
    ∃ t', Runs (client.deployContract sdk wasm args).run t' o ∧
      StellarRustClient.seen signer t' = t ∧
        ∀ r, (⟨.buildSigner, r⟩ : Exchange) ∈ t' → r = .ok s
  /-- On the same replies they issue the same calls and end alike. -/
  sameWay : ∀ t o t' o', Runs (client.deployContract sdk wasm args).run t o →
    BuildsAlike signer t → o ≠ .running →
    Runs (deployContract sdk client.network.networkPassphrase signer wasm args
      client.pollCfg).run t' o' →
    SameWay (StellarRustClient.seen signer t) o t' o'

/-- **Two-step deployment.** -/
theorem twoStepDeployment (sdk : Sdk) (hsdk : sdk.Lawful) (client : Client) (signer : Signer)
    (wasm : ByteArray) (args : List ScVal) :
    TwoStepDeployment sdk client signer wasm args where
  free t o hprepare hsigner h := deployContract_twoStep hsdk hprepare hsigner h
  method t o hprepare hsigner h := Client.deployContract_twoStep hsdk hprepare hsigner h
  seen t o h ht := deployContract_seen h ht
  exists_seen t o s h hkey := exists_client_deployContract h hkey
  sameWay t o t' o' h ht ho h' := by
    obtain ⟨o'', h'', ho''⟩ := deployContract_seen h ht
    rw [← ho'' ho]
    exact h''.sameWay h'

/-! ## A deployment that succeeds -/

/-- The creation of an instance of what `uploadedRun` uploads. -/
def sampleCreate : Transaction :=
  unprepared NetworkConfig.testnet.networkPassphrase
    (.createContract (.account zeroHash) zeroHash zeroHash []) minBaseFee ⟨"G", 8⟩

/-- The exchanges of the creation, which is polled as a success. -/
def createdRun : List Exchange :=
  ⟨.salt, zeroHash⟩ :: ⟨.getFeeStats, .error (.other "")⟩ :: ⟨.getAccount "G", .ok ⟨"G", 8⟩⟩ ::
    ⟨.prepareTransaction sampleCreate, .ok sampleCreate⟩ ::
    resultLeg sampleCreate (some (some (.address (.contract zeroHash))))

theorem runs_createdRun : Runs (createContractInstance .sample
    NetworkConfig.testnet.networkPassphrase .sample zeroHash [] .default).run createdRun
    (.returned (.ok "C")) :=
  runs_createContractInstance.mpr
    (.built zeroHash (.createContract (.account zeroHash) zeroHash zeroHash []) rfl
      (.submitted _ (.leg _ _ (legRun_resultLeg sampleCreate _))))

/-- The exchanges of a deployment whose transactions are both polled as successes. -/
def deployedRun : List Exchange :=
  uploadedRun ++ createdRun

theorem runs_deployedRun : Runs (deployContract .sample NetworkConfig.testnet.networkPassphrase
    .sample ⟨#[]⟩ [] .default).run deployedRun (.returned (.ok ("C", zeroHash))) := by
  rw [deployContract_eq]
  refine runs_except_bind.mpr (.inr (.inr (.inr ⟨_, _, zeroHash, rfl, ?_, ?_⟩)))
  · exact runs_uploadWasm.mpr uploadRun_uploadedRun
  · exact runs_except_map.mpr ⟨.returned (.ok "C"), runs_createdRun, rfl⟩

/-- The exchanges of the same deployment by the client, which builds a signer for each step. -/
def clientDeployedRun : List Exchange :=
  (⟨.buildSigner, .ok .sample⟩ :: (uploadedRun ++ [⟨.dropSigner .sample, ()⟩])) ++
    (⟨.buildSigner, .ok .sample⟩ :: (createdRun ++ [⟨.dropSigner .sample, ()⟩]))

theorem runs_clientDeployedRun : Runs (Client.sample.deployContract .sample ⟨#[]⟩ []).run
    clientDeployedRun (.returned (.ok ("C", zeroHash))) := by
  rw [Client.deployContract_eq]
  refine runs_except_bind.mpr (.inr (.inr (.inr ⟨_, _, zeroHash, rfl, ?_, ?_⟩)))
  · exact runs_withSigner.mpr (.dropped .sample (runs_uploadWasm.mpr uploadRun_uploadedRun))
  · exact runs_except_map.mpr
      ⟨.returned (.ok "C"), runs_withSigner.mpr (.dropped .sample runs_createdRun), rfl⟩

theorem keeps_clientDeployedRun :
    PrepareKeepsOperations clientDeployedRun ∧ SignerKeepsContents clientDeployedRun := by
  constructor
  · intro q prepared hmem
    simp [clientDeployedRun, createdRun, uploadedRun, unsignedUpload, resultLeg] at hmem
    rcases hmem with ⟨rfl, rfl⟩ | ⟨rfl, rfl⟩ <;> rfl
  · intro signer tx networkPassphrase signed hmem
    simp [clientDeployedRun, createdRun, uploadedRun, unsignedUpload, resultLeg] at hmem
    rcases hmem with ⟨⟨-, rfl, -⟩, rfl⟩ | ⟨⟨-, rfl, -⟩, rfl⟩ <;> rfl

theorem buildsAlike_clientDeployedRun : BuildsAlike .sample clientDeployedRun := by
  intro r hmem
  simp [clientDeployedRun, createdRun, uploadedRun, unsignedUpload, resultLeg] at hmem
  exact ⟨.sample, hmem, rfl⟩

/-- Both versions, in two steps and alike. -/
theorem twoStep_deployedRun :
    TwoStep .sample ⟨#[]⟩ [] deployedRun (.returned (.ok ("C", zeroHash))) ∧
    TwoStep .sample ⟨#[]⟩ [] clientDeployedRun (.returned (.ok ("C", zeroHash))) ∧
    Runs (deployContract .sample NetworkConfig.testnet.networkPassphrase .sample ⟨#[]⟩ []
      .default).run (seen .sample clientDeployedRun) (.returned (.ok ("C", zeroHash))) ∧
    (∃ t', Runs (Client.sample.deployContract .sample ⟨#[]⟩ []).run t'
      (.returned (.ok ("C", zeroHash))) ∧ seen .sample t' = deployedRun) ∧
    SameWay (seen .sample clientDeployedRun)
      (.returned (.ok ("C", zeroHash)) : Outcome (Except SorobanUtilsError (String × Hash)))
      deployedRun (.returned (.ok ("C", zeroHash))) := by
  have h := twoStepDeployment .sample Sdk.sample_lawful .sample .sample ⟨#[]⟩ []
  obtain ⟨hprepare, hsigner⟩ := keeps_clientDeployedRun
  have hsub : deployedRun ⊆ clientDeployedRun := by
    intro x hx
    obtain hx | hx := List.mem_append.mp hx <;> simp [clientDeployedRun, hx]
  obtain ⟨o', hseen, ho'⟩ := h.seen _ _ runs_clientDeployedRun buildsAlike_clientDeployedRun
  obtain ⟨t', hmade, ht', -⟩ := h.exists_seen _ _ .sample runs_deployedRun rfl
  refine ⟨h.free _ _ (hprepare.mono hsub) (hsigner.mono hsub) runs_deployedRun,
    h.method _ _ hprepare hsigner runs_clientDeployedRun, ho' (by simp) ▸ hseen,
    ⟨t', hmade, ht'⟩, ?_⟩
  exact h.sameWay _ _ _ _ runs_clientDeployedRun buildsAlike_clientDeployedRun (by simp)
    runs_deployedRun

end StellarRustClient
