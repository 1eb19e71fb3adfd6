import StellarRustClient.Client.Scope
import StellarRustClient.Deploy.Runs

/-!
# Deployment in two steps

Both versions of `deploy_contract` upload the code, read its hash off the return value, and create
an instance of that hash. `Step` is what one transaction contributes, whichever of the two it is and
whether or not a signer scope surrounds it; `TwoStep` is what holds of the composition, and
`Step.twoStep` derives it from the two steps.
-/

namespace StellarRustClient

open Interaction

variable (sdk : Sdk) {β : Type}

/-- A transaction with the operation `op` was sent, and then polled as a success with the return
value `rv`. -/
def Confirmed (op : Operation) (rv : ScVal) (t : List Exchange) : Prop :=
  ∃ u tx r v response, t = u ++ ⟨.sendTransaction tx, r⟩ :: v ∧ tx.contents.operations = [op] ∧
    ⟨.getTransaction (tx.hexHash sdk), .ok response⟩ ∈ v ∧ response.status = .success ∧
    response.returnValue = .ok rv

/-- The code `wasm` was uploaded, and the node returned `wasmHash` for it. -/
def Uploaded (wasm : ByteArray) (wasmHash : Hash) (t : List Exchange) : Prop :=
  ∃ b : ScBytes, Confirmed sdk (.uploadContractWasm wasm) (.bytes b) t ∧
    b.data.data = wasmHash.toArray

/-- An instance of `wasmHash` was created with `args`, and the node returned `address` for it. -/
def Created (wasmHash : Hash) (args : List ScVal) (address : String) (t : List Exchange) : Prop :=
  ∃ deployer salt a, Confirmed sdk (.createContract deployer salt wasmHash args) (.address a) t ∧
    address = sdk.displayScAddress a

/-- What holds of every run of a deployment. -/
structure TwoStep (wasm : ByteArray) (args : List ScVal) (t : List Exchange)
    (o : Outcome (Except SorobanUtilsError (String × Hash))) : Prop where
  length_sends_le : (sends t).length ≤ 2
  operations : ∀ tx ∈ sends t, tx.contents.operations = [.uploadContractWasm wasm] ∨
    ∃ deployer salt wasmHash,
      tx.contents.operations = [.createContract deployer salt wasmHash args]
  /-- When a create is sent, the upload is confirmed already, with the hash that it names. -/
  createAfterUpload : ∀ u tx r v deployer salt wasmHash args',
    t = u ++ ⟨.sendTransaction tx, r⟩ :: v →
    tx.contents.operations = [.createContract deployer salt wasmHash args'] →
    args' = args ∧ Uploaded sdk wasm wasmHash u
  /-- A deployment that has ended succeeds exactly when both transactions are confirmed. -/
  returned_ok_iff : o ≠ .running → ∀ address wasmHash, o = .returned (.ok (address, wasmHash)) ↔
    ∃ u v, t = u ++ v ∧ Uploaded sdk wasm wasmHash u ∧ Created sdk wasmHash args address v

/-- What one transaction contributes: `IsOp` says which operations it may carry, and `decode` reads
its return value. -/
structure Step (IsOp : Operation → Prop) (decode : ScVal → Except SorobanUtilsError β)
    (t : List Exchange) (o : Outcome (Except SorobanUtilsError β)) : Prop where
  length_sends_le : (sends t).length ≤ 1
  operations : ∀ tx ∈ sends t, ∃ op, IsOp op ∧ tx.contents.operations = [op]
  returned_ok_iff : o ≠ .running → ∀ y, o = .returned (.ok y) ↔
    ∃ op rv, IsOp op ∧ Confirmed sdk op rv t ∧ decode rv = .ok y

variable {sdk} {networkPassphrase : String} {signer : Signer} {pollCfg : PollConfig}
  {t t' : List Exchange} {op : Operation} {rv : ScVal} {wasm : ByteArray} {wasmHash : Hash}
  {args : List ScVal} {address : String}

/-! ## Confirmations in a trace -/

theorem Confirmed.append (h : Confirmed sdk op rv t) (t' : List Exchange) :
    Confirmed sdk op rv (t ++ t') := by
  obtain ⟨u, tx, r, v, response, rfl, hop, hmem, hresponse⟩ := h
  exact ⟨u, tx, r, v ++ t', response, by simp, hop, List.mem_append_left _ hmem, hresponse⟩

theorem Uploaded.append (h : Uploaded sdk wasm wasmHash t) (t' : List Exchange) :
    Uploaded sdk wasm wasmHash (t ++ t') := by
  obtain ⟨b, hconfirmed, hb⟩ := h
  exact ⟨b, hconfirmed.append t', hb⟩

/-- Exchanges that send nothing do not matter before a confirmation. -/
theorem confirmed_append_right (ht : sends t = []) :
    Confirmed sdk op rv (t ++ t') ↔ Confirmed sdk op rv t' := by
  constructor
  · rintro ⟨u, tx, r, v, response, ht', hresponse⟩
    obtain ⟨a, rfl, _⟩ | ⟨a, rfl, rfl⟩ := append_cons_eq_append_iff.mp ht'
    · exact absurd (mem_sends.mpr ⟨r, List.mem_append_cons_self⟩) (ht ▸ List.not_mem_nil (a := tx))
    · exact ⟨a, tx, r, v, response, rfl, hresponse⟩
  · rintro ⟨u, tx, r, v, response, rfl, hresponse⟩
    exact ⟨t ++ u, tx, r, v, response, by simp, hresponse⟩

/-- Neither does the end of a scope after it. -/
theorem confirmed_append_dropSigner :
    Confirmed sdk op rv (t ++ [⟨.dropSigner signer, ()⟩]) ↔ Confirmed sdk op rv t := by
  refine ⟨?_, fun h ↦ h.append _⟩
  rintro ⟨u, tx, r, v, response, ht, hop, hmem, hresponse⟩
  obtain ⟨a, rfl, rfl⟩ | ⟨a, rfl, ha⟩ := append_cons_eq_append_iff.mp ht
  · rcases List.mem_append.mp hmem with hmem | hmem
    · exact ⟨u, tx, r, a, response, rfl, hop, hmem, hresponse⟩
    · cases List.mem_singleton.mp hmem
  · simp [cons_eq_append_cons_iff] at ha

/-! ## Decoding -/

theorem Hash.tryFrom_eq_some {bytes : ByteArray} :
    Hash.tryFrom bytes = some wasmHash ↔ bytes.data = wasmHash.toArray := by
  rw [Hash.tryFrom]
  constructor
  · intro h
    split at h
    · rw [← Option.some.inj h]
    · cases h
  · intro h
    rw [dif_pos (by rw [h, Vector.size_toArray])]
    exact congrArg some (Vector.toArray_inj.mp h)

theorem wasmHashOfReturnValue_eq_ok : wasmHashOfReturnValue sdk rv = .ok wasmHash ↔
    ∃ b : ScBytes, rv = .bytes b ∧ b.data.data = wasmHash.toArray := by
  constructor
  · intro h
    cases rv with
    | bytes b =>
      refine ⟨b, rfl, Hash.tryFrom_eq_some.mp ?_⟩
      simp only [wasmHashOfReturnValue] at h
      split at h
      · rename_i hash hhash
        rw [hhash, Except.ok.inj h]
      · cases h
    | _ => cases h
  · rintro ⟨b, rfl, hb⟩
    simp only [wasmHashOfReturnValue, Hash.tryFrom_eq_some.mpr hb]

theorem addressOfReturnValue_eq_ok : addressOfReturnValue sdk rv = .ok address ↔
    ∃ a, rv = .address a ∧ address = sdk.displayScAddress a := by
  constructor
  · intro h
    cases rv with
    | address a => exact ⟨a, rfl, (Except.ok.inj h).symm⟩
    | _ => cases h
  · rintro ⟨a, rfl, rfl⟩
    rfl

theorem decodeResponse_eq_ok {decode : ScVal → Except SorobanUtilsError β}
    {x : String × GetTransactionResponse} {y : β} :
    decodeResponse decode x = .ok y ↔ ∃ rv, x.2.returnValue = .ok rv ∧ decode rv = .ok y := by
  rw [decodeResponse]
  cases x.2.returnValue with
  | error e => exact iff_of_false (by rintro ⟨⟩) (by simp)
  | ok rv =>
    constructor
    · intro h
      exact ⟨rv, rfl, h⟩
    · rintro ⟨_, ⟨rfl⟩, h⟩
      exact h

/-! ## One step -/

theorem DecodedRun.step {decode : ScVal → Except SorobanUtilsError β}
    {o : Outcome (Except SorobanUtilsError β)}
    (h : DecodedRun sdk networkPassphrase signer op pollCfg decode t o)
    (hprepare : PrepareKeepsOperations t) (hsigner : SignerKeepsContents t) :
    Step sdk (· = op) decode t o := by
  cases h with
  | bidding =>
    exact
      { length_sends_le := Nat.zero_le 1
        operations := by simp [sends]
        returned_ok_iff := fun ho ↦ absurd rfl ho }
  | @submitted stats t o hsend =>
    have hsub : t ⊆ ⟨.getFeeStats, stats⟩ :: t := List.subset_cons_self _ _
    have hop {tx : Transaction} (htx : tx ∈ sends t) : tx.contents.operations = [op] :=
      hsend.operations_eq (hprepare.mono hsub) (hsigner.mono hsub) htx
    refine
      { length_sends_le := hsend.length_sends_le
        operations := fun tx htx ↦ ⟨op, rfl, hop htx⟩
        returned_ok_iff := fun _ y ↦ ?_ }
    rw [Outcome.map_bind_eq_returned_ok]
    constructor
    · rintro ⟨x, ho, hx⟩
      obtain ⟨u, tx, r, v, rfl, hhash, hmem, hs⟩ := (hsend.returned_ok_iff x).mp ho
      obtain ⟨rv, hrv, hy⟩ := decodeResponse_eq_ok.mp hx
      refine ⟨op, rv, rfl, ⟨⟨.getFeeStats, stats⟩ :: u, tx, r, v, x.2, rfl, ?_, ?_, hs, hrv⟩, hy⟩
      · exact hop (mem_sends.mpr ⟨r, List.mem_append_cons_self⟩)
      · exact hhash ▸ hmem
    · rintro ⟨_, rv, rfl, hconfirmed, hy⟩
      have hnil : sends [⟨.getFeeStats, stats⟩] = [] := rfl
      obtain ⟨u, tx, r, v, response, rfl, -, hmem, hs, hrv⟩ :=
        (confirmed_append_right hnil).mp
          (show Confirmed sdk _ rv ([⟨.getFeeStats, stats⟩] ++ t) from hconfirmed)
      exact ⟨(tx.hexHash sdk, response),
        (hsend.returned_ok_iff _).mpr ⟨u, tx, r, v, rfl, rfl, hmem, hs⟩,
        decodeResponse_eq_ok.mpr ⟨rv, hrv, hy⟩⟩

/-- A step whose operation could not be built sends nothing. -/
theorem Step.of_notBuilt {IsOp : Operation → Prop} {decode : ScVal → Except SorobanUtilsError β}
    {e : SorobanUtilsError} (ht : sends t = []) :
    Step sdk IsOp decode t (.returned (.error e)) where
  length_sends_le := by rw [ht]; exact Nat.zero_le 1
  operations := by simp [ht]
  returned_ok_iff _ y := by
    refine iff_of_false (by simp) ?_
    rintro ⟨op, rv, -, ⟨u, tx, r, v, response, rfl, -⟩, -⟩
    exact absurd (mem_sends.mpr ⟨r, List.mem_append_cons_self⟩) (ht ▸ List.not_mem_nil (a := tx))

/-- A step may be described by a weaker condition on its operation, as long as every operation it
can carry decodes alike, and exchanges that send nothing may precede it. -/
theorem Step.weaken {IsOp : Operation → Prop} {decode : ScVal → Except SorobanUtilsError β}
    {o : Outcome (Except SorobanUtilsError β)} (h : Step sdk (· = op) decode t o) (hop : IsOp op) :
    Step sdk IsOp decode t o where
  length_sends_le := h.length_sends_le
  operations tx htx := by
    obtain ⟨_, rfl, htx⟩ := h.operations tx htx
    exact ⟨_, hop, htx⟩
  returned_ok_iff ho y := by
    rw [h.returned_ok_iff ho]
    constructor
    · rintro ⟨_, rv, rfl, hconfirmed, hy⟩
      exact ⟨_, rv, hop, hconfirmed, hy⟩
    · rintro ⟨op', rv, -, hconfirmed, hy⟩
      -- What was sent carries the operation of the step, so no other one is confirmed.
      obtain ⟨u, tx, r, v, response, rfl, htx, hresponse⟩ := hconfirmed
      obtain ⟨_, rfl, htx'⟩ := h.operations tx (mem_sends.mpr ⟨r, List.mem_append_cons_self⟩)
      exact ⟨_, rv, rfl, ⟨u, tx, r, v, response, rfl, htx', hresponse⟩, hy⟩

theorem Step.cons {IsOp : Operation → Prop} {decode : ScVal → Except SorobanUtilsError β}
    {o : Outcome (Except SorobanUtilsError β)} {x : Exchange} (h : Step sdk IsOp decode t o)
    (hx : sends [x] = []) : Step sdk IsOp decode (x :: t) o := by
  have hsends : sends (x :: t) = sends t := by
    rw [← List.singleton_append, sends_append, hx, List.nil_append]
  refine
    { length_sends_le := by rw [hsends]; exact h.length_sends_le
      operations := by rw [hsends]; exact h.operations
      returned_ok_iff := fun ho y ↦ ?_ }
  rw [h.returned_ok_iff ho]
  exact exists₂_congr fun op rv ↦ and_congr_right fun _ ↦ and_congr_left fun _ ↦
    (confirmed_append_right hx).symm

/-- The operation of an upload. -/
def IsUploadOf (wasm : ByteArray) (op : Operation) : Prop :=
  op = .uploadContractWasm wasm

/-- The operation of a create. -/
def IsCreateOf (wasmHash : Hash) (args : List ScVal) (op : Operation) : Prop :=
  ∃ deployer salt, op = .createContract deployer salt wasmHash args

theorem UploadRun.step (hsdk : sdk.Lawful) {o : Outcome (Except SorobanUtilsError Hash)}
    (h : UploadRun sdk networkPassphrase signer wasm pollCfg t o)
    (hprepare : PrepareKeepsOperations t) (hsigner : SignerKeepsContents t) :
    Step sdk (IsUploadOf wasm) (wasmHashOfReturnValue sdk) t o := by
  cases h with
  | notBuilt e hop => exact .of_notBuilt rfl
  | built op hop hrun => exact (hrun.step hprepare hsigner).weaken (hsdk.uploadWasm hop)

theorem CreateRun.step (hsdk : sdk.Lawful) {o : Outcome (Except SorobanUtilsError String)}
    (h : CreateRun sdk networkPassphrase signer wasmHash args pollCfg t o)
    (hprepare : PrepareKeepsOperations t) (hsigner : SignerKeepsContents t) :
    Step sdk (IsCreateOf wasmHash args) (addressOfReturnValue sdk) t o := by
  cases h with
  | salting =>
    exact
      { length_sends_le := Nat.zero_le 1
        operations := by simp [sends]
        returned_ok_iff := fun ho ↦ absurd rfl ho }
  | notBuilt salt e hop => exact .of_notBuilt rfl
  | @built salt op hop t o hrun =>
    have hsub : t ⊆ ⟨.salt, salt⟩ :: t := List.subset_cons_self _ _
    obtain ⟨deployer, rfl⟩ := hsdk.createContract hop
    exact ((hrun.step (hprepare.mono hsub) (hsigner.mono hsub)).weaken ⟨deployer, salt, rfl⟩).cons
      rfl

/-- A signer scope around a step changes nothing. -/
theorem ScopeRun.step {IsOp : Operation → Prop} {decode : ScVal → Except SorobanUtilsError β}
    {P : Signer → List Exchange → Outcome (Except SorobanUtilsError β) → Prop}
    {o : Outcome (Except SorobanUtilsError β)} (h : ScopeRun P t o)
    (hP : ∀ signer t' o, t' ⊆ t → P signer t' o → Step sdk IsOp decode t' o) :
    Step sdk IsOp decode t o := by
  cases h with
  | building =>
    exact
      { length_sends_le := Nat.zero_le 1
        operations := by simp [sends]
        returned_ok_iff := fun ho ↦ absurd rfl ho }
  | notBuilt e => exact .of_notBuilt rfl
  | inside signer hbody ho =>
    exact (hP signer _ _ (List.subset_cons_self _ _) hbody).cons rfl
  | dropping signer hbody =>
    have hnil : sends [⟨.buildSigner, .ok signer⟩] = [] := rfl
    have hstep := (hP signer _ _ (List.subset_cons_self _ _) hbody).cons hnil
    exact
      { length_sends_le := hstep.length_sends_le
        operations := hstep.operations
        returned_ok_iff := fun ho ↦ absurd rfl ho }
  | @dropped signer t x hbody =>
    have hsub : t ⊆ ⟨.buildSigner, .ok signer⟩ :: (t ++ [⟨.dropSigner signer, ()⟩]) :=
      fun _ hx ↦ List.mem_cons_of_mem _ (List.mem_append_left _ hx)
    have hstep := hP signer t _ hsub hbody
    have hsends : sends (t ++ [⟨.dropSigner signer, ()⟩]) = sends t := by
      rw [sends_append]
      exact List.append_nil _
    refine Step.cons ?_ rfl
    refine
      { length_sends_le := by rw [hsends]; exact hstep.length_sends_le
        operations := by rw [hsends]; exact hstep.operations
        returned_ok_iff := fun ho y ↦ ?_ }
    rw [hstep.returned_ok_iff ho]
    exact exists₂_congr fun op rv ↦ and_congr_right fun _ ↦ and_congr_left fun _ ↦
      confirmed_append_dropSigner.symm

/-! ## Two steps -/

theorem IsCreateOf.ne_upload {args' : List ScVal} (h : IsCreateOf wasmHash args' op) :
    op ≠ .uploadContractWasm wasm := by
  obtain ⟨deployer, salt, rfl⟩ := h
  simp

namespace Step

variable {o₁ : Outcome (Except SorobanUtilsError Hash)}
  (h₁ : Step sdk (IsUploadOf wasm) (wasmHashOfReturnValue sdk) t o₁)
include h₁

/-- The upload step sends no create. -/
theorem not_isCreateOf {u v : List Exchange} {tx : Transaction}
    {r : Except RpcError SendTransactionResponse} {args' : List ScVal}
    (ht : t = u ++ ⟨.sendTransaction tx, r⟩ :: v) (htx : tx.contents.operations = [op]) :
    ¬ IsCreateOf wasmHash args' op := by
  intro hop
  obtain ⟨_, rfl, htx'⟩ := h₁.operations tx (mem_sends.mpr ⟨r, ht ▸ List.mem_append_cons_self⟩)
  rw [htx, List.singleton_inj] at htx'
  exact hop.ne_upload htx'

/-- A deployment that ends with its upload step. -/
theorem twoStep_of_failed {o : Outcome (Except SorobanUtilsError (String × Hash))}
    (ho : ∀ x, o ≠ .returned (.ok x)) : TwoStep sdk wasm args t o where
  length_sends_le := h₁.length_sends_le.trans one_le_two
  operations tx htx := by
    obtain ⟨_, rfl, htx⟩ := h₁.operations tx htx
    exact .inl htx
  createAfterUpload u tx r v deployer salt wasmHash args' ht htx :=
    absurd ⟨deployer, salt, rfl⟩ (h₁.not_isCreateOf ht htx)
  returned_ok_iff _ address wasmHash := by
    refine iff_of_false (ho _) ?_
    rintro ⟨u, v, rfl, -, deployer, salt, a, ⟨u', tx, r, v', response, rfl, htx, -⟩, -⟩
    exact h₁.not_isCreateOf (List.append_assoc ..).symm htx ⟨deployer, salt, rfl⟩

/-- An upload step that returned its hash has uploaded. -/
theorem uploaded (ho : o₁ = .returned (.ok wasmHash)) : Uploaded sdk wasm wasmHash t := by
  obtain ⟨_, rv, rfl, hconfirmed, hrv⟩ := (h₁.returned_ok_iff (by simp [ho]) wasmHash).mp ho
  obtain ⟨b, rfl, hb⟩ := wasmHashOfReturnValue_eq_ok.mp hrv
  exact ⟨b, hconfirmed, hb⟩

/-- A create that is sent is sent by the second step, and names the hash and the arguments of that
step. -/
theorem create_eq {o₂ : Outcome (Except SorobanUtilsError String)}
    (h₂ : Step sdk (IsCreateOf wasmHash args) (addressOfReturnValue sdk) t' o₂)
    {u v : List Exchange} {tx : Transaction} {r : Except RpcError SendTransactionResponse}
    {deployer : ScAddress} {salt hash : Hash} {args' : List ScVal}
    (ht : t ++ t' = u ++ ⟨.sendTransaction tx, r⟩ :: v)
    (htx : tx.contents.operations = [.createContract deployer salt hash args']) :
    hash = wasmHash ∧ args' = args ∧ ∃ a, u = t ++ a ∧
      t' = a ++ ⟨.sendTransaction tx, r⟩ :: v := by
  obtain ⟨a, ht₁, -⟩ | ⟨a, rfl, ht₂⟩ := append_cons_eq_append_iff.mp ht
  · exact absurd ⟨deployer, salt, rfl⟩ (h₁.not_isCreateOf ht₁ htx)
  · obtain ⟨_, ⟨deployer', salt', rfl⟩, htx'⟩ :=
      h₂.operations tx (mem_sends.mpr ⟨r, ht₂ ▸ List.mem_append_cons_self⟩)
    rw [htx, List.singleton_inj, Operation.createContract.injEq] at htx'
    exact ⟨htx'.2.2.1, htx'.2.2.2, a, rfl, ht₂⟩

end Step

/-- A deployment that gets to its create step. -/
theorem Step.twoStep {o₂ : Outcome (Except SorobanUtilsError String)}
    (h₁ : Step sdk (IsUploadOf wasm) (wasmHashOfReturnValue sdk) t (.returned (.ok wasmHash)))
    (h₂ : Step sdk (IsCreateOf wasmHash args) (addressOfReturnValue sdk) t' o₂) :
    TwoStep sdk wasm args (t ++ t') (o₂.map (Except.map fun address ↦ (address, wasmHash))) := by
  refine
    { length_sends_le := ?_
      operations := ?_
      createAfterUpload := ?_
      returned_ok_iff := ?_ }
  · rw [sends_append, List.length_append]
    exact Nat.add_le_add h₁.length_sends_le h₂.length_sends_le
  · intro tx htx
    rw [sends_append] at htx
    rcases List.mem_append.mp htx with htx | htx
    · obtain ⟨_, rfl, htx⟩ := h₁.operations tx htx
      exact .inl htx
    · obtain ⟨_, ⟨deployer, salt, rfl⟩, htx⟩ := h₂.operations tx htx
      exact .inr ⟨deployer, salt, wasmHash, htx⟩
  · intro u tx r v deployer salt hash args' ht htx
    obtain ⟨rfl, rfl, a, rfl, -⟩ := h₁.create_eq h₂ ht htx
    exact ⟨rfl, (h₁.uploaded rfl).append a⟩
  · intro ho address hash
    have ho₂ : o₂ ≠ .running := by
      rintro rfl
      exact ho rfl
    have hmap : o₂.map (Except.map fun address ↦ (address, wasmHash)) =
        .returned (.ok (address, hash)) ↔ o₂ = .returned (.ok address) ∧ wasmHash = hash := by
      rcases o₂ with _ | _ | _ | _ <;> simp [Except.map]
    rw [hmap, h₂.returned_ok_iff ho₂]
    constructor
    · rintro ⟨⟨_, rv, ⟨deployer, salt, rfl⟩, hconfirmed, hrv⟩, rfl⟩
      obtain ⟨a, rfl, ha⟩ := addressOfReturnValue_eq_ok.mp hrv
      exact ⟨t, t', rfl, h₁.uploaded rfl, deployer, salt, a, hconfirmed, ha⟩
    · rintro ⟨u, v, ht, -, deployer, salt, a, ⟨u', tx, r, v', response, rfl, htx, hresponse⟩, ha⟩
      rw [← List.append_assoc] at ht
      obtain ⟨rfl, -, u'', -, ht₂⟩ := h₁.create_eq h₂ ht htx
      exact ⟨⟨_, .address a, ⟨deployer, salt, rfl⟩, ⟨u'', tx, r, v', response, ht₂, htx, hresponse⟩,
        addressOfReturnValue_eq_ok.mpr ⟨a, rfl, ha⟩⟩, rfl⟩

/-- **Composition.** An upload followed by a create of the hash that it returns. -/
theorem twoStep_of_steps {p : Async Hash} {q : Hash → Async String}
    {o : Outcome (Except SorobanUtilsError (String × Hash))}
    (hp : ∀ t' o, t' ⊆ t → Runs p.run t' o →
      Step sdk (IsUploadOf wasm) (wasmHashOfReturnValue sdk) t' o)
    (hq : ∀ wasmHash t' o, t' ⊆ t → Runs (q wasmHash).run t' o →
      Step sdk (IsCreateOf wasmHash args) (addressOfReturnValue sdk) t' o)
    (h : Runs (p >>= fun wasmHash ↦ (fun address ↦ (address, wasmHash)) <$> q wasmHash).run t o) :
    TwoStep sdk wasm args t o := by
  obtain ⟨h₁, rfl⟩ | ⟨h₁, rfl⟩ | ⟨e, h₁, rfl⟩ | ⟨t₁, t₂, wasmHash, rfl, h₁, h₂⟩ :=
    runs_except_bind.mp h
  · exact (hp t _ (List.Subset.refl _) h₁).twoStep_of_failed (by simp)
  · exact (hp t _ (List.Subset.refl _) h₁).twoStep_of_failed (by simp)
  · exact (hp t _ (List.Subset.refl _) h₁).twoStep_of_failed (by simp)
  · obtain ⟨o₂, hq₂, rfl⟩ := runs_except_map.mp h₂
    exact (hp t₁ _ (List.subset_append_left _ _) h₁).twoStep
      (hq wasmHash t₂ _ (List.subset_append_right _ _) hq₂)

/-! ## Both versions -/

theorem deployContract_eq (sdk : Sdk) (networkPassphrase : String) (signer : Signer)
    (wasm : ByteArray) (args : List ScVal) (pollCfg : PollConfig) :
    deployContract sdk networkPassphrase signer wasm args pollCfg =
      uploadWasm sdk networkPassphrase signer wasm pollCfg >>= fun wasmHash ↦
        (fun address ↦ (address, wasmHash)) <$>
          createContractInstance sdk networkPassphrase signer wasmHash args pollCfg := by
  simp only [deployContract, bind_pure_comp]

theorem Client.deployContract_eq (sdk : Sdk) (client : Client) (wasm : ByteArray)
    (args : List ScVal) :
    client.deployContract sdk wasm args = client.uploadWasm sdk wasm >>= fun wasmHash ↦
      (fun address ↦ (address, wasmHash)) <$> client.createContractInstance sdk wasmHash args := by
  simp only [Client.deployContract, bind_pure_comp]

theorem deployContract_twoStep (hsdk : sdk.Lawful)
    {o : Outcome (Except SorobanUtilsError (String × Hash))} (hprepare : PrepareKeepsOperations t)
    (hsigner : SignerKeepsContents t)
    (h : Runs (deployContract sdk networkPassphrase signer wasm args pollCfg).run t o) :
    TwoStep sdk wasm args t o := by
  rw [deployContract_eq] at h
  refine twoStep_of_steps (fun t' o hsub h ↦ ?_) (fun hash t' o hsub h ↦ ?_) h
  · exact (runs_uploadWasm.mp h).step hsdk (hprepare.mono hsub) (hsigner.mono hsub)
  · exact (runs_createContractInstance.mp h).step hsdk (hprepare.mono hsub) (hsigner.mono hsub)

theorem Client.deployContract_twoStep (hsdk : sdk.Lawful) {client : Client}
    {o : Outcome (Except SorobanUtilsError (String × Hash))} (hprepare : PrepareKeepsOperations t)
    (hsigner : SignerKeepsContents t) (h : Runs (client.deployContract sdk wasm args).run t o) :
    TwoStep sdk wasm args t o := by
  rw [Client.deployContract_eq] at h
  refine twoStep_of_steps (fun t' o hsub h ↦ ?_) (fun hash t' o hsub h ↦ ?_) h
  · refine (runs_withSigner.mp h).step fun signer t'' o hsub' h ↦ ?_
    have hsub'' := List.Subset.trans hsub' hsub
    exact (runs_uploadWasm.mp h).step hsdk (hprepare.mono hsub'') (hsigner.mono hsub'')
  · refine (runs_withSigner.mp h).step fun signer t'' o hsub' h ↦ ?_
    have hsub'' := List.Subset.trans hsub' hsub
    exact (runs_createContractInstance.mp h).step hsdk (hprepare.mono hsub'')
      (hsigner.mono hsub'')

end StellarRustClient
