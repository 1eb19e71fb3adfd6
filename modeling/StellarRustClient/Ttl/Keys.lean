import StellarRustClient.Ttl.AbsoluteTarget
import StellarRustClient.Utils.Vec

/-!
# Which entry a call extends

`mapping_entry_key` puts the name in front of the details, so that both can be read off the key. The
three methods of the client that extend something build keys of three shapes: contract data under a
vec, contract data under the sentinel of the instance, and contract code. Two calls are about one
entry only when they are calls of the same method with the same arguments, the contract up to how
its address is written.

What a call is about is read off its runs: the key in the footprint of the transactions that it has
the node prepare.
-/

namespace StellarRustClient

open Interaction

variable {sdk : Sdk} {name name' : String} {details details' : List ScVal} {key : ScVal}

/-! ## The key of a mapping entry -/

theorem mappingEntryKey_eq_ok : mappingEntryKey name details = .ok key ↔
    ∃ n w, Utils.symbol name = .ok n ∧ key = .vec (some w) ∧ w.toList = n :: details := by
  rw [mappingEntryKey]
  cases hname : Utils.symbol name with
  | error e => exact iff_of_false (by rintro ⟨⟩) (by simp)
  | ok n =>
    change Utils.vecVal (n :: details) = .ok key ↔ _
    rw [Utils.vecVal_eq_ok]
    simp

theorem exists_mappingEntryKey : (∃ key, mappingEntryKey name details = .ok key) ↔
    name.utf8ByteSize ≤ 32 ∧ 1 + details.length ≤ u32Max := by
  have hname : (∃ n, Utils.symbol name = .ok n) ↔ name.utf8ByteSize ≤ 32 :=
    Scalar.exists_encode_iff .symbol name
  rw [← hname]
  constructor
  · rintro ⟨key, h⟩
    obtain ⟨n, w, hn, rfl, hw⟩ := mappingEntryKey_eq_ok.mp h
    have hlen := w.length_toList_le
    rw [hw, List.length_cons] at hlen
    exact ⟨⟨n, hn⟩, by omega⟩
  · rintro ⟨⟨n, hn⟩, hlen⟩
    have hcons : (n :: details).length ≤ u32Max := by
      rw [List.length_cons]
      omega
    obtain ⟨w, -, hw⟩ := Utils.exists_vecVal hcons
    exact ⟨_, mappingEntryKey_eq_ok.mpr ⟨n, w, hn, rfl, hw⟩⟩

/-- Name and details can be read off a key. -/
theorem mappingEntryKey_injective (h : mappingEntryKey name details = .ok key)
    (h' : mappingEntryKey name' details' = .ok key) : name = name' ∧ details = details' := by
  obtain ⟨n, w, hn, rfl, hw⟩ := mappingEntryKey_eq_ok.mp h
  obtain ⟨n', w', hn', hvec, hw'⟩ := mappingEntryKey_eq_ok.mp h'
  cases hvec
  rw [hw] at hw'
  obtain ⟨rfl, hdetails⟩ := List.cons.inj hw'
  have hback : (Scalar.symbol.decode Sdk.sample n) = .ok name :=
    (Scalar.partialInverse .symbol name n).mp hn
  have hback' : (Scalar.symbol.decode Sdk.sample n) = .ok name' :=
    (Scalar.partialInverse .symbol name' n).mp hn'
  rw [hback] at hback'
  exact ⟨Except.ok.inj hback', hdetails⟩

theorem mappingEntryKey_ne_instanceKey : mappingEntryKey name details ≠ .ok instanceKey := by
  intro h
  obtain ⟨n, w, -, hvec, -⟩ := mappingEntryKey_eq_ok.mp h
  cases hvec

/-! ## The key of a call -/

namespace ExtendCall

variable {e e' : ExtendCall} {entryKey : LedgerKey}

/-- The methods of the client. -/
def IsMethod : ExtendCall → Prop
  | clientExtendTtl .. | clientExtendInstanceTtl .. | clientExtendWasmTtl .. => True
  | extendTtl .. | extendInstanceTtl .. | extendWasmTtl .. => False

variable (sdk) in
/-- Some run of the call, for some number of ledgers, has the node prepare a transaction whose
footprint has the key. -/
def Targets (e : ExtendCall) (entryKey : LedgerKey) : Prop :=
  ∃ extendTo t o q r, Runs (e.call sdk extendTo).run t o ∧
    (⟨.prepareTransaction q, r⟩ : Exchange) ∈ t ∧ entryKey ∈ q.contents.readOnly

variable (sdk) in
/-- Two calls of one method of the client with the same arguments, the contract as decoded. The
clients need not be the same. -/
inductive SameTarget : ExtendCall → ExtendCall → Prop
  | entry {client client' : Client} {address address' : String} {contract : ScAddress}
      (name : String) (details : List ScVal) (durability : ContractDataDurability)
      (h : contractScAddress sdk address = .ok contract)
      (h' : contractScAddress sdk address' = .ok contract) :
      SameTarget (clientExtendTtl client address name details durability)
        (clientExtendTtl client' address' name details durability)
  | instance {client client' : Client} {address address' : String} {contract : ScAddress}
      (h : contractScAddress sdk address = .ok contract)
      (h' : contractScAddress sdk address' = .ok contract) :
      SameTarget (clientExtendInstanceTtl client address) (clientExtendInstanceTtl client' address')
  | wasm {client client' : Client} (wasmHash : Hash) :
      SameTarget (clientExtendWasmTtl client wasmHash) (clientExtendWasmTtl client' wasmHash)

/-- What a call has prepared is about the one key that its arguments name. -/
theorem readOnly_of_runs {extendTo : UInt32} {t : List Exchange}
    {o : Outcome (Except SorobanUtilsError InvokeOutcome)} {q : Transaction}
    {r : Except RpcError Transaction} (h : Runs (e.call sdk extendTo).run t o)
    (hmem : (⟨.prepareTransaction q, r⟩ : Exchange) ∈ t) :
    ∃ entryKey, e.ledgerKey sdk = .ok entryKey ∧ q.contents.readOnly = [entryKey] := by
  obtain ⟨hscope, -⟩ | ⟨entryKey, _, _, t', o', hkey, hrun, hscope, -⟩ := exists_extendRun h
  · exact absurd (hscope _ hmem) id
  · have hmem' : (⟨.prepareTransaction q, r⟩ : Exchange) ∈ t' := (hscope.mem_iff id).mp hmem
    obtain ⟨op, account, -, rfl⟩ := hrun.prepare_eq hmem'
    exact ⟨entryKey, hkey, rfl⟩

theorem Targets.ledgerKey_eq (h : e.Targets sdk entryKey) : e.ledgerKey sdk = .ok entryKey := by
  obtain ⟨extendTo, t, o, q, r, hrun, hmem, hkey⟩ := h
  obtain ⟨entryKey', hkey', hreadOnly⟩ := readOnly_of_runs hrun hmem
  rw [hreadOnly] at hkey
  rw [hkey', List.mem_singleton.mp hkey]

/-- A call whose arguments name a key has a run that prepares a transaction about it. -/
theorem targets_of_ledgerKey (hsdk : sdk.Lawful) (hkey : e.ledgerKey sdk = .ok entryKey) :
    e.Targets sdk entryKey := by
  obtain ⟨op, hop⟩ := hsdk.extendFootprintTtl_isOk 1 (by decide)
  obtain ⟨networkPassphrase, signer, hruns⟩ := e.exists_runs hkey
  obtain ⟨t, err, account, -, hrun, hmem⟩ :=
    exists_preparedRun networkPassphrase signer (extendData entryKey) e.pollCfg hop
  obtain ⟨t', hscope, hcall⟩ := hruns t _ hrun
  exact ⟨1, t', _, _, _, hcall, (hscope.mem_iff id).mpr hmem, List.mem_singleton_self entryKey⟩

variable {client : Client} {address : String} {durability : ContractDataDurability}

theorem ledgerKey_clientExtendTtl :
    (clientExtendTtl client address name details durability).ledgerKey sdk = .ok entryKey ↔
      ∃ storageKey contract, mappingEntryKey name details = .ok storageKey ∧
        contractScAddress sdk address = .ok contract ∧
        entryKey = .contractData contract storageKey durability := by
  rw [ledgerKey]
  cases mappingEntryKey name details with
  | error e => exact iff_of_false (by rintro ⟨⟩) (by simp)
  | ok storageKey =>
    cases contractScAddress sdk address with
    | error e => exact iff_of_false (by rintro ⟨⟩) (by simp)
    | ok contract =>
      change Except.ok _ = _ ↔ _
      simp [eq_comm]

theorem ledgerKey_clientExtendInstanceTtl : (clientExtendInstanceTtl client address).ledgerKey sdk =
    .ok entryKey ↔ ∃ contract, contractScAddress sdk address = .ok contract ∧
      entryKey = .contractData contract instanceKey .persistent := by
  rw [ledgerKey]
  cases contractScAddress sdk address with
  | error e => exact iff_of_false (by rintro ⟨⟩) (by simp)
  | ok contract =>
    change Except.ok _ = _ ↔ _
    simp [eq_comm]

/-- Calls with one key are calls of one method with the same arguments. -/
theorem sameTarget_of_ledgerKey_eq (hmethod : e.IsMethod) (hmethod' : e'.IsMethod)
    (h : e.ledgerKey sdk = .ok entryKey) (h' : e'.ledgerKey sdk = .ok entryKey) :
    SameTarget sdk e e' := by
  -- Keys of different kinds differ by constructor, but for the instance key, which no mapping has.
  cases e with
  | extendTtl | extendInstanceTtl | extendWasmTtl => exact hmethod.elim
  | clientExtendTtl client address name details durability =>
    obtain ⟨storageKey, contract, hkey, hcontract, rfl⟩ := ledgerKey_clientExtendTtl.mp h
    cases e' with
    | extendTtl | extendInstanceTtl | extendWasmTtl => exact hmethod'.elim
    | clientExtendTtl client' address' name' details' durability' =>
      obtain ⟨_, _, hkey', hcontract', heq⟩ := ledgerKey_clientExtendTtl.mp h'
      cases heq
      obtain ⟨rfl, rfl⟩ := mappingEntryKey_injective hkey hkey'
      exact .entry name details durability hcontract hcontract'
    | clientExtendInstanceTtl client' address' =>
      obtain ⟨_, -, heq⟩ := ledgerKey_clientExtendInstanceTtl.mp h'
      cases heq
      exact absurd hkey mappingEntryKey_ne_instanceKey
    | clientExtendWasmTtl client' wasmHash' => cases h'
  | clientExtendInstanceTtl client address =>
    obtain ⟨contract, hcontract, rfl⟩ := ledgerKey_clientExtendInstanceTtl.mp h
    cases e' with
    | extendTtl | extendInstanceTtl | extendWasmTtl => exact hmethod'.elim
    | clientExtendTtl client' address' name' details' durability' =>
      obtain ⟨_, _, hkey', -, heq⟩ := ledgerKey_clientExtendTtl.mp h'
      cases heq
      exact absurd hkey' mappingEntryKey_ne_instanceKey
    | clientExtendInstanceTtl client' address' =>
      obtain ⟨_, hcontract', heq⟩ := ledgerKey_clientExtendInstanceTtl.mp h'
      cases heq
      exact .instance hcontract hcontract'
    | clientExtendWasmTtl client' wasmHash' => cases h'
  | clientExtendWasmTtl client wasmHash =>
    cases e' with
    | extendTtl | extendInstanceTtl | extendWasmTtl => exact hmethod'.elim
    | clientExtendTtl client' address' name' details' durability' =>
      obtain ⟨_, _, -, -, heq⟩ := ledgerKey_clientExtendTtl.mp h'
      cases h
      cases heq
    | clientExtendInstanceTtl client' address' =>
      obtain ⟨_, -, heq⟩ := ledgerKey_clientExtendInstanceTtl.mp h'
      cases h
      cases heq
    | clientExtendWasmTtl client' wasmHash' =>
      cases h
      cases h'
      exact .wasm wasmHash

end ExtendCall

/-- What the keys of the extend calls promise. -/
structure KeysApart (sdk : Sdk) : Prop where
  /-- A key is refused for a name that is no symbol, and for too many details. -/
  mapping_fails : ∀ name details, (∃ e, mappingEntryKey name details = .error e) ↔
    32 < name.utf8ByteSize ∨ u32Max < 1 + details.length
  /-- It is the name and then the details, in order. -/
  mapping_decodes : ∀ name details key, mappingEntryKey name details = .ok key →
    ∃ n, Utils.symbol name = .ok n ∧ Utils.toVecVal sdk key = .ok (n :: details)
  mapping_injective : ∀ name name' details details' key, mappingEntryKey name details = .ok key →
    mappingEntryKey name' details' = .ok key → name = name' ∧ details = details'
  /-- What a call has the node prepare has one key in its footprint, that of its arguments. -/
  targeted : ∀ (e : ExtendCall) extendTo t o q r, Runs (e.call sdk extendTo).run t o →
    (⟨.prepareTransaction q, r⟩ : Exchange) ∈ t →
    ∃ ledgerKey, e.ledgerKey sdk = .ok ledgerKey ∧ q.contents.readOnly = [ledgerKey]
  /-- And every call whose arguments make a key comes to prepare something about it. -/
  targets : sdk.Lawful → ∀ (e : ExtendCall) ledgerKey, e.ledgerKey sdk = .ok ledgerKey →
    e.Targets sdk ledgerKey
  /-- Calls of the client that have a target in common are about the same entry. -/
  surfaces : ∀ (e e' : ExtendCall) ledgerKey, e.IsMethod → e'.IsMethod →
    e.Targets sdk ledgerKey → e'.Targets sdk ledgerKey → ExtendCall.SameTarget sdk e e'

/-- **Keys.** Keys of mapping entries are injective, and no two of the three methods of the client
are ever about one entry. -/
theorem keysApart (sdk : Sdk) : KeysApart sdk where
  mapping_fails name details := by
    have hexists := @exists_mappingEntryKey name details
    constructor
    · rintro ⟨e, h⟩
      by_contra hfits
      have hok : name.utf8ByteSize ≤ 32 ∧ 1 + details.length ≤ u32Max := by omega
      obtain ⟨key, hkey⟩ := hexists.mpr hok
      rw [h] at hkey
      cases hkey
    · intro hlong
      cases h : mappingEntryKey name details with
      | error e => exact ⟨e, rfl⟩
      | ok key =>
        have hfits := hexists.mp ⟨key, h⟩
        omega
  mapping_decodes name details key h := by
    obtain ⟨n, w, hn, rfl, hw⟩ := mappingEntryKey_eq_ok.mp h
    exact ⟨n, hn, congrArg Except.ok hw⟩
  mapping_injective _ _ _ _ _ h h' := mappingEntryKey_injective h h'
  targeted e extendTo t o q r hrun hmem := ExtendCall.readOnly_of_runs hrun hmem
  targets hsdk e ledgerKey hkey := ExtendCall.targets_of_ledgerKey hsdk hkey
  surfaces e e' ledgerKey hmethod hmethod' h h' :=
    ExtendCall.sameTarget_of_ledgerKey_eq hmethod hmethod' h.ledgerKey_eq h'.ledgerKey_eq

end StellarRustClient
