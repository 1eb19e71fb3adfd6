import StellarRustClient.Client.Scope
import StellarRustClient.Ttl.Runs

/-!
# The calls that extend an entry

The three free functions and the three methods of the client over them, as one type. All of them
come to `extend_ledger_key_ttl` on the key that their arguments name, the methods within the scope
of a signer: `ExtendCall.exists_extendRun` and `ExtendCall.exists_runs` take a run of a call to a
run of the workflow and back.
-/

namespace StellarRustClient

open Interaction

/-- A call of a function that extends an entry: one of the three free ones, or of the methods of the
client over them. -/
inductive ExtendCall
  | extendTtl (networkPassphrase : String) (signer : Signer) (contractAddress : String)
      (storageKey : ScVal) (durability : ContractDataDurability) (pollCfg : PollConfig)
  | extendInstanceTtl (networkPassphrase : String) (signer : Signer) (contractAddress : String)
      (pollCfg : PollConfig)
  | extendWasmTtl (networkPassphrase : String) (signer : Signer) (wasmHash : Hash)
      (pollCfg : PollConfig)
  | clientExtendTtl (client : Client) (contractAddress mappingName : String)
      (details : List ScVal) (durability : ContractDataDurability)
  | clientExtendInstanceTtl (client : Client) (contractAddress : String)
  | clientExtendWasmTtl (client : Client) (wasmHash : Hash)

namespace ExtendCall

variable (sdk : Sdk) (extendTo : UInt32)

/-- The call, with the target `extendTo`. -/
def call : ExtendCall → Async InvokeOutcome
  | extendTtl networkPassphrase signer contractAddress storageKey durability pollCfg =>
    StellarRustClient.extendTtl sdk networkPassphrase signer contractAddress storageKey durability
      extendTo pollCfg
  | extendInstanceTtl networkPassphrase signer contractAddress pollCfg =>
    StellarRustClient.extendInstanceTtl sdk networkPassphrase signer contractAddress extendTo
      pollCfg
  | extendWasmTtl networkPassphrase signer wasmHash pollCfg =>
    StellarRustClient.extendWasmTtl sdk networkPassphrase signer wasmHash extendTo pollCfg
  | clientExtendTtl client contractAddress mappingName details durability =>
    client.extendTtl sdk contractAddress mappingName details durability extendTo
  | clientExtendInstanceTtl client contractAddress =>
    client.extendInstanceTtl sdk contractAddress extendTo
  | clientExtendWasmTtl client wasmHash => client.extendWasmTtl sdk wasmHash extendTo

/-- The entry that the call is about, if its arguments name one. -/
def ledgerKey : ExtendCall → Except SorobanUtilsError LedgerKey
  | extendTtl _ _ contractAddress storageKey durability _ =>
    (contractScAddress sdk contractAddress).map fun contract ↦
      .contractData contract storageKey durability
  | extendInstanceTtl _ _ contractAddress _ | clientExtendInstanceTtl _ contractAddress =>
    (contractScAddress sdk contractAddress).map fun contract ↦
      .contractData contract instanceKey .persistent
  | extendWasmTtl _ _ wasmHash _ | clientExtendWasmTtl _ wasmHash => .ok (wasmLedgerKey wasmHash)
  | clientExtendTtl _ contractAddress mappingName details durability =>
    mappingEntryKey mappingName details >>= fun storageKey ↦
      (contractScAddress sdk contractAddress).map fun contract ↦
        .contractData contract storageKey durability

/-- The poll configuration that the call submits with. -/
def pollCfg : ExtendCall → PollConfig
  | extendTtl _ _ _ _ _ pollCfg | extendInstanceTtl _ _ _ pollCfg | extendWasmTtl _ _ _ pollCfg =>
    pollCfg
  | clientExtendTtl client _ _ _ _ | clientExtendInstanceTtl client _
  | clientExtendWasmTtl client _ => client.pollCfg

/-- What the calls have in common, once there is a signer. -/
def body (e : ExtendCall) (networkPassphrase : String) (signer : Signer) : Async InvokeOutcome :=
  Prog.lift (e.ledgerKey sdk) >>= fun key ↦
    extendLedgerKeyTtl sdk networkPassphrase signer key extendTo e.pollCfg

theorem call_eq (e : ExtendCall) : ∃ networkPassphrase,
    (∃ signer, e.call sdk extendTo = e.body sdk extendTo networkPassphrase signer) ∨
      e.call sdk extendTo = withSigner (e.body sdk extendTo networkPassphrase) := by
  cases e with
  | extendTtl networkPassphrase signer contractAddress storageKey durability pollCfg =>
    refine ⟨networkPassphrase, .inl ⟨signer, ?_⟩⟩
    rw [call, StellarRustClient.extendTtl, body, ledgerKey]
    cases contractScAddress sdk contractAddress <;> rfl
  | extendInstanceTtl networkPassphrase signer contractAddress pollCfg =>
    refine ⟨networkPassphrase, .inl ⟨signer, ?_⟩⟩
    rw [call, StellarRustClient.extendInstanceTtl, body, ledgerKey]
    cases contractScAddress sdk contractAddress <;> rfl
  | extendWasmTtl networkPassphrase signer wasmHash pollCfg =>
    exact ⟨networkPassphrase, .inl ⟨signer, rfl⟩⟩
  | clientExtendTtl client contractAddress mappingName details durability =>
    refine ⟨client.network.networkPassphrase, .inr (congrArg withSigner (funext fun signer ↦ ?_))⟩
    rw [body, ledgerKey]
    cases mappingEntryKey mappingName details with
    | error e => rfl
    | ok storageKey =>
      rw [lift_ok_bind, StellarRustClient.extendTtl]
      cases contractScAddress sdk contractAddress <;> rfl
  | clientExtendInstanceTtl client contractAddress =>
    refine ⟨client.network.networkPassphrase, .inr (congrArg withSigner (funext fun signer ↦ ?_))⟩
    rw [body, ledgerKey, StellarRustClient.extendInstanceTtl]
    cases contractScAddress sdk contractAddress <;> rfl
  | clientExtendWasmTtl client wasmHash =>
    exact ⟨client.network.networkPassphrase, .inr rfl⟩

variable {sdk} {extendTo} {e : ExtendCall}

theorem runs_body {networkPassphrase : String} {signer : Signer} {t : List Exchange}
    {o : Outcome (Except SorobanUtilsError InvokeOutcome)} :
    Runs (e.body sdk extendTo networkPassphrase signer).run t o ↔
      (∃ err, e.ledgerKey sdk = .error err ∧ t = [] ∧ o = .returned (.error err)) ∨
      ∃ key, e.ledgerKey sdk = .ok key ∧
        ExtendRun sdk networkPassphrase signer extendTo (extendData key) e.pollCfg t o := by
  rw [body, runs_lift_bind]
  simp only [runs_extendLedgerKeyTtl]

/-- A run of a call is a run of the workflow with the calls of a scope around it, or has not come to
the workflow. -/
theorem exists_extendRun {t : List Exchange} {o : Outcome (Except SorobanUtilsError InvokeOutcome)}
    (h : Runs (e.call sdk extendTo).run t o) :
    ((∀ x ∈ t, IsScopeCall x.1) ∧ ∀ result, o ≠ .returned (.ok result)) ∨
      ∃ key networkPassphrase signer t' o', e.ledgerKey sdk = .ok key ∧
        ExtendRun sdk networkPassphrase signer extendTo (extendData key) e.pollCfg t' o' ∧
        InScope t' t ∧ ∀ x, o = .returned x → o' = .returned x := by
  obtain ⟨networkPassphrase, ⟨signer, hcall⟩ | hcall⟩ := e.call_eq sdk extendTo
  · rw [hcall] at h
    obtain ⟨err, -, rfl, rfl⟩ | ⟨key, hkey, hrun⟩ := runs_body.mp h
    · exact .inl ⟨by simp, by simp⟩
    · exact .inr ⟨key, networkPassphrase, signer, t, o, hkey, hrun, .bare, fun x hx ↦ hx⟩
  · rw [hcall] at h
    obtain ⟨ht, ho⟩ | ⟨signer, t', o', hbody, hscope, ho⟩ := (runs_withSigner.mp h).exists_body
    · exact .inl ⟨ht, ho⟩
    obtain ⟨err, -, rfl, rfl⟩ | ⟨key, hkey, hrun⟩ := runs_body.mp hbody
    · refine .inl ⟨fun x hx ↦ ?_, fun result hresult ↦ ?_⟩
      · by_contra hcall
        cases (hscope.mem_iff hcall).mp hx
      · cases ho _ hresult
    · exact .inr ⟨key, networkPassphrase, signer, t', o', hkey, hrun, hscope, ho⟩

/-- Runs of the workflow that return are runs of a call, with the calls of a scope around them. -/
theorem exists_runs {key : LedgerKey} (hkey : e.ledgerKey sdk = .ok key) :
    ∃ networkPassphrase signer, ∀ t x,
      ExtendRun sdk networkPassphrase signer extendTo (extendData key) e.pollCfg t
        (.returned x) →
      ∃ t', InScope t t' ∧ Runs (e.call sdk extendTo).run t' (.returned x) := by
  obtain ⟨networkPassphrase, ⟨signer, hcall⟩ | hcall⟩ := e.call_eq sdk extendTo
  · refine ⟨networkPassphrase, signer, fun t x hrun ↦ ⟨t, .bare, ?_⟩⟩
    rw [hcall]
    exact runs_body.mpr (.inr ⟨key, hkey, hrun⟩)
  · refine ⟨networkPassphrase, .sample, fun t x hrun ↦ ⟨_, .dropped .sample, ?_⟩⟩
    rw [hcall]
    exact runs_withSigner.mpr (.dropped .sample (runs_body.mpr (.inr ⟨key, hkey, hrun⟩)))

end ExtendCall

end StellarRustClient
