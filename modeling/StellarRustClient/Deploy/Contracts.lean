import Mathlib.Logic.Function.Basic
import StellarRustClient.Network
import StellarRustClient.Ttl

/-!
# The contracts of the network

What uploads and creations do, as the state of a network: code is known by its hash, and a contract
runs the code that it was created with until it replaces that code itself. A creation goes to the
address that the deployer and the salt give, and only where nothing was created before.

The one thing that is asked of everybody else is that no contract of the set `pinned` replaces its
code.
-/

namespace StellarRustClient

open Interaction

/-- How the network names what is put on it. -/
structure Naming where
  /-- The hash of uploaded code. -/
  codeHash : ByteArray → Hash
  /-- The address of a contract, from its deployer and the salt. -/
  contractId : ScAddress → Hash → ScAddress

/-- The network as its contracts see it. -/
structure Contracts where
  /-- The code that was ever uploaded, by its hash. -/
  code : Set Hash
  /-- The code that a contract runs. -/
  executable : ScAddress → Option Hash

namespace Contracts

/-- Contracts may be created and may replace their code, but for those of `pinned`. -/
structure Grows (pinned : Set ScAddress) (s s' : Contracts) : Prop where
  code : s.code ⊆ s'.code
  executable : ∀ a ∈ pinned, ∀ wasmHash,
    s.executable a = some wasmHash → s'.executable a = some wasmHash

/-- Operations that put neither code nor a contract on the network. -/
def IsOther : Operation → Prop
  | .uploadContractWasm _ => False
  | .createContract _ _ _ _ => False
  | _ => True

/-- The successes of the transactions of one operation, with what they return. -/
inductive Succeeds (naming : Naming) (pinned : Set ScAddress) :
    TransactionContents → Option ScVal → Contracts → Contracts → Prop
  | upload {c : TransactionContents} {wasm : ByteArray} (s : Contracts) (b : ScBytes)
      (hops : c.operations = [.uploadContractWasm wasm])
      (hb : b.data.data = (naming.codeHash wasm).toArray) :
      Succeeds naming pinned c (some (.bytes b)) s
        { s with code := insert (naming.codeHash wasm) s.code }
  | create {c : TransactionContents} {deployer : ScAddress} {salt wasmHash : Hash}
      {args : List ScVal} (s : Contracts)
      (hops : c.operations = [.createContract deployer salt wasmHash args])
      (hcode : wasmHash ∈ s.code) (hnew : s.executable (naming.contractId deployer salt) = none) :
      Succeeds naming pinned c (some (.address (naming.contractId deployer salt))) s
        { s with executable :=
            Function.update s.executable (naming.contractId deployer salt) (some wasmHash) }
  | other {c : TransactionContents} {op : Operation} (v : Option ScVal) {s s' : Contracts}
      (hops : c.operations = [op]) (hop : IsOther op) (hgrows : Grows pinned s s') :
      Succeeds naming pinned c v s s'

/-- A node that has an instance reports the code that it runs. -/
def Reports (sdk : Sdk) (s : Contracts) : Exchange → Prop
  | ⟨.getContractData contract key durability, .ok entry⟩ =>
    key = instanceKey → durability = .persistent → ∀ a wasmHash,
      sdk.displayScAddress a = contract → s.executable a = some wasmHash →
        ∃ storage, entry.toData = some (.contractInstance (.wasm wasmHash) storage)
  | _ => True

end Contracts

/-- The contracts under the transactions of the network. -/
def contractsProtocol (sdk : Sdk) (naming : Naming) (pinned : Set ScAddress) :
    Protocol Contracts where
  succeeds := Contracts.Succeeds naming pinned
  others := Contracts.Grows pinned
  reports := Contracts.Reports sdk

namespace Contracts

variable {sdk : Sdk} {naming : Naming} {pinned : Set ScAddress} {s s' : Contracts}
  {c : TransactionContents} {v : Option ScVal}

theorem Grows.refl (s : Contracts) : Grows pinned s s :=
  ⟨subset_rfl, fun _ _ _ ↦ id⟩

theorem Grows.trans {s'' : Contracts} (h : Grows pinned s s') (h' : Grows pinned s' s'') :
    Grows pinned s s'' where
  code := h.code.trans h'.code
  executable a ha wasmHash hs := h'.executable a ha wasmHash (h.executable a ha wasmHash hs)

/-- A success takes nothing away: a creation only goes where there is nothing. -/
theorem Succeeds.grows (h : Succeeds naming pinned c v s s') : Grows pinned s s' := by
  cases h with
  | upload b hops hb => exact ⟨Set.subset_insert _ _, fun _ _ _ ↦ id⟩
  | @create deployer salt hash _ _ hops hcode hnew =>
    refine ⟨subset_rfl, fun a _ wasmHash ha ↦ ?_⟩
    have hne : a ≠ naming.contractId deployer salt := by
      rintro rfl
      cases hnew.symm.trans ha
    exact (Function.update_of_ne hne _ _).trans ha
  | other _ hops hop hgrows => exact hgrows

theorem grows_of_reaches (h : (contractsProtocol sdk naming pinned).Reaches s s') :
    Grows pinned s s' := by
  refine h.invariant (I := Grows pinned s) (.refl s) fun x y hx hstep ↦ ?_
  obtain hothers | ⟨c, v, hsucceeds⟩ := hstep
  · exact hx.trans hothers
  · exact hx.trans (Succeeds.grows hsucceeds)

/-- **An upload** that succeeds returns the hash of the code. -/
theorem codeHash_of_passes {wasm : ByteArray}
    (h : (contractsProtocol sdk naming pinned).Passes c v s s')
    (hops : c.operations = [.uploadContractWasm wasm]) :
    ∃ b : ScBytes, v = some (.bytes b) ∧ b.data.data = (naming.codeHash wasm).toArray := by
  obtain ⟨_, _, -, hsucceeds, -⟩ := h
  cases hsucceeds with
  | upload _ b hops' hb =>
    cases hops.symm.trans hops'
    exact ⟨b, rfl, hb⟩
  | create _ hops' hcode hnew => cases hops.symm.trans hops'
  | other _ hops' hop hgrows =>
    cases hops.symm.trans hops'
    exact hop.elim

/-- **A creation** that succeeds returns the address of a contract that runs the code it was created
with, as long as that contract keeps it. -/
theorem executable_of_passes {deployer : ScAddress} {salt wasmHash : Hash} {args : List ScVal}
    (h : (contractsProtocol sdk naming pinned).Passes c v s s')
    (hops : c.operations = [.createContract deployer salt wasmHash args]) :
    ∃ a, v = some (.address a) ∧ (a ∈ pinned → s'.executable a = some wasmHash) := by
  obtain ⟨_, _, -, hsucceeds, hafter⟩ := h
  cases hsucceeds with
  | upload _ b hops' hb => cases hops.symm.trans hops'
  | create _ hops' hcode hnew =>
    cases hops.symm.trans hops'
    refine ⟨naming.contractId deployer salt, rfl, fun ha ↦ ?_⟩
    exact (grows_of_reaches hafter).executable _ ha wasmHash (Function.update_self _ _ _)
  | other _ hops' hop hgrows =>
    cases hops.symm.trans hops'
    exact hop.elim

end Contracts

end StellarRustClient
