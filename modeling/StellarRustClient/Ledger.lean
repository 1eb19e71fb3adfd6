import Mathlib.Data.Set.Insert
import Mathlib.Logic.Relation
import StellarRustClient.Interaction.World
import StellarRustClient.Sdk.Server

/-!
# The ledger

The network as one account sees it: the sequence number of the account, the transactions that were
handed to the network, and those that were applied. A transaction is applied only when its number is
the one after the account's, and uses that number up, whether or not it succeeds; when that happens
is up to the network.

`ledgerWorld` is the environment of the client around such a ledger: what a node that knows the
ledger may answer, with a node and signers that keep what they are given.
-/

namespace StellarRustClient

open Interaction

/-- The ledger as one account sees it. -/
structure Ledger where
  /-- The sequence number of the account. -/
  sequence : ℤ
  /-- The transactions that were handed to the network. -/
  submitted : Set TransactionContents
  /-- The transactions that were applied, successful or not, in order. -/
  applied : List TransactionContents

namespace Ledger

/-- A ledger of an account of which nothing is on its way. -/
def start (sequence : ℤ) : Ledger where
  sequence := sequence
  submitted := ∅
  applied := []

/-- The ledger after the application of `c`. -/
def apply (s : Ledger) (c : TransactionContents) : Ledger :=
  { s with sequence := s.sequence + 1, applied := s.applied ++ [c] }

/-- The network applies a transaction of the account whose number comes next. -/
def Applies (address : String) (s s' : Ledger) : Prop :=
  ∃ c ∈ s.submitted, c.source = address ∧ c.sequence = s.sequence + 1 ∧ s' = s.apply c

/-- The hash under which a node knows a transaction. -/
def hexHash (sdk : Sdk) (c : TransactionContents) : String :=
  hexEncode (sdk.hash c).toList

/-- The replies of a node that knows the ledger, of signers of the account that only add
signatures, and of a simulation that does not touch sequence numbers. -/
def Answers (sdk : Sdk) (address : String) (s : Ledger) : Exchange → Prop
  | ⟨.getAccount a, .ok account⟩ => a = address → account = ⟨address, s.sequence⟩
  | ⟨.getTransaction hash, .ok response⟩ => response.status ≠ .notFound →
    ∀ c ∈ s.submitted, hexHash sdk c = hash → c ∈ s.applied
  | ⟨.prepareTransaction q, .ok prepared⟩ => prepared.contents.sequence = q.contents.sequence
  | ⟨.sign _ tx _, .ok signed⟩ => signed.contents = tx.contents
  | ⟨.buildSigner, .ok signer⟩ => signer.publicKey = address
  | _ => True

/-- The ledger after an exchange of the client. -/
def after (s : Ledger) : Exchange → Ledger
  | ⟨.sendTransaction tx, _⟩ => { s with submitted := insert tx.contents s.submitted }
  | _ => s

/-- Only a send changes the ledger. -/
theorem after_of_ne_send {c : Call} (hc : ∀ tx, c ≠ .sendTransaction tx) (s : Ledger)
    (r : Reply c) : s.after ⟨c, r⟩ = s := by
  cases c with
  | sendTransaction tx => exact absurd rfl (hc tx)
  | _ => rfl

end Ledger

/-- The environment of a client for the account `address`. -/
def ledgerWorld (sdk : Sdk) (address : String) : World Call Reply Ledger where
  drift := Relation.ReflTransGen (Ledger.Applies address)
  step s x s' := s.Answers sdk address x ∧ s' = s.after x

namespace Ledger

variable {sdk : Sdk} {address : String} {s s' : Ledger} {x : Exchange}
  {h : History Call Reply Ledger}

/-- The numbers of the applied transactions are used up, and no number is used twice. -/
structure WellFormed (s : Ledger) : Prop where
  sequence_le : ∀ c ∈ s.applied, c.sequence ≤ s.sequence
  nodup : s.applied.Nodup

theorem wellFormed_start (n : ℤ) : (start n).WellFormed where
  sequence_le := by simp [start]
  nodup := List.nodup_nil

theorem WellFormed.applies (hs : s.WellFormed) (h : Applies address s s') : s'.WellFormed := by
  obtain ⟨c, -, -, hseq, rfl⟩ := h
  have hnew : c ∉ s.applied := fun hmem ↦ by
    have := hs.sequence_le c hmem
    omega
  refine ⟨fun c' hmem ↦ ?_, ?_⟩
  · rcases List.mem_append.mp hmem with hmem | hmem
    · exact (hs.sequence_le c' hmem).trans (Int.le_add_one le_rfl)
    · rw [List.mem_singleton.mp hmem]
      exact hseq.le
  · rw [apply, List.nodup_append]
    refine ⟨hs.nodup, by simp, ?_⟩
    rintro a ha b hb rfl
    exact hnew (List.mem_singleton.mp hb ▸ ha)

@[simp] theorem after_sequence (s : Ledger) (x : Exchange) : (s.after x).sequence = s.sequence := by
  obtain ⟨c, r⟩ := x
  cases c <;> rfl

@[simp] theorem after_applied (s : Ledger) (x : Exchange) : (s.after x).applied = s.applied := by
  obtain ⟨c, r⟩ := x
  cases c <;> rfl

theorem subset_after (s : Ledger) (x : Exchange) : s.submitted ⊆ (s.after x).submitted := by
  obtain ⟨c, r⟩ := x
  cases c with
  | sendTransaction tx => exact Set.subset_insert _ _
  | _ => exact subset_rfl

theorem WellFormed.after (hs : s.WellFormed) : (s.after x).WellFormed where
  sequence_le := by simpa using hs.sequence_le
  nodup := by simpa using hs.nodup

theorem WellFormed.drift (hs : s.WellFormed) (h : (ledgerWorld sdk address).drift s s') :
    s'.WellFormed := by
  induction h with
  | refl => exact hs
  | tail _ h ih => exact ih.applies h

/-- Well-formedness along a history, and where each exchange takes place. -/
theorem WellFormed.path (hs : s.WellFormed) (h' : (ledgerWorld sdk address).Path s h s') :
    s'.WellFormed ∧ ∀ y ∈ h, y.1.WellFormed :=
  h'.invariant hs (fun _ _ hs hdrift ↦ hs.drift hdrift) (by
    rintro s x _ hs ⟨-, rfl⟩
    exact hs.after)

/-! ## What only grows -/

/-- A later ledger. -/
structure Extends (s s' : Ledger) : Prop where
  sequence_le : s.sequence ≤ s'.sequence
  submitted : s.submitted ⊆ s'.submitted
  applied : s.applied ⊆ s'.applied

theorem Extends.refl (s : Ledger) : Extends s s :=
  ⟨le_rfl, subset_rfl, List.Subset.refl _⟩

theorem Extends.trans {s'' : Ledger} (h : Extends s s') (h' : Extends s' s'') : Extends s s'' :=
  ⟨h.sequence_le.trans h'.sequence_le, h.submitted.trans h'.submitted,
    List.Subset.trans h.applied h'.applied⟩

theorem extends_of_drift (h : (ledgerWorld sdk address).drift s s') : Extends s s' := by
  induction h with
  | refl => exact .refl s
  | tail _ h ih =>
    obtain ⟨c, -, -, -, rfl⟩ := h
    exact ih.trans ⟨Int.le_add_one le_rfl, subset_rfl, List.subset_append_left _ _⟩

theorem submitted_of_drift (h : (ledgerWorld sdk address).drift s s') :
    s'.submitted = s.submitted := by
  induction h with
  | refl => rfl
  | tail _ h ih =>
    obtain ⟨c, -, -, -, rfl⟩ := h
    exact ih

theorem extends_after (s : Ledger) (x : Exchange) : Extends s (s.after x) where
  sequence_le := (after_sequence s x).ge
  submitted := subset_after s x
  applied := by rw [after_applied]; exact List.Subset.refl _

theorem extends_of_path (h' : (ledgerWorld sdk address).Path s h s') : Extends s s' := by
  induction h' with
  | nil s => exact .refl s
  | @cons s s₁ s₂ s' x h hdrift hstep hrest ih =>
    obtain ⟨-, rfl⟩ := hstep
    exact ((extends_of_drift hdrift).trans (extends_after s₁ x)).trans ih

/-- Exchanges that leave a ledger alone. -/
theorem path_of_stationary {t : List Exchange}
    (ht : ∀ x ∈ t, s.Answers sdk address x ∧ s.after x = s) :
    (ledgerWorld sdk address).Path s (t.map (s, ·)) s := by
  induction t with
  | nil => exact .nil s
  | cons x t ih =>
    obtain ⟨⟨hanswer, hafter⟩, ht⟩ := List.forall_mem_cons.mp ht
    exact .cons .refl ⟨hanswer, hafter.symm⟩ (ih ht)

/-- Once a node has reported a transaction as final, it is applied. -/
theorem applied_of_final {t₁ t₂ : List Exchange} {tx : Transaction}
    {r : Except RpcError SendTransactionResponse} {response : GetTransactionResponse}
    (h' : (ledgerWorld sdk address).Path s h s')
    (ht : h.trace = t₁ ++ ⟨.sendTransaction tx, r⟩ :: t₂)
    (hmem : ⟨.getTransaction (tx.hexHash sdk), .ok response⟩ ∈ t₂)
    (hfinal : response.status ≠ .notFound) : tx.contents ∈ s'.applied := by
  obtain ⟨u, v, rfl⟩ := List.append_of_mem hmem
  obtain ⟨h₁, h₂, rfl, rfl, hh₂⟩ := List.map_eq_append_iff.mp ht
  obtain ⟨⟨sₛ, _⟩, h₃, rfl, rfl, hh₃⟩ := List.map_eq_cons_iff.mp hh₂
  obtain ⟨h₄, h₅, rfl, rfl, hh₅⟩ := List.map_eq_append_iff.mp hh₃
  obtain ⟨⟨sq, _⟩, h₆, rfl, rfl, rfl⟩ := List.map_eq_cons_iff.mp hh₅
  obtain ⟨s₁, -, hpath₁⟩ := World.path_append.mp h'
  cases hpath₁ with
  | cons hdrift hsend hpath₂ =>
    obtain ⟨-, rfl⟩ := hsend
    obtain ⟨s₂, hpath₃, hpath₄⟩ := World.path_append.mp hpath₂
    cases hpath₄ with
    | cons hdrift' hquery hpath₅ =>
      obtain ⟨hanswer, rfl⟩ := hquery
      have hsubmitted := (extends_of_drift hdrift').submitted
        ((extends_of_path hpath₃).submitted (Set.mem_insert tx.contents _))
      exact (extends_of_path hpath₅).applied (hanswer hfinal _ hsubmitted rfl)

end Ledger

end StellarRustClient
