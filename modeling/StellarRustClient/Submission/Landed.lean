import StellarRustClient.Client.Scope
import StellarRustClient.Network
import StellarRustClient.Submission.Paths

/-!
# Transactions that land

Both submission paths build a transaction from an account fetched for it, have it prepared and
signed, send it, and poll until it is final. `Landed` is a trace with such a submission in it that
was seen to succeed. `Landed.exists_lands` says what it means to the network, in any schedule of
which the trace is one thread's part: the operation took effect after the fetch, once, and the value
that was polled is the one it returned.
-/

namespace StellarRustClient

open Interaction

variable {sdk : Sdk} {op : Operation} {data : Option SorobanTransactionData}
  {final : GetTransactionResponse} {t v : List Exchange} {address : String}

/-- The calls that fetch an account. -/
def IsFetch : Call → Prop
  | .getAccount _ => True
  | _ => False

theorem IsLegCall.not_isFetch {c : Call} (h : IsLegCall c) : ¬ IsFetch c := by
  cases c <;> first | exact id | exact h.elim

theorem IsScopeCall.not_isFetch {c : Call} (h : IsScopeCall c) : ¬ IsFetch c := by
  cases c <;> first | exact id | exact h.elim

/-- A transaction with the operation `op` and the data `data` is built from the account at
`address`, prepared, signed and sent, and among the exchanges `v` after that it is polled as a
success. -/
inductive Landed (sdk : Sdk) (address : String) (op : Operation)
    (data : Option SorobanTransactionData) (final : GetTransactionResponse) (v : List Exchange) :
    List Exchange → Prop
  | intro (u : List Exchange) (networkPassphrase : String) (signer : Signer) (account : Account)
      (fee : UInt32) (prepared tx : Transaction) (r : SendTransactionResponse)
      (hs : final.status = .success)
      (hmem : ⟨.getTransaction (tx.hexHash sdk), .ok final⟩ ∈ v) :
      Landed sdk address op data final v (u ++
        ⟨.getAccount address, .ok account⟩ ::
        ⟨.prepareTransaction (TransactionBuilder.build account networkPassphrase fee op data).1,
          .ok prepared⟩ ::
        ⟨.sign signer prepared networkPassphrase, .ok tx⟩ ::
        ⟨.sendTransaction tx, .ok r⟩ :: v)

namespace Landed

theorem append_left (h : Landed sdk address op data final v t) (w : List Exchange) :
    Landed sdk address op data final v (w ++ t) := by
  obtain ⟨u, networkPassphrase, signer, account, fee, prepared, tx, r, hs, hmem⟩ := h
  rw [← List.append_assoc]
  exact .intro (w ++ u) networkPassphrase signer account fee prepared tx r hs hmem

theorem append_right (h : Landed sdk address op data final v t) (w : List Exchange) :
    Landed sdk address op data final (v ++ w) (t ++ w) := by
  obtain ⟨u, networkPassphrase, signer, account, fee, prepared, tx, r, hs, hmem⟩ := h
  rw [List.append_assoc]
  exact .intro u networkPassphrase signer account fee prepared tx r hs
    (List.mem_append_left w hmem)

/-- The calls of a scope do not matter. -/
theorem inScope {t' : List Exchange} (h : Landed sdk address op data final v t)
    (hscope : InScope t t') :
    ∃ v', (∀ x ∈ v', x ∈ v ∨ IsScopeCall x.1) ∧ Landed sdk address op data final v' t' := by
  cases hscope with
  | bare => exact ⟨v, fun _ ↦ .inl, h⟩
  | inside signer => exact ⟨v, fun _ ↦ .inl, h.append_left [_]⟩
  | dropped signer =>
    refine ⟨_, fun x hx ↦ ?_, (h.append_right [⟨.dropSigner signer, ()⟩]).append_left [_]⟩
    obtain hx | hx := List.mem_append.mp hx
    · exact .inl hx
    · exact .inr (List.mem_singleton.mp hx ▸ trivial)

end Landed

/-! ## The submission paths -/

section

variable {networkPassphrase address : String} {signer : Signer} {prepared : Transaction}
  {fee : UInt32} {pollCfg : PollConfig} {o : SubmissionOutcome}
  {x : String × GetTransactionResponse} (ho : o = .returned (.ok x))
include ho

/-- A leg that succeeds, after the fetch and the preparation of its transaction. -/
theorem LegRun.landed (h : LegRun sdk networkPassphrase signer prepared pollCfg t o)
    (address : String) (account : Account) (fee : UInt32) :
    ∃ v, (∀ y ∈ v, IsLegCall y.1) ∧ Landed sdk address op data x.2 v
      (⟨.getAccount address, .ok account⟩ ::
        ⟨.prepareTransaction (TransactionBuilder.build account networkPassphrase fee op data).1,
          .ok prepared⟩ :: t) := by
  have hcalls := h.isLegCall
  obtain ⟨tx, r, v, rfl, hx, hmem, hs⟩ := (h.returned_ok_iff x).mp ho
  refine ⟨v, fun y hy ↦ ?_, ?_⟩
  · exact hcalls y (List.mem_cons_of_mem _ (List.mem_cons_of_mem _ hy))
  · exact .intro [] networkPassphrase signer account fee prepared tx r hs (hx ▸ hmem)

theorem PrepareAndSendRun.landed
    (h : PrepareAndSendRun sdk networkPassphrase address op fee signer pollCfg t o) :
    ∃ v, Landed sdk address op none x.2 v t := by
  cases h with
  | leg account prepared hleg =>
    obtain ⟨v, -, hlanded⟩ := hleg.landed ho address account fee
    exact ⟨v, hlanded⟩
  | _ => cases ho

end

/-! ## What it means to the network -/

section

variable {σ ι : Type*} [DecidableEq ι] {P : Protocol σ} {s s' : Network σ} {i : ι}
  {h : Schedule ι Call Reply (Network σ)}

/-- From `s` on the network goes through the success of `c`, which is what was prepared for the
operation `op` and the data `data`, and which has returned the value that `final` reports. -/
structure Lands (P : Protocol σ) (address : String) (op : Operation)
    (data : Option SorobanTransactionData) (final : GetTransactionResponse)
    (c : TransactionContents) (s s' : Network σ) : Prop where
  source : c.source = address
  operations : c.operations = [op]
  prepared : ∃ a q prepared, P.reports a ⟨.prepareTransaction q, .ok prepared⟩ ∧
    q.contents.sorobanData = data ∧ prepared.contents = c
  passes : ∃ v, P.Passes c v s.state s'.state ∧
    ∀ rv, final.toResultMeta = some (some rv) → v = some rv

/-- **A transaction that has landed** in the exchanges of a thread has succeeded since the thread
fetched the account for it, the last one that it fetched before the exchanges `v`. -/
theorem Landed.exists_lands (hlanded : Landed sdk address op data final v (h.traceOf i))
    (hpath : (networkWorld sdk P).Path s (h.map Prod.snd) s') :
    ∃ (h₁ : Schedule ι Call Reply (Network σ)) (sₐ : Network σ) (x : Exchange)
      (h₂ : Schedule ι Call Reply (Network σ)) (c : TransactionContents),
      h = h₁ ++ (i, sₐ, x) :: h₂ ∧ IsFetch x.1 ∧ (∀ y ∈ h₂.traceOf i, IsFetch y.1 → y ∈ v) ∧
        P.Reaches s.state sₐ.state ∧ Lands P address op data final c sₐ s' := by
  generalize ht : h.traceOf i = t at hlanded
  obtain ⟨u, networkPassphrase, signer, account, fee, prepared, tx, r, hs, hmem⟩ := hlanded
  -- What is sent is what was prepared, with the signature.
  obtain ⟨_, -, ⟨haccount, -⟩, -⟩ := Network.exists_of_mem_traceOf hpath
    (ht ▸ List.mem_append_right u List.mem_cons_self)
  obtain ⟨_, -, ⟨hsource, hsequence, hops⟩, hreports⟩ := Network.exists_of_mem_traceOf hpath
    (ht ▸ List.mem_append_right u (List.mem_cons_of_mem _ List.mem_cons_self))
  obtain ⟨_, -, hsigned, -⟩ := Network.exists_of_mem_traceOf hpath
    (ht ▸ List.mem_append_right u
      (List.mem_cons_of_mem _ (List.mem_cons_of_mem _ List.mem_cons_self)))
  have hsigned : tx.contents = prepared.contents := hsigned
  have hsource : tx.contents.source = address :=
    (congrArg TransactionContents.source hsigned).trans (hsource.trans haccount)
  obtain ⟨h₁, sₐ, h₂, hh, hrest, hreaches, hpasses⟩ :=
    Network.passes_of_traceOf (v := [_, _]) hpath ht hmem hs hsource
      ((congrArg TransactionContents.sequence hsigned).trans hsequence)
  refine ⟨h₁, sₐ, _, h₂, tx.contents, hh, trivial, fun y hy hfetch ↦ ?_, hreaches, hsource, ?_, ?_,
    hpasses⟩
  · rw [hrest] at hy
    simp only [List.cons_append, List.nil_append, List.mem_cons] at hy
    obtain rfl | rfl | rfl | hy := hy
    · exact hfetch.elim
    · exact hfetch.elim
    · exact hfetch.elim
    · exact hy
  · exact (congrArg TransactionContents.operations hsigned).trans hops
  · exact ⟨_, _, prepared, hreports, rfl, hsigned.symm⟩

end

end StellarRustClient
