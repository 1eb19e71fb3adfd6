import StellarRustClient.Interaction.Threads
import StellarRustClient.Ledger

/-!
# The network

The network around any state that its transactions work on. A `Protocol` is what is known of that
state: what the success of a transaction does to it, what everybody else may do, and what is
reported of it. `networkWorld` is the environment of a client around such a network: a node that
knows it, and signers that only add signatures.

A client sees of all this the replies it gets. `Network.passes_of_polled` is what they tell: a
transaction that was numbered after a fetch of its account, and is then polled as a success, has
succeeded in between, with the value that is reported. `Network.passes_of_traceOf` is the same for
one of many threads.
-/

namespace StellarRustClient

open Interaction

variable {σ : Type*}

/-- What is known of the states that the transactions of a network work on. -/
structure Protocol (σ : Type*) where
  /-- A transaction succeeds, and returns a value if it has one. -/
  succeeds : TransactionContents → Option ScVal → σ → σ → Prop
  /-- Somebody else acts. -/
  others : σ → σ → Prop
  /-- What is replied in this state. -/
  reports : σ → Exchange → Prop

namespace Protocol

variable (P : Protocol σ)

/-- One step of the network. -/
def Step (a b : σ) : Prop :=
  P.others a b ∨ ∃ c v, P.succeeds c v a b

/-- Any number of steps of the network. -/
def Reaches : σ → σ → Prop :=
  Relation.ReflTransGen P.Step

/-- The network goes from one state to another by way of a success of `c`. -/
def Passes (c : TransactionContents) (v : Option ScVal) (a b : σ) : Prop :=
  ∃ x y, P.Reaches a x ∧ P.succeeds c v x y ∧ P.Reaches y b

variable {P} {a a' b b' : σ} {c : TransactionContents} {v : Option ScVal}

theorem Reaches.refl (a : σ) : P.Reaches a a :=
  Relation.ReflTransGen.refl

theorem Reaches.trans {a b c : σ} (h : P.Reaches a b) (h' : P.Reaches b c) : P.Reaches a c :=
  Relation.ReflTransGen.trans h h'

theorem Step.reaches (h : P.Step a b) : P.Reaches a b :=
  Relation.ReflTransGen.single h

/-- What every step preserves. -/
theorem Reaches.invariant {I : σ → Prop} (h : P.Reaches a b) (ha : I a)
    (hstep : ∀ x y, I x → P.Step x y → I y) : I b := by
  induction h with
  | refl => exact ha
  | tail _ hxy ih => exact hstep _ _ ih hxy

theorem Passes.trans (h : P.Passes c v a b) (ha : P.Reaches a' a) (hb : P.Reaches b b') :
    P.Passes c v a' b' := by
  obtain ⟨x, y, hx, hxy, hy⟩ := h
  exact ⟨x, y, ha.trans hx, hxy, hy.trans hb⟩

end Protocol

/-- The network around a state of its protocol. -/
structure Network (σ : Type*) where
  state : σ
  /-- The transactions that were handed to the network. -/
  submitted : Set TransactionContents
  /-- The transactions that have succeeded, with what they returned. -/
  succeeded : Set (TransactionContents × Option ScVal)

namespace Network

/-- What the network does on its own. -/
inductive Moves (P : Protocol σ) : Network σ → Network σ → Prop
  | succeed (s : Network σ) (c : TransactionContents) (v : Option ScVal) (a : σ)
      (hc : c ∈ s.submitted) (h : P.succeeds c v s.state a) :
      Moves P s { s with state := a, succeeded := insert (c, v) s.succeeded }
  | others (s : Network σ) (a : σ) (h : P.others s.state a) : Moves P s { s with state := a }

/-- The replies of a node that knows the network, and of signers that only add signatures. An
account is reported with a number that its successful transactions have used up, and a transaction
as a success only with what it has returned. -/
def Answers (sdk : Sdk) (s : Network σ) : Exchange → Prop
  | ⟨.getAccount address, .ok account⟩ => account.accountId = address ∧
    ∀ c v, (c, v) ∈ s.succeeded → c.source = address → c.sequence ≤ account.sequence
  | ⟨.prepareTransaction q, .ok prepared⟩ => prepared.contents.source = q.contents.source ∧
    prepared.contents.sequence = q.contents.sequence ∧
    prepared.contents.operations = q.contents.operations
  | ⟨.sign _ tx _, .ok signed⟩ => signed.contents = tx.contents
  | ⟨.getTransaction hash, .ok response⟩ => response.status = .success →
    ∀ c ∈ s.submitted, Ledger.hexHash sdk c = hash →
      ∃ v, (c, v) ∈ s.succeeded ∧ ∀ rv, response.toResultMeta = some (some rv) → v = some rv
  | _ => True

/-- The network after an exchange of the client. -/
def after (s : Network σ) : Exchange → Network σ
  | ⟨.sendTransaction tx, _⟩ => { s with submitted := insert tx.contents s.submitted }
  | _ => s

end Network

/-- The environment of a client around a network. -/
def networkWorld (sdk : Sdk) (P : Protocol σ) : World Call Reply (Network σ) where
  drift := Relation.ReflTransGen (Network.Moves P)
  step s x s' := (s.Answers sdk x ∧ P.reports s.state x) ∧ s' = s.after x

namespace Network

variable {sdk : Sdk} {P : Protocol σ} {s s' s'' : Network σ} {c : TransactionContents}
  {h : History Call Reply (Network σ)}

/-! ## What only grows -/

/-- A later state of the network. -/
structure Later (P : Protocol σ) (s s' : Network σ) : Prop where
  reaches : P.Reaches s.state s'.state
  submitted : s.submitted ⊆ s'.submitted
  succeeded : s.succeeded ⊆ s'.succeeded

theorem Later.refl (s : Network σ) : Later P s s :=
  ⟨.refl _, subset_rfl, subset_rfl⟩

theorem Later.trans (h : Later P s s') (h' : Later P s' s'') : Later P s s'' :=
  ⟨h.reaches.trans h'.reaches, h.submitted.trans h'.submitted, h.succeeded.trans h'.succeeded⟩

theorem Moves.later (h : Moves P s s') : Later P s s' := by
  cases h with
  | succeed c v a hc h =>
    exact ⟨Protocol.Step.reaches (.inr ⟨c, v, h⟩), subset_rfl, Set.subset_insert _ _⟩
  | others a h => exact ⟨Protocol.Step.reaches (.inl h), subset_rfl, subset_rfl⟩

theorem later_of_moves (h : Relation.ReflTransGen (Moves P) s s') : Later P s s' := by
  induction h with
  | refl => exact .refl s
  | tail _ hmoves ih => exact ih.trans hmoves.later

@[simp] theorem after_state (s : Network σ) (x : Exchange) : (s.after x).state = s.state := by
  obtain ⟨c, r⟩ := x
  cases c <;> rfl

@[simp] theorem after_succeeded (s : Network σ) (x : Exchange) :
    (s.after x).succeeded = s.succeeded := by
  obtain ⟨c, r⟩ := x
  cases c <;> rfl

theorem later_after (s : Network σ) (x : Exchange) : Later P s (s.after x) := by
  refine ⟨?_, ?_, ?_⟩
  · rw [after_state]
    exact .refl _
  · obtain ⟨c, r⟩ := x
    cases c with
    | sendTransaction tx => exact Set.subset_insert _ _
    | _ => exact subset_rfl
  · rw [after_succeeded]

/-- A history leads to a later state, by way of the states of its exchanges. -/
theorem later_of_path (hpath : (networkWorld sdk P).Path s h s') :
    Later P s s' ∧ ∀ y ∈ h, Later P s y.1 ∧ Later P y.1 s' := by
  refine hpath.rel .refl (fun _ _ _ ↦ .trans) (fun _ _ ↦ later_of_moves) ?_
  rintro s x _ ⟨-, rfl⟩
  exact later_after s x

/-- Each exchange of a history is answered as the network stands. -/
theorem answers_of_path (hpath : (networkWorld sdk P).Path s h s') :
    ∀ y ∈ h, y.1.Answers sdk y.2 ∧ P.reports y.1.state y.2 := by
  intro y hy
  obtain ⟨h₁, h₂, rfl⟩ := List.append_of_mem hy
  obtain ⟨_, _, -, -, ⟨hanswer, -⟩, -⟩ := World.path_append_cons.mp hpath
  exact hanswer

/-! ## Successes -/

theorem passes_of_moves {v : Option ScVal} (hdrift : Relation.ReflTransGen (Moves P) s s')
    (hc : (c, v) ∈ s'.succeeded) : (c, v) ∈ s.succeeded ∨ P.Passes c v s.state s'.state := by
  induction hdrift with
  | refl => exact .inl hc
  | @tail x y hdrift hmoves ih =>
    have hreaches : P.Reaches s.state x.state := (later_of_moves hdrift).reaches
    have hold (hc : (c, v) ∈ x.succeeded) : (c, v) ∈ s.succeeded ∨ P.Passes c v s.state y.state :=
      (ih hc).imp_right fun hpasses ↦ hpasses.trans (.refl _) hmoves.later.reaches
    cases hmoves with
    | succeed c' v' a hsubmitted h =>
      obtain heq | hc := hc
      · cases heq
        exact .inr ⟨x.state, a, hreaches, h, .refl a⟩
      · exact hold hc
    | others a h => exact hold hc

/-- What has succeeded after a history has done so before it or in the course of it. -/
theorem passes_of_path {v : Option ScVal} (hpath : (networkWorld sdk P).Path s h s')
    (hc : (c, v) ∈ s'.succeeded) : (c, v) ∈ s.succeeded ∨ P.Passes c v s.state s'.state := by
  induction hpath with
  | nil s => exact .inl hc
  | @cons s s₁ s₂ s' x h hdrift hstep hrest ih =>
    obtain ⟨-, rfl⟩ := hstep
    have hbefore : P.Reaches s.state s₁.state := (later_of_moves hdrift).reaches
    have hsame : P.Reaches s₁.state (s₁.after x).state := (later_after s₁ x).reaches
    have hafter : P.Reaches (s₁.after x).state s'.state := (later_of_path hrest).1.reaches
    obtain hc | hpasses := ih hc
    · rw [after_succeeded] at hc
      exact (passes_of_moves hdrift hc).imp_right fun hpasses ↦
        hpasses.trans (.refl _) (hsame.trans hafter)
    · exact .inr (hpasses.trans (hbefore.trans hsame) (.refl _))

/-- **What a poll tells.** A transaction whose number comes after the one that its account was
fetched with, and that is polled as a success after it was sent, has succeeded since the fetch, and
has returned the value that the poll reports, if it reports one. -/
theorem passes_of_polled {h₁ h₂ h₃ h₄ : History Call Reply (Network σ)} {sₐ sₛ sₚ : Network σ}
    {address : String} {account : Account} {tx : Transaction}
    {r : Except RpcError SendTransactionResponse} {final : GetTransactionResponse}
    (hpath : (networkWorld sdk P).Path s
      (h₁ ++ (sₐ, ⟨.getAccount address, .ok account⟩) ::
        (h₂ ++ (sₛ, ⟨.sendTransaction tx, r⟩) ::
          (h₃ ++ (sₚ, ⟨.getTransaction (tx.hexHash sdk), .ok final⟩) :: h₄))) s')
    (hs : final.status = .success) (hsource : tx.contents.source = address)
    (hsequence : tx.contents.sequence = account.sequence + 1) :
    ∃ v, P.Passes tx.contents v sₐ.state s'.state ∧
      ∀ rv, final.toResultMeta = some (some rv) → v = some rv := by
  obtain ⟨_, _, -, -, ⟨⟨⟨-, hnumber⟩, -⟩, hfetch⟩, hafter⟩ := World.path_append_cons.mp hpath
  rw [hfetch] at hafter
  -- The account has not used the number up, so the transaction has not succeeded yet.
  have hnew (v : Option ScVal) : (tx.contents, v) ∉ sₐ.succeeded := fun hmem ↦ by
    have := hnumber tx.contents v hmem hsource
    omega
  obtain ⟨_, _, hsend, hdrift, ⟨-, rfl⟩, hrest⟩ := World.path_append_cons.mp hafter
  obtain ⟨_, _, hpoll, hdrift', ⟨⟨hanswer, -⟩, hquery⟩, hend⟩ := World.path_append_cons.mp hrest
  rw [hquery] at hend
  have hsubmitted : tx.contents ∈ sₚ.submitted :=
    (later_of_moves hdrift').submitted
      ((later_of_path hpoll).1.submitted (Set.mem_insert tx.contents sₛ.submitted))
  obtain ⟨v, hv, hvalue⟩ := hanswer hs _ hsubmitted rfl
  refine ⟨v, ?_, hvalue⟩
  have hsucceeded : (tx.contents, v) ∈ s'.succeeded := (later_of_path hend).1.succeeded hv
  exact (passes_of_path hafter hsucceeded).resolve_left (hnew v)

/-! ## Threads on a network -/

section

variable {ι : Type*} [DecidableEq ι] {i : ι} {l : Schedule ι Call Reply (Network σ)}

/-- Each exchange of a thread is answered as the network stands at a point of the schedule. -/
theorem exists_of_mem_traceOf (hpath : (networkWorld sdk P).Path s (l.map Prod.snd) s')
    {x : Exchange} (hx : x ∈ l.traceOf i) : ∃ sₓ : Network σ, (Later P s sₓ ∧ Later P sₓ s') ∧
      sₓ.Answers sdk x ∧ P.reports sₓ.state x := by
  obtain ⟨sₓ, hmem⟩ := Schedule.exists_of_mem_traceOf hx
  have hmem : (sₓ, x) ∈ l.map Prod.snd := List.mem_map_of_mem hmem
  exact ⟨sₓ, (later_of_path hpath).2 _ hmem, answers_of_path hpath _ hmem⟩

/-- What a poll tells a thread, wherever the others come in between. -/
theorem passes_of_traceOf {u v w : List Exchange} {address : String} {account : Account}
    {tx : Transaction} {r : Except RpcError SendTransactionResponse}
    {final : GetTransactionResponse}
    (hpath : (networkWorld sdk P).Path s (l.map Prod.snd) s')
    (ht : l.traceOf i = u ++ ⟨.getAccount address, .ok account⟩ ::
      (v ++ ⟨.sendTransaction tx, r⟩ :: w))
    (hmem : ⟨.getTransaction (tx.hexHash sdk), .ok final⟩ ∈ w) (hs : final.status = .success)
    (hsource : tx.contents.source = address)
    (hsequence : tx.contents.sequence = account.sequence + 1) :
    ∃ (l₁ : Schedule ι Call Reply (Network σ)) (sₐ : Network σ)
      (l₂ : Schedule ι Call Reply (Network σ)),
      l = l₁ ++ (i, sₐ, ⟨.getAccount address, .ok account⟩) :: l₂ ∧
        l₂.traceOf i = v ++ ⟨.sendTransaction tx, r⟩ :: w ∧ P.Reaches s.state sₐ.state ∧
        ∃ value, P.Passes tx.contents value sₐ.state s'.state ∧
          ∀ rv, final.toResultMeta = some (some rv) → value = some rv := by
  obtain ⟨l₁, sₐ, l₂, rfl, -, hrest⟩ := Schedule.exists_of_traceOf_eq ht
  obtain ⟨l₃, sₛ, l₄, rfl, -, rfl⟩ := Schedule.exists_of_traceOf_eq hrest
  obtain ⟨sₚ, hpoll⟩ := Schedule.exists_of_mem_traceOf hmem
  obtain ⟨l₅, l₆, rfl⟩ := List.append_of_mem hpoll
  refine ⟨l₁, sₐ, _, rfl, hrest, ?_, ?_⟩
  · exact ((later_of_path hpath).2 (sₐ, ⟨.getAccount address, .ok account⟩)
      (by simp)).1.reaches
  · simp only [List.map_append, List.map_cons] at hpath
    exact passes_of_polled hpath hs hsource hsequence

/-- A thread that makes one call returns what it makes of a reply of the network as it stands at a
point of the schedule. -/
theorem exists_of_runs_ask {α : Type} {call : Call} {f : Reply call → Except SorobanUtilsError α}
    {x : Except SorobanUtilsError α}
    (hpath : (networkWorld sdk P).Path s (l.map Prod.snd) s')
    (hrun : Runs (Prog.ask call f : Async α).run (l.traceOf i) (.returned x)) :
    ∃ r sₓ, l.traceOf i = [⟨call, r⟩] ∧ x = f r ∧ (Later P s sₓ ∧ Later P sₓ s') ∧
      P.reports sₓ.state ⟨call, r⟩ := by
  obtain ⟨-, ho⟩ | ⟨r, ht, ho⟩ := runs_ask.mp hrun
  · cases ho
  obtain ⟨sₓ, hlater, -, hreports⟩ :=
    exists_of_mem_traceOf hpath (ht ▸ List.mem_singleton_self _)
  exact ⟨r, sₓ, ht, Outcome.returned.inj ho, hlater, hreports⟩

end

end Network

end StellarRustClient
