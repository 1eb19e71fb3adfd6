import Mathlib.Data.List.Basic
import StellarRustClient.Submission.Poll
import StellarRustClient.Ttl

/-!
# Sign, send, poll

Both submission paths of the crate end the same way once a transaction is prepared. `signSendPoll`
is that common end; `submit` and `prepareAndSend` are equal to programs built on it, and `LegRun`
lists the five ways it can run. Everything that holds of a submission whatever the path is proved
from these.

## Positions

A property of a run says where in the trace a call stands: `t = t₁ ++ x :: t₂` is the run with `x`
after `t₁` and before `t₂`. A trace that is itself put together from parts has `x` in one of them,
which is `append_cons_eq_append_iff`.
-/

namespace StellarRustClient

open Interaction

variable (sdk : Sdk)

/-- The common end of the submission paths: sign, send, and poll for the hash of what was
signed. -/
def signSendPoll (networkPassphrase : String) (signer : Signer) (prepared : Transaction)
    (pollCfg : PollConfig) : Async (String × GetTransactionResponse) := do
  let signed ← signer.sign prepared networkPassphrase
  let hash := signed.hexHash sdk
  let _ ← sendTransaction sdk signed
  let response ← pollTransactionStatus sdk hash pollCfg
  pure (hash, response)

theorem submit_eq (networkPassphrase : String) (signer : Signer) (prepared : Transaction)
    (pollCfg : PollConfig) :
    submit sdk signer networkPassphrase prepared pollCfg =
      (fun x ↦ .executed x.1) <$> signSendPoll sdk networkPassphrase signer prepared pollCfg := by
  simp only [submit, signSendPoll, map_bind, map_pure]

theorem prepareAndSend_eq (networkPassphrase callerAddress : String) (operation : Operation)
    (fee : UInt32) (signer : Signer) (pollCfg : PollConfig) :
    prepareAndSend sdk networkPassphrase callerAddress operation fee signer pollCfg = (do
      let account ← getAccount sdk callerAddress
      let prepared ←
        Prog.ask (.prepareTransaction
          (TransactionBuilder.build account networkPassphrase fee operation none).1)
          (Except.mapError (simulationError sdk))
      signSendPoll sdk networkPassphrase signer prepared pollCfg) := rfl

/-- The outcome of a submission: the hash of what was signed, and the response of the poll. -/
abbrev SubmissionOutcome := Outcome (Except SorobanUtilsError (String × GetTransactionResponse))

/-- The runs of `signSendPoll` on `prepared`. -/
inductive LegRun (networkPassphrase : String) (signer : Signer) (prepared : Transaction)
    (pollCfg : PollConfig) : List Exchange → SubmissionOutcome → Prop
  | signing : LegRun networkPassphrase signer prepared pollCfg [] .running
  | signFailed (e : SorobanUtilsError) : LegRun networkPassphrase signer prepared pollCfg
      [⟨.sign signer prepared networkPassphrase, .error e⟩] (.returned (.error e))
  | sending (signed : Transaction) : LegRun networkPassphrase signer prepared pollCfg
      [⟨.sign signer prepared networkPassphrase, .ok signed⟩] .running
  | sendFailed (signed : Transaction) (e : RpcError) :
      LegRun networkPassphrase signer prepared pollCfg
        [⟨.sign signer prepared networkPassphrase, .ok signed⟩,
          ⟨.sendTransaction signed, .error e⟩]
        (.returned (.error (rpcError sdk e)))
  | polling (signed : Transaction) (response : SendTransactionResponse) {t : List Exchange}
      {o : Outcome (Except SorobanUtilsError GetTransactionResponse)}
      (hpoll : Runs (pollTransactionStatus sdk (signed.hexHash sdk) pollCfg).run t o) :
      LegRun networkPassphrase signer prepared pollCfg
        (⟨.sign signer prepared networkPassphrase, .ok signed⟩ ::
          ⟨.sendTransaction signed, .ok response⟩ :: t)
        (o.map (Except.map fun r ↦ (signed.hexHash sdk, r)))

variable {sdk} {networkPassphrase : String} {signer : Signer} {prepared : Transaction}
  {pollCfg : PollConfig} {t : List Exchange}

theorem runs_signSendPoll {o : SubmissionOutcome} :
    Runs (signSendPoll sdk networkPassphrase signer prepared pollCfg).run t o ↔
      LegRun sdk networkPassphrase signer prepared pollCfg t o := by
  rw [signSendPoll, runs_sign_bind]
  constructor
  · intro h
    obtain ⟨rfl, rfl⟩ | ⟨e, rfl, rfl⟩ | ⟨signed, t, rfl, h₁⟩ := h
    · exact .signing
    · exact .signFailed e
    obtain ⟨rfl, rfl⟩ | ⟨e, rfl, rfl⟩ | ⟨response, t, rfl, h₂⟩ := runs_sendTransaction_bind.mp h₁
    · exact .sending signed
    · exact .sendFailed signed e
    rw [bind_pure_comp] at h₂
    obtain ⟨o', h₃, rfl⟩ := runs_except_map.mp h₂
    exact .polling signed response h₃
  · intro h
    cases h with
    | signing => exact .waiting
    | signFailed e => exact .failed e
    | sending signed => exact .reply signed (runs_sendTransaction_bind.mpr .waiting)
    | sendFailed signed e => exact .reply signed (runs_sendTransaction_bind.mpr (.failed e))
    | polling signed response hpoll =>
      refine .reply signed (runs_sendTransaction_bind.mpr (.reply response ?_))
      rw [bind_pure_comp]
      exact runs_except_map.mpr ⟨_, hpoll, rfl⟩

/-! ## What a leg does -/

/-- The transaction of a send. -/
def sentTransaction : Exchange → Option Transaction
  | ⟨.sendTransaction tx, _⟩ => some tx
  | _ => none

/-- The transactions handed to `send_transaction`, in order. -/
def sends (t : List Exchange) : List Transaction :=
  t.filterMap sentTransaction

@[simp] theorem sends_append (t₁ t₂ : List Exchange) : sends (t₁ ++ t₂) = sends t₁ ++ sends t₂ :=
  List.filterMap_append ..

theorem mem_sends {tx : Transaction} :
    tx ∈ sends t ↔ ∃ r, (⟨.sendTransaction tx, r⟩ : Exchange) ∈ t := by
  constructor
  · intro hmem
    obtain ⟨⟨c, r⟩, hx, hr⟩ := List.mem_filterMap.mp hmem
    cases c <;> simp [sentTransaction] at hr
    subst hr
    exact ⟨r, hx⟩
  · rintro ⟨r, hmem⟩
    exact List.mem_filterMap.mpr ⟨_, hmem, rfl⟩

/-- The calls of a leg. -/
def IsLegCall : Call → Prop
  | .sign _ _ _ => True
  | .sendTransaction _ => True
  | .now => True
  | .sleep _ => True
  | .getTransaction _ => True
  | _ => False

theorem IsPollCall.isLegCall {hash : String} {c : Call} (h : IsPollCall hash c) : IsLegCall c := by
  cases c <;> trivial

/-- The hash of `tx` is seen with the status `Success`. -/
def PolledSuccess (sdk : Sdk) (tx : Transaction) (t : List Exchange) : Prop :=
  ∃ response : GetTransactionResponse,
    ⟨.getTransaction (tx.hexHash sdk), .ok response⟩ ∈ t ∧ response.status = .success

/-- Calls that neither sign nor send. -/
def IsUnsubmitted : Call → Prop
  | .sign _ _ _ => False
  | .sendTransaction _ => False
  | _ => True

/-- The reply of a status query for `hash`. -/
def replyFor (hash : String) : Exchange → Option (Except RpcError GetTransactionResponse)
  | ⟨.getTransaction h, r⟩ => if h = hash then some r else none
  | _ => none

/-- The replies to the status queries for `hash`, in order. -/
def repliesFor (hash : String) (t : List Exchange) :
    List (Except RpcError GetTransactionResponse) :=
  t.filterMap (replyFor hash)

/-- The first status seen for `hash` that is not `NotFound`. -/
def FirstFinalStatus (hash : String) (status : TransactionStatus) (t : List Exchange) : Prop :=
  ∃ l response l', repliesFor hash t = l ++ .ok response :: l' ∧ (∀ r ∈ l, IsNotFound r) ∧
    response.status = status

/-- A poll asks for its own hash only. -/
theorem repliesFor_eq_queryReplies {hash : String} (ht : ∀ x ∈ t, IsPollCall hash x.1) :
    repliesFor hash t = queryReplies t := by
  refine List.filterMap_congr fun x hx ↦ ?_
  have hcall := ht x hx
  obtain ⟨c, r⟩ := x
  cases c <;> first | rfl | exact if_pos hcall

/-- The replies that say that a step of a submission has failed. -/
def IsFailure : Exchange → Prop
  | ⟨.getAccount _, .error _⟩ => True
  | ⟨.sign _ _ _, .error _⟩ => True
  | ⟨.sendTransaction _, .error _⟩ => True
  | ⟨.getTransaction _, .error _⟩ => True
  | ⟨.getTransaction _, .ok response⟩ => response.status = .failed
  | _ => False

/-- A poll returns a response exactly when it was given it with the status `Success`. -/
theorem PollOutcome.returned_ok_iff {hash : String}
    {l : List (Except RpcError GetTransactionResponse)}
    {o : Outcome (Except SorobanUtilsError GetTransactionResponse)}
    (h : PollOutcome sdk hash l o) (r : GetTransactionResponse) :
    o = .returned (.ok r) ↔ .ok r ∈ l ∧ r.status = .success := by
  -- The replies but the last are `NotFound`, so a `Success` can only be the last.
  have hnot {l : List (Except RpcError GetTransactionResponse)} (hl : ∀ r ∈ l, IsNotFound r) :
      ¬ (.ok r ∈ l ∧ r.status = .success) := fun ⟨hmem, hs⟩ ↦ by
    cases hs.symm.trans (hl _ hmem)
  cases h with
  | running hl => exact iff_of_false (by simp) (hnot hl)
  | panicked => exact iff_of_false (by simp) (by simp)
  | @success l response hl hs =>
    constructor
    · intro ho
      cases ho
      exact ⟨List.mem_append_right l (List.mem_singleton_self _), hs⟩
    · rintro ⟨hmem, hr⟩
      rcases List.mem_append.mp hmem with hmem | hmem
      · exact (hnot hl ⟨hmem, hr⟩).elim
      · cases List.mem_singleton.mp hmem
        rfl
  | @failed l response hl hs =>
    refine iff_of_false (by simp) ?_
    rintro ⟨hmem, hr⟩
    rcases List.mem_append.mp hmem with hmem | hmem
    · exact hnot hl ⟨hmem, hr⟩
    · cases List.mem_singleton.mp hmem
      cases hs.symm.trans hr
  | rpcFailed hl =>
    refine iff_of_false (by simp) ?_
    rintro ⟨hmem, hr⟩
    rcases List.mem_append.mp hmem with hmem | hmem
    · exact hnot hl ⟨hmem, hr⟩
    · cases List.mem_singleton.mp hmem
  | timeout hl hne => exact iff_of_false (by simp) (hnot hl)

/-- A poll that sees a failure returns an error. -/
theorem PollOutcome.returned_error {hash : String}
    {l : List (Except RpcError GetTransactionResponse)}
    {o : Outcome (Except SorobanUtilsError GetTransactionResponse)}
    (h : PollOutcome sdk hash l o) {r : Except RpcError GetTransactionResponse} (hmem : r ∈ l)
    (hr : ¬ IsNotFound r) (hsuccess : ∀ response, r = .ok response → response.status ≠ .success) :
    ∃ e, o = .returned (.error e) := by
  cases h with
  | running hl => exact absurd (hl r hmem) hr
  | panicked => cases hmem
  | @success l response hl hs =>
    rcases List.mem_append.mp hmem with hmem | hmem
    · exact absurd (hl r hmem) hr
    · exact absurd hs (hsuccess response (List.mem_singleton.mp hmem))
  | failed hl hs => exact ⟨_, rfl⟩
  | rpcFailed hl => exact ⟨_, rfl⟩
  | timeout hl hne => exact ⟨_, rfl⟩

namespace LegRun

variable {o : SubmissionOutcome}
  (h : LegRun sdk networkPassphrase signer prepared pollCfg t o)
include h

theorem isLegCall : ∀ x ∈ t, IsLegCall x.1 := by
  cases h with
  | signing => simp
  | signFailed e => simp [IsLegCall]
  | sending signed => simp [IsLegCall]
  | sendFailed signed e => simp [IsLegCall]
  | polling signed response hpoll =>
    refine List.forall_mem_cons.mpr ⟨trivial, List.forall_mem_cons.mpr ⟨trivial, fun x hx ↦ ?_⟩⟩
    exact ((pollTransactionStatus_spec hpoll).1 x hx).isLegCall

/-- A send comes right after the signature, and what is sent is what the signer returned. -/
theorem send_position {t₁ t₂ : List Exchange} {tx : Transaction}
    {r : Except RpcError SendTransactionResponse} (ht : t = t₁ ++ ⟨.sendTransaction tx, r⟩ :: t₂) :
    t₁ = [⟨.sign signer prepared networkPassphrase, .ok tx⟩] := by
  cases h with
  | signing => simp at ht
  | signFailed e => simp [cons_eq_append_cons_iff] at ht
  | sending signed => simp [cons_eq_append_cons_iff] at ht
  | sendFailed signed e =>
    simp [cons_eq_append_cons_iff] at ht
    rw [ht.1, ht.2.1.1]
  | polling signed response hpoll =>
    obtain ⟨_, rfl, ht'⟩ := (cons_eq_append_cons_iff_of_ne (by simp)).mp ht
    obtain ⟨rfl, hx, _⟩ | ⟨_, _, hpolls⟩ := cons_eq_append_cons_iff.mp ht'
    · cases hx
      rfl
    · have hmem := (pollTransactionStatus_spec hpoll).1 ⟨.sendTransaction tx, r⟩
        (hpolls ▸ List.mem_append_cons_self)
      exact hmem.elim

theorem length_sends_le : (sends t).length ≤ 1 := by
  cases h with
  | signing => exact Nat.zero_le 1
  | signFailed e => exact Nat.zero_le 1
  | sending signed => exact Nat.zero_le 1
  | sendFailed signed e => exact le_rfl
  | @polling signed response t o hpoll =>
    have hnil : sends t = [] := by
      refine List.filterMap_eq_nil_iff.mpr fun x hx ↦ ?_
      have hcall := (pollTransactionStatus_spec hpoll).1 x hx
      obtain ⟨c, r⟩ := x
      cases c <;> first | rfl | exact hcall.elim
    exact (congrArg (fun l ↦ l.length + 1) hnil).le

/-- A leg succeeds exactly when what it sent is polled as a success, and it returns that hash. -/
theorem returned_ok_iff (x : String × GetTransactionResponse) :
    o = .returned (.ok x) ↔ ∃ tx response t₂,
      t = ⟨.sign signer prepared networkPassphrase, .ok tx⟩ ::
        ⟨.sendTransaction tx, .ok response⟩ :: t₂ ∧
      x.1 = tx.hexHash sdk ∧ ⟨.getTransaction x.1, .ok x.2⟩ ∈ t₂ ∧ x.2.status = .success := by
  cases h with
  | signing => exact iff_of_false (by simp) (by simp)
  | signFailed e => exact iff_of_false (by simp) (by simp)
  | sending signed => exact iff_of_false (by simp) (by simp)
  | sendFailed signed e => exact iff_of_false (by simp) (by simp)
  | @polling signed response t o hpoll =>
    obtain ⟨hcalls, hout⟩ := pollTransactionStatus_spec hpoll
    constructor
    · intro ho
      obtain ⟨r, rfl, rfl⟩ := Outcome.map_map_eq_returned_ok.mp ho
      obtain ⟨hmem, hs⟩ := (hout.returned_ok_iff r).mp rfl
      obtain ⟨hash, hquery⟩ := mem_queryReplies.mp hmem
      have hhash : hash = signed.hexHash sdk := hcalls _ hquery
      exact ⟨signed, response, t, rfl, rfl, hhash ▸ hquery, hs⟩
    · rintro ⟨tx, response', t₂, ht, hx, hmem, hs⟩
      cases ht
      rw [(hout.returned_ok_iff x.2).mpr ⟨mem_queryReplies.mpr ⟨_, hmem⟩, hs⟩, ← hx]
      rfl

/-- A step that fails ends the leg with an error. -/
theorem failure_last {t₁ t₂ : List Exchange} {x : Exchange} (ht : t = t₁ ++ x :: t₂)
    (hx : IsFailure x) : t₂ = [] ∧ ∃ e, o = .returned (.error e) := by
  cases h with
  | signing => simp at ht
  | signFailed e =>
    simp [cons_eq_append_cons_iff] at ht
    exact ⟨ht.2.2, e, rfl⟩
  | sending signed =>
    simp [cons_eq_append_cons_iff] at ht
    rw [ht.2.1] at hx
    exact hx.elim
  | sendFailed signed e =>
    obtain ⟨_, rfl, _⟩ | ⟨_, rfl, ht'⟩ := cons_eq_append_cons_iff.mp ht
    · exact hx.elim
    · simp [cons_eq_append_cons_iff] at ht'
      exact ⟨ht'.2.2, _, rfl⟩
  | @polling signed response t o hpoll =>
    obtain ⟨_, rfl, _⟩ | ⟨_, rfl, ht'⟩ := cons_eq_append_cons_iff.mp ht
    · exact hx.elim
    obtain ⟨_, rfl, _⟩ | ⟨a, _, rfl⟩ := cons_eq_append_cons_iff.mp ht'
    · exact hx.elim
    obtain ⟨hcalls, hout⟩ := pollTransactionStatus_spec hpoll
    have hcall := hcalls x List.mem_append_cons_self
    obtain ⟨c, r⟩ := x
    -- Of the calls of a poll only a query can fail, and its reply is the last one.
    cases c with
    | getTransaction hash =>
      have hr : ¬ IsNotFound r := by
        rcases r with e | response'
        · exact id
        · intro hs
          cases hs.symm.trans hx
      have hsuccess (response') (heq : r = .ok response') : response'.status ≠ .success := by
        subst heq
        intro hs
        cases hs.symm.trans hx
      have hmem : r ∈ queryReplies (a ++ ⟨.getTransaction hash, r⟩ :: t₂) :=
        mem_queryReplies.mpr ⟨hash, List.mem_append_cons_self⟩
      obtain ⟨e, rfl⟩ := hout.returned_error hmem hr hsuccess
      exact ⟨pollTransactionStatus_stopsAtFinal hpoll a hash r t₂ rfl hr, e, rfl⟩
    | now => exact hx.elim
    | sleep duration => exact hx.elim
    | _ => exact hcall.elim

/-- A leg that succeeds has sent one transaction, signed from `prepared` and polled as a success. -/
theorem sends_of_returned_ok {x : String × GetTransactionResponse} (ho : o = .returned (.ok x)) :
    ∃ tx, sends t = [tx] ∧ x.1 = tx.hexHash sdk ∧
      ⟨.sign signer prepared networkPassphrase, .ok tx⟩ ∈ t ∧ PolledSuccess sdk tx t := by
  have hlength := h.length_sends_le
  obtain ⟨tx, response, v, rfl, hx, hmem, hs⟩ := (h.returned_ok_iff x).mp ho
  have hsends : sends (⟨.sign signer prepared networkPassphrase, .ok tx⟩ ::
      ⟨.sendTransaction tx, .ok response⟩ :: v) = tx :: sends v := rfl
  rw [hsends, List.length_cons] at hlength
  have hnil : sends v = [] := List.length_eq_zero_iff.mp (by omega)
  refine ⟨tx, by rw [hsends, hnil], hx, List.mem_cons_self, x.2, ?_, hs⟩
  exact List.mem_cons_of_mem _ (List.mem_cons_of_mem _ (hx ▸ hmem))

/-- A leg that succeeds has sent one transaction, and the first final status it saw for it is
`Success`. -/
theorem firstFinalStatus_of_returned_ok {x : String × GetTransactionResponse}
    (ho : o = .returned (.ok x)) : ∃ tx, sends t = [tx] ∧ x.1 = tx.hexHash sdk ∧
      ⟨.sign signer prepared networkPassphrase, .ok tx⟩ ∈ t ∧ FirstFinalStatus x.1 .success t := by
  have hlength := h.length_sends_le
  cases h with
  | signing => cases ho
  | signFailed e => cases ho
  | sending signed => cases ho
  | sendFailed signed e => cases ho
  | @polling signed response t o hpoll =>
    have hsends : sends (⟨.sign signer prepared networkPassphrase, .ok signed⟩ ::
        ⟨.sendTransaction signed, .ok response⟩ :: t) = signed :: sends t := rfl
    have hnil : sends t = [] := by
      rw [hsends, List.length_cons] at hlength
      exact List.length_eq_zero_iff.mp (by omega)
    obtain ⟨hcalls, hout⟩ := pollTransactionStatus_spec hpoll
    obtain ⟨r, rfl, rfl⟩ := Outcome.map_map_eq_returned_ok.mp ho
    refine ⟨signed, by rw [hsends, hnil], rfl, List.mem_cons_self, ?_⟩
    have hreplies : repliesFor (signed.hexHash sdk)
        (⟨.sign signer prepared networkPassphrase, .ok signed⟩ ::
          ⟨.sendTransaction signed, .ok response⟩ :: t) = queryReplies t := by
      rw [← repliesFor_eq_queryReplies hcalls]
      rfl
    generalize hl : queryReplies t = l at hout hreplies
    cases hout with
    | success hnotFound hs => exact ⟨_, r, [], hreplies, hnotFound, hs⟩

/-- `returned_ok_iff` in terms of where the send stands. -/
theorem returned_ok_iff_send (x : String × GetTransactionResponse) :
    o = .returned (.ok x) ↔ ∃ u tx r v, t = u ++ ⟨.sendTransaction tx, r⟩ :: v ∧
      x.1 = tx.hexHash sdk ∧ ⟨.getTransaction x.1, .ok x.2⟩ ∈ v ∧ x.2.status = .success := by
  constructor
  · intro ho
    obtain ⟨tx, response, v, ht, hx, hmem, hs⟩ := (h.returned_ok_iff x).mp ho
    exact ⟨[_], tx, _, v, ht, hx, hmem, hs⟩
  · rintro ⟨u, tx, r, v, ht, hx, hmem, hs⟩
    refine (h.returned_ok_iff x).mpr ?_
    rcases r with e | response
    · rw [(h.failure_last ht trivial).1] at hmem
      cases hmem
    · refine ⟨tx, response, v, ?_, hx, hmem, hs⟩
      rw [ht, h.send_position ht]
      rfl

/-- A leg that succeeds could represent its deadline. -/
theorem timeout_le_of_returned_ok {x : String × GetTransactionResponse}
    (ho : o = .returned (.ok x)) : pollCfg.timeout.nanos ≤ sdk.instantMax := by
  cases h with
  | signing => cases ho
  | signFailed e => cases ho
  | sending signed => cases ho
  | sendFailed signed e => cases ho
  | @polling signed response t o hpoll =>
    obtain ⟨r, rfl, -⟩ := Outcome.map_map_eq_returned_ok.mp ho
    obtain ⟨_, hrun⟩ | ⟨start, t', rfl, hstart⟩ := runs_pollTransactionStatus_start hpoll
    · cases hrun
    · have hle : start + pollCfg.timeout.nanos ≤ sdk.instantMax := Nat.le_of_not_lt fun hlt ↦ by
        cases hstart.mpr hlt
      exact (Nat.le_add_left _ start).trans hle

end LegRun

/-- The one send of a leg that reaches its poll. -/
theorem eq_of_send_mem {signed tx : Transaction} {response : SendTransactionResponse}
    {r : Except RpcError SendTransactionResponse}
    {o : Outcome (Except SorobanUtilsError GetTransactionResponse)}
    (hpoll : Runs (pollTransactionStatus sdk (signed.hexHash sdk) pollCfg).run t o)
    (hmem : (⟨.sendTransaction tx, r⟩ : Exchange) ∈
      ⟨.sign signer prepared networkPassphrase, .ok signed⟩ ::
        ⟨.sendTransaction signed, .ok response⟩ :: t) : tx = signed ∧ r = .ok response := by
  obtain ⟨u, v, huv⟩ := List.append_of_mem hmem
  rw [(LegRun.polling signed response hpoll).send_position huv] at huv
  cases huv
  exact ⟨rfl, rfl⟩

end StellarRustClient
