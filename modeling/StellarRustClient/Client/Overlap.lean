import Mathlib.Data.List.Nodup
import Mathlib.Data.List.Perm.Subperm
import StellarRustClient.Client.ReadOp
import StellarRustClient.Client.SequenceHonesty
import StellarRustClient.Interaction.Threads

/-!
# Calls that overlap

Every method of a client takes `&self`, and several clients may work for one account, so that any
number of calls can be under way at once, each at its own place. Nothing in the crate orders them or
hands out sequence numbers. `Serialized` says what holds all the same, however the calls take turns:
the account moves on one number at a time, each number goes to one transaction that some call has
sent, and what a successful call has sent is among them.

On the side of the code this rests on `AllSucceeded`: a call that returns without an error has seen
each of its transactions succeed after it sent it.
-/

namespace StellarRustClient

open Interaction

variable {sdk : Sdk} {address : String} {u t : List Exchange} {x : Exchange} {tx : Transaction}

/-! ## What a successful call has seen -/

/-- Every transaction that is sent is polled as successful afterwards. -/
def AllSucceeded (sdk : Sdk) (t : List Exchange) : Prop :=
  ∀ u tx r v, t = u ++ ⟨.sendTransaction tx, r⟩ :: v →
    ∃ response : GetTransactionResponse,
      ⟨.getTransaction (tx.hexHash sdk), .ok response⟩ ∈ v ∧ response.status = .success

/-- The last transaction is under way, and those before it have succeeded. -/
def UnderWay (sdk : Sdk) (tx : Transaction) (t : List Exchange) : Prop :=
  ∃ u r v, t = u ++ ⟨.sendTransaction tx, r⟩ :: v ∧ AllSucceeded sdk u ∧
    ∀ y ∈ v, sentTransaction y = none

theorem allSucceeded_nil : AllSucceeded sdk [] := by
  intro u tx r v ht
  simp at ht

theorem AllSucceeded.append (h : AllSucceeded sdk u) (hx : sentTransaction x = none) :
    AllSucceeded sdk (u ++ [x]) := by
  intro u' tx r v ht
  obtain ⟨a, hu, rfl⟩ | ⟨a, -, ha⟩ := append_cons_eq_append_iff.mp ht
  · obtain ⟨response, hmem, hs⟩ := h u' tx r a hu
    exact ⟨response, List.mem_append_left _ hmem, hs⟩
  · have hsend : x = ⟨.sendTransaction tx, r⟩ := by
      obtain ⟨-, rfl, -⟩ | ⟨b, -, hb⟩ := cons_eq_append_cons_iff.mp ha
      · rfl
      · simp at hb
    rw [hsend] at hx
    cases hx

theorem AllSucceeded.underWay (h : AllSucceeded sdk u)
    (r : Except RpcError SendTransactionResponse) :
    UnderWay sdk tx (u ++ [⟨.sendTransaction tx, r⟩]) :=
  ⟨u, r, [], rfl, h, by simp⟩

theorem UnderWay.append (h : UnderWay sdk tx u) (hx : sentTransaction x = none) :
    UnderWay sdk tx (u ++ [x]) := by
  obtain ⟨u, r, v, rfl, hu, hv⟩ := h
  refine ⟨u, r, v ++ [x], by simp, hu, List.forall_mem_append.mpr ⟨hv, ?_⟩⟩
  exact List.forall_mem_singleton.mpr hx

/-- Once it is seen to succeed, every transaction has succeeded. -/
theorem UnderWay.allSucceeded {response : GetTransactionResponse} (h : UnderWay sdk tx u)
    (hs : response.status = .success) :
    AllSucceeded sdk (u ++ [⟨.getTransaction (tx.hexHash sdk), .ok response⟩]) := by
  obtain ⟨u, r, v, rfl, hu, hv⟩ := h
  intro u' tx' r' v' ht
  rw [List.append_assoc, List.cons_append] at ht
  obtain ⟨a, rfl, rfl⟩ | ⟨a, rfl, ha⟩ := append_cons_eq_append_iff.mp ht
  · obtain ⟨response', hmem, hs'⟩ := hu u' tx' r' a rfl
    exact ⟨response', List.mem_append_left _ hmem, hs'⟩
  · obtain ⟨rfl, heq, rfl⟩ | ⟨b, rfl, hb⟩ := cons_eq_append_cons_iff.mp ha
    · obtain rfl : tx' = tx := by injection (Sigma.mk.inj heq).1
      exact ⟨response, by simp, hs⟩
    · -- Nothing was sent after `tx`.
      have hmem : (⟨.sendTransaction tx', r'⟩ : Exchange) ∈
          v ++ [⟨.getTransaction (tx.hexHash sdk), .ok response⟩] := hb ▸ List.mem_append_cons_self
      obtain hmem | hmem := List.mem_append.mp hmem
      · cases hv _ hmem
      · cases List.mem_singleton.mp hmem

/-- A call that sends nothing. -/
theorem triple_of_unsent {α : Type} {c : Call} {f : Reply c → Except SorobanUtilsError α}
    {P : List Exchange → Prop} {Q : α → List Exchange → Prop}
    {E : SorobanUtilsError → List Exchange → Prop}
    (hok : ∀ u r a, P u → f r = .ok a → Q a (u ++ [⟨c, r⟩]))
    (herror : ∀ u r e, P u → f r = .error e → E e (u ++ [⟨c, r⟩])) :
    Triple World.record (fun _ _ ↦ True) P (Prog.ask c f) Q E :=
  .ask_record (fun _ _ _ ↦ trivial) hok herror

/-- The fate of what is sent, in the write methods. -/
def succeeding (sdk : Sdk) : Discipline sdk World.record fun _ _ ↦ True where
  Idle := AllSucceeded sdk
  Done _ := True
  Held _ := AllSucceeded sdk
  Failed _ _ := True
  Fetched _ _ := AllSucceeded sdk
  Unsigned _ _ := AllSucceeded sdk
  Signed _ _ := AllSucceeded sdk
  Sent _ := UnderWay sdk
  failed_of_held _ _ _ := trivial
  held_of_fetched _ _ _ := id
  unsigned_of_fetched _ _ _ _ _ _ _ := id
  buildSigner := triple_of_unsent (fun _ _ _ h _ ↦ h.append rfl) fun _ _ _ _ _ ↦ trivial
  dropSigner _ := triple_of_unsent (fun _ _ _ h _ ↦ h.append rfl) fun _ _ _ _ _ ↦ trivial
  dropSigner_failed _ := triple_of_unsent (fun _ _ _ _ _ ↦ trivial) fun _ _ _ _ _ ↦ trivial
  quiet _ c hc := by
    refine triple_of_unsent (fun _ _ _ h _ ↦ h.append ?_) fun _ _ _ _ _ ↦ trivial
    cases c <;> first | rfl | exact hc.elim
  getAccount _ := triple_of_unsent (fun _ _ _ h _ ↦ h.append rfl) fun _ _ _ _ _ ↦ trivial
  prepareTransaction _ _ := by
    refine triple_of_unsent (fun u r a h _ ↦ ?_) fun _ _ _ _ _ ↦ trivial
    cases a <;> exact h.append rfl
  sign _ _ _ := triple_of_unsent (fun _ _ _ h _ ↦ h.append rfl) fun _ _ _ _ _ ↦ trivial
  sendTransaction _ _ := triple_of_unsent (fun _ r _ h _ ↦ h.underWay r) fun _ _ _ _ _ ↦ trivial
  now _ _ := triple_of_unsent (fun _ _ _ h _ ↦ h.append rfl) fun _ _ _ _ _ ↦ trivial
  sleep _ _ _ := triple_of_unsent (fun _ _ _ h _ ↦ h.append rfl) fun _ _ _ _ _ ↦ trivial
  failed_of_sent _ _ _ _ := trivial
  getTransaction _ tx := by
    refine triple_of_unsent (fun u r response h hr ↦ ?_) fun _ _ _ _ _ ↦ trivial
    cases r with
    | error e => cases hr
    | ok response' =>
      cases hr
      cases hs : response.status with
      | success => exact h.allSucceeded hs
      | notFound => exact h.append rfl
      | failed => trivial

/-- A call that returns without an error has seen its transactions succeed. -/
theorem allSucceeded_of_returned_ok {client : Client} {op : WriteOp ⊕ ReadOp}
    (hrun : Runs (client.call sdk op).run t (.returned (.ok ()))) : AllSucceeded sdk t := by
  cases op with
  | inl op =>
    exact (((succeeding sdk).perform client op).of_record allSucceeded_nil hrun).2.1 _ rfl
  | inr op =>
    have hread : Triple World.record (fun _ _ ↦ True) (AllSucceeded sdk) (client.read sdk op)
        (fun _ ↦ AllSucceeded sdk) fun _ ↦ AllSucceeded sdk :=
      ReadOp.triple (fun c f hc ↦ triple_of_unsent
        (fun _ _ _ h _ ↦ h.append (sentTransaction_of_isReadCall hc))
        fun _ _ _ h _ ↦ h.append (sentTransaction_of_isReadCall hc)) client op
    exact (hread.of_record allSucceeded_nil hrun).2.1 _ rfl

/-! ## What the network makes of it -/

namespace Ledger

variable {n : ℤ} {s s' : Ledger} {h : History Call Reply Ledger}

/-- From `n` on each number is used up by one transaction, in order, and nothing is applied that was
not handed to the network. -/
structure Numbered (n : ℤ) (s : Ledger) : Prop where
  numbers : s.applied.map (·.sequence) =
    (List.range s.applied.length).map fun k : ℕ ↦ n + 1 + (k : ℤ)
  sequence_eq : s.sequence = n + s.applied.length
  submitted : ∀ c ∈ s.applied, c ∈ s.submitted

theorem numbered_start (n : ℤ) : (start n).Numbered n :=
  ⟨rfl, (Int.add_zero n).symm, by simp [start]⟩

theorem Numbered.applies (hs : s.Numbered n) (h : Applies address s s') : s'.Numbered n := by
  obtain ⟨c, hc, -, hseq, rfl⟩ := h
  refine ⟨?_, ?_, fun c' hmem ↦ ?_⟩
  · simp only [apply, List.map_append, List.map_cons, List.map_nil, List.length_append,
      List.length_cons, List.length_nil, Nat.zero_add, List.range_succ, hs.numbers, hseq,
      hs.sequence_eq]
    congr 2
    ring
  · simp only [apply, List.length_append, List.length_cons, List.length_nil, hs.sequence_eq]
    push_cast
    ring
  · rcases List.mem_append.mp hmem with hmem | hmem
    · exact hs.submitted c' hmem
    · rw [List.mem_singleton.mp hmem]
      exact hc

theorem Numbered.path (hs : s.Numbered n) (hpath : (ledgerWorld sdk address).Path s h s') :
    s'.Numbered n := by
  refine (hpath.invariant hs (fun s s' hs hdrift ↦ ?_) ?_).1
  · induction hdrift with
    | refl => exact hs
    | tail _ h ih => exact ih.applies h
  · rintro s x _ hs ⟨-, rfl⟩
    refine ⟨?_, ?_, fun c hc ↦ ?_⟩
    · rw [after_applied]
      exact hs.numbers
    · rw [after_applied, after_sequence]
      exact hs.sequence_eq
    · rw [after_applied] at hc
      exact subset_after s x (hs.submitted c hc)

/-- A number is used up by one transaction. -/
theorem Numbered.eq_of_sequence_eq {c c' : TransactionContents} (hs : s.Numbered n)
    (hc : c ∈ s.applied) (hc' : c' ∈ s.applied) (heq : c.sequence = c'.sequence) : c = c' := by
  have hnodup : (s.applied.map (·.sequence)).Nodup := by
    rw [hs.numbers]
    refine List.Nodup.map (fun a b hab ↦ ?_) List.nodup_range
    simpa using hab
  exact List.inj_on_of_nodup_map hnodup hc hc' heq

end Ledger

/-! ## Any number of calls -/

section

variable {ι : Type*} [DecidableEq ι] {n : ℤ} {h : Schedule ι Call Reply Ledger} {s : Ledger}
  {i : ι}

/-- The calls of a schedule, one for each thread, and how far each has come. -/
structure Calls (ι : Type*) where
  client : ι → Client
  op : ι → WriteOp ⊕ ReadOp
  outcome : ι → Outcome (Except SorobanUtilsError Unit)

/-- Each thread runs its call. -/
def Calls.RunIn (sdk : Sdk) (calls : Calls ι) (h : Schedule ι Call Reply Ledger) : Prop :=
  ∀ i, Runs ((calls.client i).call sdk (calls.op i)).run (h.traceOf i) (calls.outcome i)

/-- A call that has returned without an error has sent `c`. -/
def Calls.Reported (calls : Calls ι) (h : Schedule ι Call Reply Ledger) (c : TransactionContents) :
    Prop :=
  ∃ i, calls.outcome i = .returned (.ok ()) ∧ ∃ tx ∈ sends (h.traceOf i), tx.contents = c

/-- What holds of a ledger after calls that overlap. -/
structure Serialized (calls : Calls ι) (n : ℤ) (h : Schedule ι Call Reply Ledger) (s : Ledger) :
    Prop where
  /-- What a successful call has sent is applied. -/
  applied : ∀ c, calls.Reported h c → c ∈ s.applied
  /-- What is applied was sent by some call. -/
  sent : ∀ c ∈ s.applied, ∃ i, ∃ tx ∈ sends (h.traceOf i), tx.contents = c
  /-- The numbers used up are those after the first one, each by one transaction. -/
  numbered : s.Numbered n
  /-- Successful calls share a number only where they have sent the same transaction. -/
  conflict : ∀ c c', calls.Reported h c → calls.Reported h c' → c.sequence = c'.sequence → c = c'
  /-- Different transactions of successful calls move the account on by one each. -/
  advance : ∀ l : List TransactionContents, l.Nodup → (∀ c ∈ l, calls.Reported h c) →
    n + l.length ≤ s.sequence

/-- What a thread has seen to succeed is applied, whatever the others do. -/
theorem applied_of_allSucceeded {s₀ : Ledger}
    (hpath : (ledgerWorld sdk address).Path s₀ (h.map Prod.snd) s)
    (hseen : AllSucceeded sdk (h.traceOf i)) {tx : Transaction}
    (htx : tx ∈ sends (h.traceOf i)) : tx.contents ∈ s.applied := by
  obtain ⟨r, hr⟩ := mem_sends.mp htx
  obtain ⟨u, v, hsplit⟩ := List.append_of_mem hr
  obtain ⟨response, hmem, hs⟩ := hseen u tx r v hsplit
  -- The reply that the thread has seen comes after its send in the schedule as well.
  obtain ⟨h₁, sᵢ, h₂, rfl, -, rfl⟩ := Schedule.exists_of_traceOf_eq hsplit
  obtain ⟨_, hlater⟩ := Schedule.exists_of_mem_traceOf hmem
  have hpolled : (⟨.getTransaction (tx.hexHash sdk), .ok response⟩ : Exchange) ∈
      History.trace (h₂.map Prod.snd) := List.mem_map_of_mem (List.mem_map_of_mem hlater)
  have htrace : History.trace ((h₁ ++ (i, sᵢ, ⟨.sendTransaction tx, r⟩) :: h₂).map Prod.snd) =
      History.trace (h₁.map Prod.snd) ++
        ⟨.sendTransaction tx, r⟩ :: History.trace (h₂.map Prod.snd) := by
    simp [History.trace]
  exact Ledger.applied_of_final hpath htrace hpolled (by simp [hs])

/-- **Overlapping calls.** However any number of calls of any methods take turns on one account, the
account is moved on by transactions of theirs, one number at a time, and no successful call has lost
one of its own. -/
theorem overlapping_calls_serialized (sdk : Sdk) (address : String) (ι : Type*) [DecidableEq ι]
    (calls : Calls ι) (n : ℤ) (h : Schedule ι Call Reply Ledger) (s : Ledger)
    (hpath : (ledgerWorld sdk address).Path (.start n) (h.map Prod.snd) s)
    (hruns : calls.RunIn sdk h) : Serialized calls n h s := by
  have hnumbered : s.Numbered n := (Ledger.numbered_start n).path hpath
  have happlied (c : TransactionContents) (hc : calls.Reported h c) : c ∈ s.applied := by
    obtain ⟨i, ho, tx, htx, rfl⟩ := hc
    exact applied_of_allSucceeded hpath (allSucceeded_of_returned_ok (ho ▸ hruns i)) htx
  refine ⟨happlied, fun c hc ↦ ?_, hnumbered, fun c c' hc hc' heq ↦ ?_, fun l hl hreported ↦ ?_⟩
  · obtain hnone | ⟨u, tx, r, v, ht, rfl⟩ :=
      mem_submitted_of_path hpath (hnumbered.submitted c hc)
    · exact hnone.elim
    · have hmem : (⟨.sendTransaction tx, r⟩ : Exchange) ∈ History.trace (h.map Prod.snd) :=
        ht ▸ List.mem_append_cons_self
      obtain ⟨y, hy, hyeq⟩ := List.mem_map.mp hmem
      obtain ⟨⟨i, z⟩, hz, rfl⟩ := List.mem_map.mp hy
      refine ⟨i, tx, mem_sends.mpr ⟨r, ?_⟩, rfl⟩
      rw [← hyeq]
      exact List.mem_map_of_mem (mem_actionsOf.mpr hz)
  · exact hnumbered.eq_of_sequence_eq (happlied c hc) (happlied c' hc') heq
  · have hlength : l.length ≤ s.applied.length :=
      (hl.subperm fun c hc ↦ happlied c (hreported c hc)).length_le
    rw [hnumbered.sequence_eq]
    omega

end

/-! ## Two uploads that race for one number -/

/-- The exchanges of an upload up to its send. -/
def unsentUpload : List Exchange :=
  ⟨.buildSigner, .ok .sample⟩ :: (unsignedUpload ++
    [⟨.sign .sample sampleUpload NetworkConfig.testnet.networkPassphrase, .ok sampleUpload⟩])

/-- The ledger once both uploads are handed to the network. -/
def bothUploadsSubmitted : Ledger :=
  { uploadSubmitted with submitted := insert sampleUpload.contents uploadSubmitted.submitted }

/-- The ledger once their transaction is applied. -/
def bothUploadsApplied : Ledger :=
  bothUploadsSubmitted.apply sampleUpload.contents

/-- Both uploads make an exchange, one after the other. -/
def both (s : Ledger) (x : Exchange) : Schedule Bool Call Reply Ledger :=
  [(true, s, x), (false, s, x)]

/-- Two uploads of the same code, step by step. -/
def racingUploads : Schedule Bool Call Reply Ledger :=
  unsentUpload.flatMap (both (.start 7)) ++
  [(true, .start 7, ⟨.sendTransaction sampleUpload, .ok ⟨.pending, sampleUpload.hexHash .sample⟩⟩),
    (false, uploadSubmitted,
      ⟨.sendTransaction sampleUpload, .ok ⟨.pending, sampleUpload.hexHash .sample⟩⟩)] ++
  both bothUploadsSubmitted ⟨.now, 0⟩ ++
  both bothUploadsApplied ⟨.getTransaction (sampleUpload.hexHash .sample),
    .ok ⟨.success, some (some zeroHashVal)⟩⟩ ++
  both bothUploadsApplied ⟨.dropSigner .sample, ()⟩

theorem path_racingUploads : (ledgerWorld .sample "G").Path (.start 7)
    (racingUploads.map Prod.snd) bothUploadsApplied := by
  have hunsent : ∀ x ∈ unsentUpload.flatMap fun x ↦ [x, x],
      (Ledger.start 7).Answers .sample "G" x ∧ (Ledger.start 7).after x = .start 7 := by
    simp [unsentUpload, unsignedUpload, Ledger.Answers, Ledger.after, Ledger.start, Signer.sample]
  have hdrift : (ledgerWorld .sample "G").drift bothUploadsSubmitted bothUploadsApplied :=
    .single ⟨_, Set.mem_insert _ _, rfl, by decide, rfl⟩
  have hfinal : bothUploadsApplied.Answers .sample "G"
      ⟨.getTransaction (sampleUpload.hexHash .sample),
        .ok ⟨.success, some (some zeroHashVal)⟩⟩ := by
    rintro - c (rfl | rfl | hc) -
    · exact List.mem_singleton_self _
    · exact List.mem_singleton_self _
    · exact hc.elim
  refine (Ledger.path_of_stationary hunsent).append ?_
  refine .cons .refl ⟨trivial, rfl⟩ (.cons .refl ⟨trivial, rfl⟩ ?_)
  refine .cons .refl ⟨trivial, rfl⟩ (.cons .refl ⟨trivial, rfl⟩ ?_)
  refine .cons hdrift ⟨hfinal, rfl⟩ (.cons .refl ⟨hfinal, rfl⟩ ?_)
  exact .cons .refl ⟨trivial, rfl⟩ (.cons .refl ⟨trivial, rfl⟩ (.nil _))

/-- The calls of the two uploads, both of which succeed. -/
def racingCalls : Calls Bool where
  client _ := .sample
  op _ := .inl (.uploadWasm ⟨#[]⟩)
  outcome _ := .returned (.ok ())

theorem runIn_racingUploads : racingCalls.RunIn .sample racingUploads := by
  rintro (_ | _) <;> exact runs_acceptedUpload

/-- Both uploads have succeeded with the one transaction that used the number up. -/
theorem racing_uploads_serialized :
    Serialized racingCalls 7 racingUploads bothUploadsApplied :=
  overlapping_calls_serialized .sample "G" Bool racingCalls 7 racingUploads bothUploadsApplied
    path_racingUploads runIn_racingUploads

end StellarRustClient
