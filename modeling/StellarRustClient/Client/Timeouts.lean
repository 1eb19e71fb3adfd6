import StellarRustClient.Client.Faults
import StellarRustClient.Submission.Timely

/-!
# What a timeout says

A `Timeout` of a write method is about a transaction that may still be applied, so its caller has to
know which one, and since when. `timeout_is_overdue` says it for all methods, whatever they do
before: the transaction is the one that the method sent last, and a whole timeout after it was sent
the network still did not know it.

A signer can fail with any error, a `Timeout` too; that one is passed on.
-/

namespace StellarRustClient

open Interaction

variable {sdk : Sdk} {cfg : PollConfig} {op : WriteOp} {hash : String} {c : Chronicle}
  {s : Instant} {l : Timed}

/-- The exchanges that fail with a timeout of a signer's own. -/
def IsSignerTimeout (hash : String) (x : Exchange) : Prop :=
  x = ⟨.buildSigner, .error (.timeout hash)⟩ ∨
    ∃ signer tx networkPassphrase,
      x = ⟨.sign signer tx networkPassphrase, .error (.timeout hash)⟩

/-- The transaction sent last has the hash `hash`. It was sent at `sent`, and at `last`, a timeout
later, a status query was answered; up to then the network did not know the transaction. -/
def Overdue (sdk : Sdk) (c : Chronicle) (cfg : PollConfig) (hash : String) (l : Timed) : Prop :=
  ∃ l₁ tx r sent l₂ response last l₃,
    l = l₁ ++ (⟨.sendTransaction tx, .ok r⟩, sent) ::
      (l₂ ++ (⟨.getTransaction hash, .ok response⟩, last) :: l₃) ∧
    tx.hexHash sdk = hash ∧ (∀ x ∈ Stamped.trace (l₂ ++ l₃), sentTransaction x = none) ∧
    sent + cfg.timeout.nanos ≤ last ∧ ∀ s ≤ last, c.status hash s = .notFound

/-- A transaction that is not known at `s` was not known before. -/
theorem Chronicle.notFound_of_le {s' : Instant} (h : c.status hash s = .notFound) (hle : s' ≤ s) :
    c.status hash s' = .notFound := by
  by_contra hfinal
  exact hfinal ((c.final hfinal hle).symm.trans h)

/-- Where a timeout comes from, if it is not a signer's. -/
theorem polling_of_explained {u : List Exchange} (h : Explained sdk cfg op u (.timeout hash)) :
    (∃ x ∈ u, IsSignerTimeout hash x) ∨ ∃ v start clock response,
      u = v ++ [⟨.getTransaction hash, .ok response⟩, ⟨.now, clock⟩] ∧
      PollingFor sdk hash start v ∧ response.status = .notFound ∧
      start + cfg.timeout.nanos ≤ clock := by
  generalize he : SorobanUtilsError.timeout hash = e at h
  cases h with
  | @fault u x e hfault =>
    subst he
    obtain hremote | hsigner := isRemote_or_of_fault hfault
    · exact hremote.elim
    · exact .inl ⟨x, by simp, hsigner⟩
  | @timeout v hash' start clock response hstart hstatus hlate =>
    obtain rfl := SorobanUtilsError.timeout.inj he
    exact .inr ⟨v, start, clock, response, rfl, hstart, hstatus, hlate⟩
  | undecoded hstatus hop =>
    subst he
    exact hop.isLocal.elim
  | unbuilt hnone hop =>
    subst he
    exact hop.isLocal.elim
  | _ => cases he

/-- The times of a poll that ends late. The readings of the clock are the times of the exchanges
before them, so the wait is counted from the reply to the send to the last reply. -/
theorem overdue_of_keeps {v rest : List Exchange} {start clock : Instant}
    {response : GetTransactionResponse} (hkeeps : c.world.Keeps s l)
    (hl : l.trace = v ++ ⟨.getTransaction hash, .ok response⟩ :: ⟨.now, clock⟩ :: rest)
    (hpolling : PollingFor sdk hash start v) (hstatus : response.status = .notFound)
    (hlate : start + cfg.timeout.nanos ≤ clock) (hrest : ∀ x ∈ rest, sentTransaction x = none) :
    Overdue sdk c cfg hash l := by
  obtain ⟨v, tx, r, w, rfl, hhash, hw⟩ := hpolling
  obtain ⟨a, b, rfl, hv, hb⟩ := List.map_eq_append_iff.mp hl
  obtain ⟨last, b, rfl, hreplies⟩ := Stamped.trace_eq_cons_iff.mp hb
  obtain ⟨s₃, l₃, rfl, hl₃⟩ := Stamped.trace_eq_cons_iff.mp hreplies
  obtain ⟨l₁, a, rfl, -, ha⟩ := List.map_eq_append_iff.mp hv
  obtain ⟨sent, a, rfl, hpoll⟩ := Stamped.trace_eq_cons_iff.mp ha
  obtain ⟨s₁, l₂, rfl, hl₂⟩ := Stamped.trace_eq_cons_iff.mp hpoll
  obtain ⟨hbefore, hafter⟩ := World.keeps_append.mp hkeeps
  -- The clock is read right after the send.
  obtain ⟨-, hsent⟩ := World.keeps_append.mp hbefore
  obtain ⟨-, hnow⟩ := Chronicle.keeps_cons.mp hsent
  obtain ⟨⟨rfl, -⟩, -⟩ := Chronicle.keeps_cons.mp hnow
  -- It is read again right after the last reply.
  obtain ⟨⟨-, hreply⟩, hnow⟩ := Chronicle.keeps_cons.mp hafter
  obtain ⟨⟨rfl, -⟩, -⟩ := Chronicle.keeps_cons.mp hnow
  refine ⟨l₁, tx, r, start, (⟨.now, start⟩, s₁) :: l₂, response, clock, (⟨.now, clock⟩, s₃) :: l₃,
    by simp, hhash, ?_, hlate, fun s hs ↦ Chronicle.notFound_of_le (hreply ▸ hstatus) hs⟩
  have hquiet : ∀ x ∈ ⟨.now, start⟩ :: w ++ ⟨.now, clock⟩ :: rest, sentTransaction x = none :=
    List.forall_mem_append.mpr
      ⟨List.forall_mem_cons.mpr ⟨rfl, hw⟩, List.forall_mem_cons.mpr ⟨rfl, hrest⟩⟩
  rw [← hl₂, ← hl₃] at hquiet
  rw [Stamped.trace, List.map_append]
  exact hquiet

/-- **Timeouts are true.** The transaction that a method reports a timeout of is the one it sent
last, and the network has not settled it a whole timeout later; or the timeout is a signer's. -/
theorem timeout_is_overdue (sdk : Sdk) (c : Chronicle) (client : Client) (op : WriteOp)
    (s : Instant) (l : Timed) (hash : String) (hkeeps : c.world.Keeps s l)
    (hrun : Runs (client.perform sdk op).run l.trace (.returned (.error (.timeout hash)))) :
    (∃ x ∈ l.trace, IsSignerTimeout hash x) ∨ Overdue sdk c client.pollCfg hash l := by
  obtain ⟨-, -, herror⟩ := (explains_perform client op).of_record (by simp [NoFault]) hrun
  obtain ⟨u, ht, hexplained, -⟩ := herror _ rfl
  obtain ⟨rest, hl, hrest⟩ :
      ∃ rest, l.trace = u ++ rest ∧ ∀ x ∈ rest, sentTransaction x = none := by
    obtain ht | ⟨signer, ht⟩ := ht
    · exact ⟨[], by simpa using ht, by simp⟩
    · exact ⟨_, ht, List.forall_mem_singleton.mpr rfl⟩
  obtain ⟨x, hx, hsigner⟩ | ⟨v, start, clock, response, rfl, hpolling, hstatus, hlate⟩ :=
    polling_of_explained hexplained
  · exact .inl ⟨x, hl ▸ List.mem_append_left _ hx, hsigner⟩
  · rw [List.append_assoc] at hl
    exact .inr (overdue_of_keeps hkeeps hl hpolling hstatus hlate hrest)

/-! ## An upload that is given up on -/

/-- A network that settles nothing. -/
def Chronicle.silent : Chronicle where
  status _ _ := .notFound
  final h _ := absurd rfl h

/-- A submission whose status query takes an hour. -/
def overdueLeg : List Exchange :=
  [⟨.sign .sample sampleUpload NetworkConfig.testnet.networkPassphrase, .ok sampleUpload⟩,
    ⟨.sendTransaction sampleUpload, .ok ⟨.pending, sampleUpload.hexHash .sample⟩⟩, ⟨.now, 0⟩,
    ⟨.getTransaction (sampleUpload.hexHash .sample), .ok ⟨.notFound, none⟩⟩,
    ⟨.now, 3600000000000⟩]

/-- An upload with this submission: all before the query takes no time. -/
def overdueUpload : Timed :=
  (⟨.buildSigner, .ok .sample⟩ :: ((unsignedUpload ++ overdueLeg) ++
    [⟨.dropSigner .sample, ()⟩])).zip (List.replicate 7 0 ++ List.replicate 3 3600000000000)

theorem keeps_overdueUpload : Chronicle.silent.world.Keeps 0 overdueUpload := by
  simp [overdueUpload, overdueLeg, unsignedUpload, List.replicate, Chronicle.keeps_cons,
    Chronicle.step, Chronicle.silent, World.Keeps]

theorem runs_overdueUpload : Runs (Client.sample.perform .sample (.uploadWasm ⟨#[]⟩)).run
    overdueUpload.trace (.returned (.error (.timeout (sampleUpload.hexHash .sample)))) := by
  have htrace : overdueUpload.trace = ⟨.buildSigner, .ok .sample⟩ ::
      ((unsignedUpload ++ overdueLeg) ++ [⟨.dropSigner .sample, ()⟩]) := rfl
  have hleg : LegRun .sample NetworkConfig.testnet.networkPassphrase .sample sampleUpload .default
      overdueLeg (.returned (.error (.timeout (sampleUpload.hexHash .sample)))) :=
    .polling sampleUpload ⟨.pending, _⟩ (runs_poll_timeout (by decide) rfl (by decide))
  rw [htrace]
  refine runs_except_map.mpr ⟨.returned (.error (.timeout _)), runs_withSigner.mpr ?_, rfl⟩
  refine .dropped .sample (runs_uploadWasm.mpr ?_)
  exact .built (.uploadContractWasm ⟨#[]⟩) rfl
    (.submitted (.error (.other "")) (.leg ⟨"G", 7⟩ sampleUpload hleg))

/-- The hour has passed, and no signer is to blame. -/
theorem timeout_is_overdue_upload :
    Overdue .sample .silent Client.sample.pollCfg (sampleUpload.hexHash .sample) overdueUpload := by
  refine (timeout_is_overdue .sample .silent .sample (.uploadWasm ⟨#[]⟩) 0 overdueUpload _
    keeps_overdueUpload runs_overdueUpload).resolve_left ?_
  simp [overdueUpload, overdueLeg, unsignedUpload, List.replicate, Stamped.trace, IsSignerTimeout]

end StellarRustClient
