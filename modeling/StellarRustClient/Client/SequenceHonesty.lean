import StellarRustClient.Client.Discipline
import StellarRustClient.Client.Scope
import StellarRustClient.Ledger

/-!
# Sequence numbers

The client keeps no sequence number. Each transaction is built from an account fetched for it, and
nothing of the account is on its way while that happens: an operation that goes on to a second
transaction has seen the first one succeed. So every number that is sent is the next one, however
many attempts were given up before.

`Settled` is the invariant between two transactions: everything that was handed to the network has
used its number up, so that the network cannot move on its own. `honesty` is the `Discipline` that
carries it through one operation, and `Session` is a sequence of operations.
-/

namespace StellarRustClient

open Interaction

variable {sdk : Sdk} {address : String} {s s' : Ledger} {signer : Signer}

/-! ## One exchange -/

/-- A transaction is sent with the number after the account's. -/
def SendsNext (s : Ledger) : Exchange → Prop
  | ⟨.sendTransaction tx, _⟩ => tx.contents.sequence = s.sequence + 1
  | _ => True

/-- Everything that was handed to the network has used its number up. -/
structure Settled (s : Ledger) : Prop where
  wellFormed : s.WellFormed
  sequence_le : ∀ c ∈ s.submitted, c.sequence ≤ s.sequence

/-- Everything but `tx`, which has been handed to the network too. -/
structure SettledBut (tx : Transaction) (s : Ledger) : Prop where
  wellFormed : s.WellFormed
  sequence_le : ∀ c ∈ s.submitted, c = tx.contents ∨ c.sequence ≤ s.sequence

/-- Nothing can be applied to a settled ledger. -/
theorem Settled.eq_of_drift (hs : Settled s) (h : (ledgerWorld sdk address).drift s s') :
    s' = s := by
  induction h with
  | refl => rfl
  | tail _ h ih =>
    obtain ⟨c, hc, -, hseq, -⟩ := h
    rw [ih] at hc hseq
    have := hs.sequence_le c hc
    omega

theorem SettledBut.drift {tx : Transaction} (hs : SettledBut tx s)
    (h : (ledgerWorld sdk address).drift s s') : SettledBut tx s' where
  wellFormed := hs.wellFormed.drift h
  sequence_le := by
    induction h with
    | refl => exact hs.sequence_le
    | tail _ h ih =>
      obtain ⟨c, hc, -, hseq, rfl⟩ := h
      exact fun c hmem ↦ (ih c hmem).imp_right fun hle ↦ hle.trans (Int.le_add_one le_rfl)

/-- A send of a settled ledger leaves it settled but for what is sent. -/
theorem Settled.send {tx : Transaction} {r : Except RpcError SendTransactionResponse}
    (hs : Settled s) : SettledBut tx (s.after ⟨.sendTransaction tx, r⟩) where
  wellFormed := hs.wellFormed.after
  sequence_le _ hc := hc.imp_right (hs.sequence_le _)

/-- A transaction that a node reports as final has used its number up. -/
theorem SettledBut.settled {tx : Transaction} {response : GetTransactionResponse}
    (hs : SettledBut tx s)
    (hanswer : s.Answers sdk address ⟨.getTransaction (tx.hexHash sdk), .ok response⟩)
    (hfinal : response.status ≠ .notFound) : Settled s where
  wellFormed := hs.wellFormed
  sequence_le c hc := by
    rcases hs.sequence_le c hc with rfl | hle
    · exact hs.wellFormed.sequence_le _ (hanswer hfinal _ hc rfl)
    · exact hle

/-! ## One operation -/

/-- A call that sends nothing, in a state that the network does not disturb. -/
theorem triple_of_stable {α : Type} {c : Call} {f : Reply c → Except SorobanUtilsError α}
    {P : Ledger → Prop} {Q : α → Ledger → Prop} {E : SorobanUtilsError → Ledger → Prop}
    (hc : ∀ tx, c ≠ .sendTransaction tx)
    (hP : ∀ s s', P s → (ledgerWorld sdk address).drift s s' → P s')
    (hQ : ∀ s r a, P s → s.Answers sdk address ⟨c, r⟩ → f r = .ok a → Q a s)
    (hE : ∀ s r e, P s → f r = .error e → E e s) :
    Triple (ledgerWorld sdk address) SendsNext P (Prog.ask c f) Q E := by
  refine .ask ?_ ?_ ?_
  · intro s s₁ r s₂ _ _ _
    cases c with
    | sendTransaction tx => exact absurd rfl (hc tx)
    | _ => trivial
  · rintro s s₁ r s₂ a hs hdrift ⟨hanswer, rfl⟩ hr
    rw [Ledger.after_of_ne_send hc]
    exact hQ s₁ r a (hP s s₁ hs hdrift) hanswer hr
  · rintro s s₁ r s₂ e hs hdrift ⟨-, rfl⟩ hr
    rw [Ledger.after_of_ne_send hc]
    exact hE s₁ r e (hP s s₁ hs hdrift) hr

/-- The network does not disturb what is known of a settled ledger. -/
theorem stable_of_settled {P : Ledger → Prop} (hP : ∀ s, P s → Settled s) (s s' : Ledger)
    (hs : P s) (hdrift : (ledgerWorld sdk address).drift s s') : P s' :=
  (hP s hs).eq_of_drift hdrift ▸ hs

/-- A signer of the account is held, and everything is settled. -/
structure HeldSettled (address : String) (signer : Signer) (s : Ledger) : Prop where
  publicKey : signer.publicKey = address
  settled : Settled s

/-- A transaction with the number `sequence` is next. -/
structure Next (address : String) (signer : Signer) (sequence : ℤ) (s : Ledger) : Prop
    extends HeldSettled address signer s where
  sequence_eq : sequence = s.sequence + 1

/-- Everything but `tx` is settled, and `tx` is polled for. -/
structure HeldSettledBut (address : String) (signer : Signer) (tx : Transaction) (s : Ledger) :
    Prop where
  publicKey : signer.publicKey = address
  settledBut : SettledBut tx s

theorem HeldSettledBut.stable {tx : Transaction} (s s' : Ledger)
    (hs : HeldSettledBut address signer tx s) (hdrift : (ledgerWorld sdk address).drift s s') :
    HeldSettledBut address signer tx s' :=
  ⟨hs.publicKey, hs.settledBut.drift hdrift⟩

theorem triple_send (signer : Signer) (tx : Transaction) :
    Triple (ledgerWorld sdk address) SendsNext (Next address signer tx.contents.sequence)
      (sendTransaction sdk tx) (fun _ ↦ HeldSettledBut address signer tx) fun _ _ ↦ True := by
  refine .ask ?_ ?_ fun _ _ _ _ _ _ _ _ _ ↦ trivial
  · rintro s s₁ r s₂ hs hdrift -
    obtain rfl := hs.settled.eq_of_drift hdrift
    exact hs.sequence_eq
  · rintro s s₁ r s₂ a hs hdrift ⟨-, rfl⟩ -
    obtain rfl := hs.settled.eq_of_drift hdrift
    exact ⟨hs.publicKey, hs.settled.send⟩

theorem triple_getTransaction (signer : Signer) (tx : Transaction) :
    Triple (ledgerWorld sdk address) SendsNext (HeldSettledBut address signer tx)
      (getTransaction sdk (tx.hexHash sdk))
      (fun response s ↦ match response.status with
        | .success => HeldSettled address signer s
        | .notFound => HeldSettledBut address signer tx s
        | .failed => True)
      fun _ _ ↦ True := by
  refine triple_of_stable (by simp) HeldSettledBut.stable ?_ fun _ _ _ _ _ ↦ trivial
  intro s r response hs hanswer hr
  cases r with
  | error e => cases hr
  | ok response' =>
    cases hr
    cases hstatus : response.status with
    | success => exact ⟨hs.publicKey, hs.settledBut.settled hanswer (by simp [hstatus])⟩
    | notFound => exact hs
    | failed => trivial

/-- What a method knows of the ledger at its stations. -/
def honesty (sdk : Sdk) (address : String) :
    Discipline sdk (ledgerWorld sdk address) SendsNext where
  Idle := Settled
  Done _ := True
  Held := HeldSettled address
  Failed _ _ := True
  Fetched signer account := Next address signer (account.sequence + 1)
  Unsigned signer tx := Next address signer tx.contents.sequence
  Signed signer tx := Next address signer tx.contents.sequence
  Sent := HeldSettledBut address
  failed_of_held _ _ _ := trivial
  held_of_fetched _ _ _ h := h.toHeldSettled
  unsigned_of_fetched _ _ _ _ _ _ _ h := h
  buildSigner := by
    refine triple_of_stable (by simp) (stable_of_settled fun _ ↦ id) ?_ fun _ _ _ _ _ ↦ trivial
    rintro s r signer hs hanswer rfl
    exact ⟨hanswer, hs⟩
  dropSigner signer :=
    triple_of_stable (by simp) (stable_of_settled fun _ ↦ HeldSettled.settled)
      (fun _ _ _ h _ _ ↦ h.settled) fun _ _ _ _ _ ↦ trivial
  dropSigner_failed signer :=
    triple_of_stable (by simp) (fun _ _ _ _ ↦ trivial) (fun _ _ _ _ _ _ ↦ trivial)
      fun _ _ _ _ _ ↦ trivial
  quiet signer c hc :=
    triple_of_stable (by rintro tx rfl; exact hc) (stable_of_settled fun _ ↦ HeldSettled.settled)
      (fun _ _ _ h _ _ ↦ h) fun _ _ _ _ _ ↦ trivial
  getAccount signer := by
    refine triple_of_stable (by simp) (stable_of_settled fun _ ↦ HeldSettled.settled) ?_
      fun _ _ _ _ _ ↦ trivial
    intro s r account h hanswer hr
    cases r with
    | error e => cases hr
    | ok account' =>
      cases hr
      exact ⟨h, by rw [hanswer h.publicKey]⟩
  prepareTransaction signer tx := by
    refine triple_of_stable (by simp) (stable_of_settled fun _ h ↦ h.settled) ?_
      fun _ _ _ _ _ ↦ trivial
    rintro s r _ h hanswer ⟨⟩
    cases r with
    | error e => exact h.toHeldSettled
    | ok prepared => exact ⟨h.toHeldSettled, hanswer.trans h.sequence_eq⟩
  sign signer tx networkPassphrase := by
    refine triple_of_stable (by simp) (stable_of_settled fun _ h ↦ h.settled) ?_
      fun _ _ _ _ _ ↦ trivial
    rintro s r signed h hanswer rfl
    exact ⟨h.toHeldSettled, by rw [hanswer]; exact h.sequence_eq⟩
  sendTransaction := triple_send
  now signer tx :=
    triple_of_stable (by simp) HeldSettledBut.stable (fun _ _ _ h _ _ ↦ h) fun _ _ _ _ _ ↦ trivial
  sleep signer tx duration :=
    triple_of_stable (by simp) HeldSettledBut.stable (fun _ _ _ h _ _ ↦ h) fun _ _ _ _ _ ↦ trivial
  failed_of_sent _ _ _ _ := trivial
  getTransaction := triple_getTransaction

/-! ## A sequence of operations -/

/-- Every transaction that is sent is polled as final afterwards. -/
def AllFinal (sdk : Sdk) (t : List Exchange) : Prop :=
  ∀ u tx r v, t = u ++ ⟨.sendTransaction tx, r⟩ :: v →
    ∃ response : GetTransactionResponse,
      ⟨.getTransaction (tx.hexHash sdk), .ok response⟩ ∈ v ∧ response.status ≠ .notFound

theorem AllFinal.of_single_send {u v : List Exchange} {tx : Transaction}
    {r : Except RpcError SendTransactionResponse} (hu : sends u = []) (hv : sends v = [])
    (hfinal : ∃ response : GetTransactionResponse,
      ⟨.getTransaction (tx.hexHash sdk), .ok response⟩ ∈ v ∧ response.status ≠ .notFound) :
    AllFinal sdk (u ++ ⟨.sendTransaction tx, r⟩ :: v) := by
  have hnone {t : List Exchange} {tx' : Transaction} {r' : Except RpcError SendTransactionResponse}
      (ht : sends t = []) (hmem : ⟨.sendTransaction tx', r'⟩ ∈ t) : False := by
    have htx : tx' ∈ sends t := mem_sends.mpr ⟨r', hmem⟩
    rw [ht] at htx
    cases htx
  intro u' tx' r' v' ht
  obtain ⟨a, rfl, -⟩ | ⟨a, -, ht₁⟩ := append_cons_eq_append_iff.mp ht
  · exact (hnone hu List.mem_append_cons_self).elim
  · obtain ⟨-, hx, rfl⟩ | ⟨b, -, rfl⟩ := cons_eq_append_cons_iff.mp ht₁
    · cases hx
      exact hfinal
    · exact (hnone hv List.mem_append_cons_self).elim

/-- The runs of write operations one after the other. Each but the last has returned, whatever its
result, and has seen what it sent become final. -/
inductive Session (sdk : Sdk) (client : Client) : List WriteOp → List Exchange → Prop
  | nil : Session sdk client [] []
  | last (op : WriteOp) {t : List Exchange} {o : Outcome (Except SorobanUtilsError Unit)}
      (hrun : Runs (client.perform sdk op).run t o) : Session sdk client [op] t
  | next (op : WriteOp) {ops : List WriteOp} {t₁ t₂ : List Exchange}
      {x : Except SorobanUtilsError Unit}
      (hrun : Runs (client.perform sdk op).run t₁ (.returned x)) (hfinal : AllFinal sdk t₁)
      (hrest : Session sdk client ops t₂) : Session sdk client (op :: ops) (t₁ ++ t₂)

/-- What was handed to the network along a history was handed to it before, or is sent in it. -/
theorem mem_submitted_of_path {h : History Call Reply Ledger} {c : TransactionContents}
    (hpath : (ledgerWorld sdk address).Path s h s') (hc : c ∈ s'.submitted) :
    c ∈ s.submitted ∨
      ∃ u tx r v, h.trace = u ++ ⟨.sendTransaction tx, r⟩ :: v ∧ tx.contents = c := by
  induction hpath with
  | nil s => exact .inl hc
  | @cons s s₁ s₂ s' x h hdrift hstep hrest ih =>
    obtain ⟨-, rfl⟩ := hstep
    have hsubmitted := Ledger.submitted_of_drift hdrift
    rcases ih hc with hmem | ⟨u, tx, r, v, ht, hc⟩
    · obtain ⟨call, r⟩ := x
      by_cases hcall : ∃ tx, call = .sendTransaction tx
      · obtain ⟨tx, rfl⟩ := hcall
        rcases hmem with rfl | hmem
        · exact .inr ⟨[], tx, r, h.trace, rfl, rfl⟩
        · exact .inl (hsubmitted ▸ hmem)
      · rw [Ledger.after_of_ne_send fun tx htx ↦ hcall ⟨tx, htx⟩, hsubmitted] at hmem
        exact .inl hmem
    · exact .inr ⟨x :: u, tx, r, v, congrArg (x :: ·) ht, hc⟩

/-- After an operation that saw everything it sent become final, the ledger is settled again. -/
theorem Settled.path {h : History Call Reply Ledger} (hs : Settled s)
    (hpath : (ledgerWorld sdk address).Path s h s') (hfinal : AllFinal sdk h.trace) :
    Settled s' where
  wellFormed := (hs.wellFormed.path hpath).1
  sequence_le c hc := by
    rcases mem_submitted_of_path hpath hc with hc | ⟨u, tx, r, v, ht, rfl⟩
    · exact (hs.sequence_le c hc).trans (Ledger.extends_of_path hpath).sequence_le
    · obtain ⟨response, hmem, hstatus⟩ := hfinal u tx r v ht
      exact (hs.wellFormed.path hpath).1.sequence_le _
        (Ledger.applied_of_final hpath ht hmem hstatus)

/-- A session on a settled ledger sends nothing but next numbers. -/
theorem Session.sendsNext {client : Client} {ops : List WriteOp} {t : List Exchange}
    (hsession : Session sdk client ops t) {h : History Call Reply Ledger} (hs : Settled s)
    (hpath : (ledgerWorld sdk address).Path s h s') (ht : h.trace = t) :
    ∀ y ∈ h, SendsNext y.1 y.2 := by
  induction hsession generalizing s h with
  | nil =>
    obtain rfl := List.map_eq_nil_iff.mp ht
    simp
  | last op hrun => exact ((honesty sdk address).perform client op s h s' _ hs hpath (ht ▸ hrun)).1
  | next op hrun hfinal _ ih =>
    obtain ⟨h₁, h₂, rfl, rfl, ht₂⟩ := List.map_eq_append_iff.mp ht
    obtain ⟨s₁, hpath₁, hpath₂⟩ := World.path_append.mp hpath
    refine List.forall_mem_append.mpr ⟨?_, ih (hs.path hpath₁ hfinal) hpath₂ ht₂⟩
    exact ((honesty sdk address).perform client op s h₁ s₁ _ hs hpath₁ hrun).1

/-- **Sequence-number honesty.** On an account of which nothing is on its way, and for which only
this client submits, every transaction of a session is sent with the number after the account's, and
so with none that has been used up. -/
theorem sequenceHonesty (sdk : Sdk) (client : Client) (address : String) (ops : List WriteOp)
    (n : ℤ) (h : History Call Reply Ledger) (s : Ledger)
    (hpath : (ledgerWorld sdk address).Path (.start n) h s)
    (hsession : Session sdk client ops h.trace) (y : Ledger × Exchange) (hy : y ∈ h)
    (tx : Transaction) (r : Except RpcError SendTransactionResponse)
    (hsend : y.2 = ⟨.sendTransaction tx, r⟩) :
    tx.contents.sequence = y.1.sequence + 1 ∧
      ∀ c ∈ y.1.applied, c.sequence < tx.contents.sequence := by
  have hstart : Settled (.start n) := ⟨Ledger.wellFormed_start n, by simp [Ledger.start]⟩
  have hnext := hsession.sendsNext hstart hpath rfl y hy
  rw [hsend] at hnext
  refine ⟨hnext, fun c hc ↦ ?_⟩
  have hle := ((Ledger.wellFormed_start n).path hpath).2 y hy |>.sequence_le c hc
  rw [hnext]
  exact Int.lt_add_one_of_le hle

/-! ## An upload and another one -/

/-- The upload of no code from an account with the number `n`. -/
def uploadFrom (n : ℤ) : Transaction :=
  unprepared NetworkConfig.testnet.networkPassphrase (.uploadContractWasm ⟨#[]⟩) minBaseFee ⟨"G", n⟩

/-- The ledger once the upload is handed to the network. -/
def Ledger.uploading (s : Ledger) : Ledger :=
  { s with submitted := insert (uploadFrom s.sequence).contents s.submitted }

/-- The ledger once the upload is applied. -/
def Ledger.uploaded (s : Ledger) : Ledger :=
  s.uploading.apply (uploadFrom s.sequence).contents

/-- The exchanges of the upload up to its send. -/
def beforeSend (n : ℤ) : List Exchange :=
  [⟨.buildSigner, .ok .sample⟩, ⟨.getFeeStats, .error (.other "")⟩,
    ⟨.getAccount "G", .ok ⟨"G", n⟩⟩, ⟨.prepareTransaction (uploadFrom n), .ok (uploadFrom n)⟩,
    ⟨.sign .sample (uploadFrom n) NetworkConfig.testnet.networkPassphrase, .ok (uploadFrom n)⟩]

/-- The exchanges of the upload, which is polled as a success. -/
def uploadExchanges (n : ℤ) : List Exchange :=
  ⟨.buildSigner, .ok .sample⟩ :: ((⟨.getFeeStats, .error (.other "")⟩ ::
    ⟨.getAccount "G", .ok ⟨"G", n⟩⟩ :: ⟨.prepareTransaction (uploadFrom n), .ok (uploadFrom n)⟩ ::
    resultLeg (uploadFrom n) (some (some zeroHashVal))) ++ [⟨.dropSigner .sample, ()⟩])

theorem runs_uploadExchanges (n : ℤ) :
    Runs (Client.sample.perform .sample (.uploadWasm ⟨#[]⟩)).run (uploadExchanges n)
      (.returned (.ok ())) := by
  refine runs_except_map.mpr ⟨.returned (.ok zeroHash), runs_withSigner.mpr ?_, rfl⟩
  refine .dropped .sample (runs_uploadWasm.mpr ?_)
  exact .built (.uploadContractWasm ⟨#[]⟩) rfl (.submitted (.error (.other ""))
    (.leg ⟨"G", n⟩ (uploadFrom n) (legRun_resultLeg (uploadFrom n) _)))

theorem allFinal_uploadExchanges (n : ℤ) : AllFinal .sample (uploadExchanges n) :=
  .of_single_send (u := beforeSend n) rfl rfl
    ⟨⟨.success, some (some zeroHashVal)⟩, .tail _ (.head _), by simp⟩

/-- The upload with the ledger at each exchange, from the ledger `s` on. -/
def uploadOn (s : Ledger) : History Call Reply Ledger :=
  (beforeSend s.sequence).map (s, ·) ++
  [(s, ⟨.sendTransaction (uploadFrom s.sequence),
      .ok ⟨.pending, (uploadFrom s.sequence).hexHash .sample⟩⟩),
    (s.uploading, ⟨.now, 0⟩),
    (s.uploaded, ⟨.getTransaction ((uploadFrom s.sequence).hexHash .sample),
      .ok ⟨.success, some (some zeroHashVal)⟩⟩),
    (s.uploaded, ⟨.dropSigner .sample, ()⟩)]

/-- Where nothing is on its way, the upload is applied. -/
theorem path_uploadOn {s : Ledger} (hs : ∀ c ∈ s.submitted, c ∈ s.applied) :
    (ledgerWorld .sample "G").Path s (uploadOn s) s.uploaded := by
  have hbefore : ∀ x ∈ beforeSend s.sequence, s.Answers .sample "G" x ∧ s.after x = s := by
    simp [beforeSend, Ledger.Answers, Ledger.after, Signer.sample]
  have hdrift : (ledgerWorld .sample "G").drift s.uploading s.uploaded :=
    .single ⟨_, Set.mem_insert _ _, rfl, rfl, rfl⟩
  refine (Ledger.path_of_stationary hbefore).append ?_
  refine .cons .refl ⟨trivial, rfl⟩ (.cons .refl ⟨trivial, rfl⟩ (.cons hdrift ⟨?_, rfl⟩
    (.cons .refl ⟨trivial, rfl⟩ (.nil _))))
  rintro - c (rfl | hc) -
  · exact List.mem_append_right _ (List.mem_singleton_self _)
  · exact List.mem_append_left _ (hs c hc)

/-- The ledger in the middle of a first upload. -/
def uploadSubmitted : Ledger :=
  (Ledger.start 7).uploading

/-- The ledger after it. -/
def uploadApplied : Ledger :=
  (Ledger.start 7).uploaded

/-- Two uploads, the second when the first is applied. -/
def twoUploads : History Call Reply Ledger :=
  uploadOn (.start 7) ++ uploadOn uploadApplied

theorem path_twoUploads :
    (ledgerWorld .sample "G").Path (.start 7) twoUploads uploadApplied.uploaded := by
  refine (path_uploadOn (by simp [Ledger.start])).append (path_uploadOn ?_)
  rintro c (rfl | hc)
  · exact List.mem_singleton_self _
  · exact hc.elim

theorem session_twoUploads : Session .sample .sample
    [.uploadWasm ⟨#[]⟩, .uploadWasm ⟨#[]⟩] twoUploads.trace :=
  .next _ (runs_uploadExchanges 7) (allFinal_uploadExchanges 7) (.last _ (runs_uploadExchanges 8))

theorem sequenceHonest_twoUploads :
    (uploadFrom 8).contents.sequence = uploadApplied.sequence + 1 ∧
      ∀ c ∈ uploadApplied.applied, c.sequence < (uploadFrom 8).contents.sequence :=
  sequenceHonesty .sample .sample "G" _ 7 _ _ path_twoUploads session_twoUploads
    (uploadApplied, ⟨.sendTransaction (uploadFrom 8),
      .ok ⟨.pending, (uploadFrom 8).hexHash .sample⟩⟩)
    (List.mem_append_right _ (List.mem_append_right _ (.head _))) (uploadFrom 8) _ rfl

end StellarRustClient
