import StellarRustClient.Client.Discipline
import StellarRustClient.Client.Scope

/-!
# The contract of the signer factory

A signer is documented to be built for one signing operation, and dropped as soon as signing is
done. `alive` is the state that this is about: the signers that have been built and not dropped,
each with the number of times it has signed. `SignerContract` says of a run that no signer signs
twice, that none is alive while a transaction is sent or polled for, and that none is left at the
end.

The scope of a signer is the whole method, so the contract is kept as long as nothing comes of the
signature, and broken by the send that follows the first one. Both are read off the same walk
through the code: `signing` is the `Discipline` of the world that records the run.
-/

namespace StellarRustClient

open Interaction

/-! ## The signers alive -/

/-- The signers alive, each with the number of times it has signed. -/
abbrev Alive := List (Signer × ℕ)

/-- What an exchange does to the signers alive. -/
def aliveAfter (l : Alive) : Exchange → Alive
  | ⟨.buildSigner, .ok signer⟩ => (signer, 0) :: l
  | ⟨.dropSigner signer, _⟩ => l.eraseP fun y ↦ y.1 = signer
  | ⟨.sign signer _ _, _⟩ => l.map fun y ↦ if y.1 = signer then (y.1, y.2 + 1) else y
  | _ => l

/-- The signers alive after a run. -/
def alive (t : List Exchange) : Alive :=
  t.foldl aliveAfter []

/-- What may happen while the signers of `l` are alive. -/
def IsPermitted (l : Alive) : Exchange → Prop
  | ⟨.sign signer _ _, _⟩ => ∀ y ∈ l, y.1 = signer → y.2 = 0
  | ⟨.sendTransaction _, _⟩ => l = []
  | ⟨.getTransaction _, _⟩ => l = []
  | _ => True

/-- One signature for each signer, and no signer alive during a send or a poll or after the end. -/
def SignerContract (t : List Exchange) (o : Outcome (Except SorobanUtilsError Unit)) : Prop :=
  (∀ u x v, t = u ++ x :: v → IsPermitted (alive u) x) ∧ ∀ x, o = .returned x → alive t = []

/-- A signature that a signer has made. -/
def IsSignature : Exchange → Prop
  | ⟨.sign _ _ _, .ok _⟩ => True
  | _ => False

/-- No signature is made, unless it is the last thing that has happened so far. -/
def NothingSigned (t : List Exchange) : Prop :=
  ∀ u x v, t = u ++ x :: v → IsSignature x → v = []

@[simp] theorem alive_append_singleton (u : List Exchange) (x : Exchange) :
    alive (u ++ [x]) = aliveAfter (alive u) x := by
  rw [alive, alive, List.foldl_append, List.foldl_cons, List.foldl_nil]

/-! ## The recording world -/

/-- A signature has been made. -/
def HasSigned (u : List Exchange) : Prop :=
  ∃ x ∈ u, IsSignature x

/-- The last thing that happened is a signature. -/
def EndsSigned (u : List Exchange) : Prop :=
  ∃ v x, u = v ++ [x] ∧ IsSignature x

/-- Without a signature before it an exchange is permitted, and right after one it is not. -/
def PermittedUnlessSigned (u : List Exchange) (x : Exchange) : Prop :=
  (¬ HasSigned u → IsPermitted (alive u) x) ∧ (EndsSigned u → ¬ IsPermitted (alive u) x)

variable {u : List Exchange} {x : Exchange} {signer : Signer} {tx : Transaction}

theorem hasSigned_append_singleton : HasSigned (u ++ [x]) ↔ HasSigned u ∨ IsSignature x := by
  simp [HasSigned, or_and_right, exists_or]

theorem endsSigned_append_singleton : EndsSigned (u ++ [x]) ↔ IsSignature x := by
  constructor
  · rintro ⟨v, y, hv, hy⟩
    rw [(eq_of_append_singleton hv).2]
    exact hy
  · intro hx
    exact ⟨u, x, rfl, hx⟩

/-- Calls that leave the signers alone. -/
def IsNeutral : Call → Prop
  | .buildSigner => False
  | .dropSigner _ => False
  | .sign _ _ _ => False
  | _ => True

theorem aliveAfter_of_isNeutral (l : Alive) (hx : IsNeutral x.1) : aliveAfter l x = l := by
  obtain ⟨c, r⟩ := x
  cases c <;> first | rfl | exact hx.elim

theorem not_isSignature_of_isNeutral (hx : IsNeutral x.1) : ¬ IsSignature x := by
  obtain ⟨c, r⟩ := x
  cases c <;> first | exact id | exact hx.elim

/-- No signer is alive. -/
def SignerIdle (u : List Exchange) : Prop :=
  alive u = [] ∧ ¬ EndsSigned u

/-- One signer is alive; if it has signed before, something came of it. -/
def SignerHeld (signer : Signer) (u : List Exchange) : Prop :=
  ∃ n, alive u = [(signer, n)] ∧ (n ≠ 0 → HasSigned u) ∧ ¬ EndsSigned u

/-- One signer is alive, and no further use is made of it. -/
def SignerFailed (signer : Signer) (u : List Exchange) : Prop :=
  ∃ n, alive u = [(signer, n)] ∧ ¬ EndsSigned u

/-- One signer is alive, and has just signed. -/
def SignerSigned (signer : Signer) (u : List Exchange) : Prop :=
  ∃ n, alive u = [(signer, n)] ∧ EndsSigned u

/-- One signer is alive, and what it signed has been sent. -/
def SignerSent (signer : Signer) (u : List Exchange) : Prop :=
  ∃ n, alive u = [(signer, n)] ∧ HasSigned u ∧ ¬ EndsSigned u

theorem SignerHeld.failed (h : SignerHeld signer u) : SignerFailed signer u := by
  obtain ⟨n, hu, -, hends⟩ := h
  exact ⟨n, hu, hends⟩

theorem SignerSent.held (h : SignerSent signer u) : SignerHeld signer u := by
  obtain ⟨n, hu, hsigned, hends⟩ := h
  exact ⟨n, hu, fun _ ↦ hsigned, hends⟩

theorem SignerHeld.append (h : SignerHeld signer u) (hx : IsNeutral x.1) :
    SignerHeld signer (u ++ [x]) := by
  obtain ⟨n, hu, hsigned, -⟩ := h
  refine ⟨n, ?_, fun hn ↦ hasSigned_append_singleton.mpr (.inl (hsigned hn)), ?_⟩
  · rw [alive_append_singleton, aliveAfter_of_isNeutral _ hx, hu]
  · rw [endsSigned_append_singleton]
    exact not_isSignature_of_isNeutral hx

theorem SignerSent.append (h : SignerSent signer u) (hx : IsNeutral x.1) :
    SignerSent signer (u ++ [x]) := by
  obtain ⟨n, hu, hsigned, -⟩ := h
  refine ⟨n, ?_, hasSigned_append_singleton.mpr (.inl hsigned), ?_⟩
  · rw [alive_append_singleton, aliveAfter_of_isNeutral _ hx, hu]
  · rw [endsSigned_append_singleton]
    exact not_isSignature_of_isNeutral hx

/-- A call between two stations at which no transaction is on its way. -/
theorem triple_of_held {α : Type} {c : Call} {f : Reply c → Except SorobanUtilsError α}
    {Q : α → List Exchange → Prop} (hc : IsNeutral c) (hpermitted : ∀ l r, IsPermitted l ⟨c, r⟩)
    (hQ : ∀ a u, SignerHeld signer u → Q a u) :
    Triple World.record PermittedUnlessSigned (SignerHeld signer) (Prog.ask c f) Q
      fun _ ↦ SignerFailed signer := by
  refine .ask_record (fun u r h ↦ ?_) (fun u r a h _ ↦ hQ a _ (h.append hc)) fun u r e h _ ↦
    (h.append hc).failed
  obtain ⟨n, -, -, hends⟩ := h
  exact ⟨fun _ ↦ hpermitted _ r, fun h ↦ absurd h hends⟩

/-- A call of the poll. -/
theorem triple_of_sent {α : Type} {c : Call} {f : Reply c → Except SorobanUtilsError α}
    {Q : α → List Exchange → Prop} (hc : IsNeutral c)
    (hQ : ∀ a u, SignerSent signer u → Q a u) :
    Triple World.record PermittedUnlessSigned (SignerSent signer) (Prog.ask c f) Q
      fun _ ↦ SignerFailed signer := by
  refine .ask_record (fun u r h ↦ ?_) (fun u r a h _ ↦ hQ a _ (h.append hc)) fun u r e h _ ↦
    (h.append hc).held.failed
  obtain ⟨n, -, hsigned, hends⟩ := h
  exact ⟨fun h ↦ absurd hsigned h, fun h ↦ absurd h hends⟩

/-- The end of a scope. -/
theorem triple_dropSigner {P : List Exchange → Prop} (hP : ∀ u, P u → SignerFailed signer u) :
    Triple World.record PermittedUnlessSigned P (Prog.ask (.dropSigner signer) .ok : Async Unit)
      (fun _ ↦ SignerIdle) fun _ ↦ SignerIdle := by
  have hidle (u : List Exchange) (h : P u) : SignerIdle (u ++ [⟨.dropSigner signer, ()⟩]) := by
    obtain ⟨n, hu, -⟩ := hP u h
    constructor
    · rw [alive_append_singleton, hu]
      simp [aliveAfter]
    · rw [endsSigned_append_singleton]
      exact id
  refine .ask_record (fun u r h ↦ ?_) (fun u r a h _ ↦ hidle u h) fun u r e h _ ↦ hidle u h
  obtain ⟨n, -, hends⟩ := hP u h
  exact ⟨fun _ ↦ trivial, fun h ↦ absurd h hends⟩

theorem triple_sign (signer : Signer) (tx : Transaction) (networkPassphrase : String) :
    Triple World.record PermittedUnlessSigned (SignerHeld signer) (signer.sign tx networkPassphrase)
      (fun _ ↦ SignerSigned signer) fun _ ↦ SignerFailed signer := by
  have halive {u : List Exchange} {n : ℕ} {r : Except SorobanUtilsError Transaction}
      (hu : alive u = [(signer, n)]) :
      alive (u ++ [⟨.sign signer tx networkPassphrase, r⟩]) = [(signer, n + 1)] := by
    rw [alive_append_singleton, hu]
    simp [aliveAfter]
  refine .ask_record ?_ ?_ ?_
  · rintro u r ⟨n, hu, hsigned, hends⟩
    refine ⟨fun hnone ↦ ?_, fun h ↦ absurd h hends⟩
    have hn : n = 0 := not_not.mp fun hn ↦ hnone (hsigned hn)
    rw [hu]
    simp [IsPermitted, hn]
  · rintro u r a ⟨n, hu, -, -⟩ rfl
    exact ⟨n + 1, halive hu, endsSigned_append_singleton.mpr trivial⟩
  · rintro u r e ⟨n, hu, -, -⟩ rfl
    exact ⟨n + 1, halive hu, fun h ↦ endsSigned_append_singleton.mp h⟩

theorem triple_sendTransaction (sdk : Sdk) (signer : Signer) (tx : Transaction) :
    Triple World.record PermittedUnlessSigned (SignerSigned signer) (sendTransaction sdk tx)
      (fun _ ↦ SignerSent signer) fun _ ↦ SignerFailed signer := by
  have hsent {u : List Exchange} (r : Except RpcError SendTransactionResponse)
      (h : SignerSigned signer u) : SignerSent signer (u ++ [⟨.sendTransaction tx, r⟩]) := by
    obtain ⟨n, hu, v, y, rfl, hy⟩ := h
    refine ⟨n, ?_, ⟨y, by simp, hy⟩, fun h ↦ endsSigned_append_singleton.mp h⟩
    rw [alive_append_singleton, hu]
    rfl
  refine .ask_record ?_ (fun u r a h _ ↦ hsent r h) fun u r e h _ ↦ (hsent r h).held.failed
  rintro u r ⟨n, hu, v, y, rfl, hy⟩
  refine ⟨fun h ↦ absurd ⟨y, by simp, hy⟩ h, fun _ hnil ↦ ?_⟩
  cases hu.symm.trans hnil

theorem triple_buildSigner :
    Triple World.record PermittedUnlessSigned SignerIdle
      (Prog.ask .buildSigner (fun r ↦ r) : Async Signer) SignerHeld fun _ ↦ SignerIdle := by
  refine .ask_record (fun u r h ↦ ⟨fun _ ↦ trivial, fun hends ↦ absurd hends h.2⟩) ?_ ?_
  · rintro u r signer ⟨hu, -⟩ rfl
    refine ⟨0, ?_, fun h ↦ absurd rfl h, fun h ↦ endsSigned_append_singleton.mp h⟩
    rw [alive_append_singleton, hu]
    rfl
  · rintro u r e ⟨hu, -⟩ rfl
    refine ⟨?_, fun h ↦ endsSigned_append_singleton.mp h⟩
    rw [alive_append_singleton, hu]
    rfl

/-- The life of a signer in the write methods. -/
def signing (sdk : Sdk) : Discipline sdk World.record PermittedUnlessSigned where
  Idle := SignerIdle
  Done := SignerIdle
  Held := SignerHeld
  Failed := SignerFailed
  Fetched signer _ := SignerHeld signer
  Unsigned signer _ := SignerHeld signer
  Signed signer _ := SignerSigned signer
  Sent signer _ := SignerSent signer
  failed_of_held _ _ := SignerHeld.failed
  held_of_fetched _ _ _ := id
  unsigned_of_fetched _ _ _ _ _ _ _ := id
  buildSigner := triple_buildSigner
  dropSigner _ := triple_dropSigner fun _ ↦ SignerHeld.failed
  dropSigner_failed _ := triple_dropSigner fun _ ↦ id
  quiet signer c hc := by
    cases c with
    | simulateTransaction tx => exact triple_of_held trivial (fun _ _ ↦ trivial) fun _ _ ↦ id
    | getFeeStats => exact triple_of_held trivial (fun _ _ ↦ trivial) fun _ _ ↦ id
    | salt => exact triple_of_held trivial (fun _ _ ↦ trivial) fun _ _ ↦ id
    | _ => exact hc.elim
  getAccount _ := triple_of_held trivial (fun _ _ ↦ trivial) fun _ _ ↦ id
  prepareTransaction _ _ := triple_of_held trivial (fun _ _ ↦ trivial) fun r _ h ↦ by
    cases r <;> exact h
  sign := triple_sign
  sendTransaction := triple_sendTransaction sdk
  now _ _ := triple_of_sent trivial fun _ _ ↦ id
  sleep _ _ _ := triple_of_sent trivial fun _ _ ↦ id
  failed_of_sent _ _ _ h := h.held.failed
  getTransaction _ _ := triple_of_sent trivial fun response _ h ↦ by
    cases response.status with
    | success => exact h.held
    | notFound => exact h
    | failed => exact h.held.failed

/-- **The contract of the signer factory** is kept exactly in the runs in which nothing comes of a
signature. -/
theorem signerContract_iff_nothingSigned (sdk : Sdk) (client : Client) (op : WriteOp)
    (t : List Exchange) (o : Outcome (Except SorobanUtilsError Unit))
    (h : Runs (client.perform sdk op).run t o) : SignerContract t o ↔ NothingSigned t := by
  have hstart : SignerIdle [] := ⟨rfl, by rintro ⟨v, x, hv, -⟩; simp at hv⟩
  obtain ⟨hG, hok, herror⟩ := ((signing sdk).perform client op).of_record hstart h
  constructor
  · rintro ⟨hpermitted, -⟩ u x v rfl hx
    cases v with
    | nil => rfl
    | cons y v =>
      have ht : u ++ x :: y :: v = (u ++ [x]) ++ y :: v := by simp
      exact absurd (hpermitted _ y v ht) ((hG _ y v ht).2 (endsSigned_append_singleton.mpr hx))
  · intro hnothing
    refine ⟨fun u x v ht ↦ (hG u x v ht).1 ?_, fun x ho ↦ ?_⟩
    · rintro ⟨y, hy, hsignature⟩
      obtain ⟨a, b, rfl⟩ := List.append_of_mem hy
      have hnil := hnothing a y (b ++ x :: v) (by rw [ht]; simp) hsignature
      simp at hnil
    · rcases x with e | a
      · exact (herror e ho).1
      · exact (hok a ho).1

/-! ## Two uploads -/

theorem signerContract_refusedUpload : SignerContract refusedUpload
    (.returned (.error (.signer ""))) := by
  refine (signerContract_iff_nothingSigned .sample .sample (.uploadWasm ⟨#[]⟩) _ _
    runs_refusedUpload).mpr fun u x v ht hx ↦ ?_
  have hmem : x ∈ refusedUpload := ht ▸ List.mem_append_cons_self
  simp [refusedUpload, unsignedUpload] at hmem
  rcases hmem with rfl | rfl | rfl | rfl | rfl | rfl <;> exact hx.elim

/-- The signer of an upload that succeeds is alive while its transaction is sent. -/
theorem signer_is_alive_during_send : ¬ ∀ sdk client op t o,
    Runs (Client.perform sdk client op).run t o → SignerContract t o := by
  intro h
  have hsend := (h _ _ _ _ _ runs_acceptedUpload).1
    (⟨.buildSigner, .ok .sample⟩ :: (unsignedUpload ++
      [⟨.sign .sample sampleUpload NetworkConfig.testnet.networkPassphrase, .ok sampleUpload⟩]))
    ⟨.sendTransaction sampleUpload, .ok ⟨.pending, sampleUpload.hexHash .sample⟩⟩ _ rfl
  exact absurd hsend (List.cons_ne_nil (Signer.sample, 1) [])

end StellarRustClient
