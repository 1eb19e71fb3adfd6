import StellarRustClient.Client.Discipline
import StellarRustClient.Client.Faults
import StellarRustClient.Signer

/-!
# The custody of a secret key

A client that is configured with a secret builds a signer for each method, two for a deployment in
two steps, and drops it at the end. `Kept` says what this amounts to at each exchange of a method,
whatever the node answers: at most one signer is alive, every call to a signer finds it and
succeeds, and what is sent is a transaction that the node has prepared, or that the client has
built, with one signature more. Signers are what is counted: the keypair in a signer is copied each
time it signs.

`custody` is the `Discipline` of the recording world with the signers of a secret in front of it.
What a signature is comes from `Keyring.Lawful`.
-/

namespace StellarRustClient

open Interaction

variable {K : Keyring} {sdk : Sdk} {factory : SecretSignerFactory K} {box : Signer}
  {k : SecretSigners K}

/-- The calls that go to a signer or to its factory. -/
def IsSignerCall : Call → Prop
  | .factoryPublicKey => True
  | .buildSigner => True
  | .dropSigner _ => True
  | .sign _ _ _ => True
  | _ => False

theorem serve_of_not_isSignerCall {c : Call} (hc : ¬ IsSignerCall c) (k : SecretSigners K) :
    k.serve c = none := by
  cases c <;> first | rfl | exact absurd trivial hc

/-- What the signers of a factory make of a transaction. -/
def SecretSignerFactory.signed (factory : SecretSignerFactory K) (tx : Transaction) : Transaction :=
  K.sign tx [K.clone factory.signer.keypair]

/-- A transaction with one signature more, of its hash by the key. -/
structure SignedOnce (sdk : Sdk) (factory : SecretSignerFactory K) (tx signed : Transaction) :
    Prop where
  contents_eq : signed.contents = tx.contents
  signatures_eq : signed.signatures =
    tx.signatures ++ [K.signDecorated factory.signer.keypair (sdk.hash tx.contents)]

theorem Keyring.Lawful.signedOnce (hK : K.Lawful sdk) (factory : SecretSignerFactory K)
    (tx : Transaction) : SignedOnce sdk factory tx (factory.signed tx) where
  contents_eq := hK.contents_sign tx _
  signatures_eq := by
    rw [SecretSignerFactory.signed, hK.signatures_sign, List.map_singleton, hK.signDecorated_clone]

/-- What there is to sign after `u`: what the node has prepared, and what is built from an account
that it has reported. -/
def Signable (address : String) (u : List Exchange) (tx : Transaction) : Prop :=
  (∃ q, ⟨.prepareTransaction q, .ok tx⟩ ∈ u) ∨
    ∃ account networkPassphrase fee op data, ⟨.getAccount address, .ok account⟩ ∈ u ∧
      tx = (TransactionBuilder.build account networkPassphrase fee op data).1

theorem Signable.append {address : String} {u v : List Exchange} {tx : Transaction}
    (h : Signable address u tx) : Signable address (u ++ v) tx := by
  obtain ⟨q, hq⟩ | ⟨account, networkPassphrase, fee, op, data, hmem, rfl⟩ := h
  · exact .inl ⟨q, List.mem_append_left _ hq⟩
  · exact .inr ⟨account, networkPassphrase, fee, op, data, List.mem_append_left _ hmem, rfl⟩

/-- What holds of an exchange after what the node has exchanged so far, with the signers there
are. -/
structure Kept (sdk : Sdk) (factory : SecretSignerFactory K) (x : List Exchange × SecretSigners K)
    (e : Exchange) : Prop where
  /-- At most one signer is alive. -/
  alive_le : x.2.alive.length ≤ 1
  /-- A call to a signer finds it, and succeeds. -/
  served : IsSignerCall e.1 → x.2.serve e.1 ≠ none ∧ fault sdk e = none
  /-- At most one signer is alive after such a call. -/
  alive_serve_le : ∀ r k, x.2.serve e.1 = some (r, k) → k.alive.length ≤ 1
  /-- What is sent is signed once more, with the key. -/
  signed : ∀ tx, sentTransaction e = some tx →
    ∃ tx', Signable factory.publicKey x.1 tx' ∧ SignedOnce sdk factory tx' tx

/-! ## The stations of a method -/

/-- No signer is alive. -/
def NoSigner (factory : SecretSignerFactory K) (k : SecretSigners K) : Prop :=
  k.factory = factory ∧ k.alive = []

/-- The one signer that is alive is in the box `box`. -/
def HoldsSigner (factory : SecretSignerFactory K) (box : Signer) (k : SecretSigners K) : Prop :=
  k.factory = factory ∧ k.alive = [(box, factory.signer)] ∧ box.publicKey = factory.publicKey

theorem HoldsSigner.find (h : HoldsSigner factory box k) : k.find box = some factory.signer := by
  rw [SecretSigners.find, h.2.1]
  simp

theorem HoldsSigner.drop (h : HoldsSigner factory box k) : NoSigner factory (k.drop box) := by
  refine ⟨h.1, ?_⟩
  rw [SecretSigners.drop, h.2.1]
  simp

theorem HoldsSigner.alive_le (h : HoldsSigner factory box k) : k.alive.length ≤ 1 := by
  rw [h.2.1]
  exact le_rfl

theorem NoSigner.alive_le (h : NoSigner factory k) : k.alive.length ≤ 1 := by
  rw [h.2]
  exact Nat.zero_le 1

theorem NoSigner.insert (h : NoSigner factory k) :
    HoldsSigner factory (k.insert factory.signer).1 (k.insert factory.signer).2 := by
  refine ⟨h.1, ?_, factory.signer_publicKey⟩
  change (_, factory.signer) :: k.alive = _
  rw [h.2]
  rfl

section Calls

/-- The world of a method: a node that answers anything, and the signers of the secret. -/
abbrev secretWorld (K : Keyring) : World Call Reply (List Exchange × SecretSigners K) :=
  World.record.attach SecretSigners.serve

variable {α : Type} {c : Call} {f : Reply c → Except SorobanUtilsError α}
  {P : List Exchange × SecretSigners K → Prop} {Q : α → List Exchange × SecretSigners K → Prop}
  {E : SorobanUtilsError → List Exchange × SecretSigners K → Prop}

/-- A call to the node. -/
theorem triple_node (hc : ¬ IsSignerCall c) (hP : ∀ u k, P (u, k) → k.alive.length ≤ 1)
    (hsend : ∀ u k r tx, P (u, k) → sentTransaction ⟨c, r⟩ = some tx →
      ∃ tx', Signable factory.publicKey u tx' ∧ SignedOnce sdk factory tx' tx)
    (hok : ∀ u k r a, P (u, k) → f r = .ok a → Q a (u ++ [⟨c, r⟩], k))
    (herror : ∀ u k r e, P (u, k) → f r = .error e → E e (u ++ [⟨c, r⟩], k)) :
    Triple (secretWorld K) (Kept sdk factory) P (Prog.ask c f) Q E := by
  refine .ask_passed (serve_of_not_isSignerCall hc) ?_ ?_ ?_
  · rintro u k _ r u' h rfl rfl
    refine ⟨hP u k h, fun hcall ↦ absurd hcall hc, fun r k' hserve ↦ ?_,
      fun tx ht ↦ hsend u k r tx h ht⟩
    cases (serve_of_not_isSignerCall hc k).symm.trans hserve
  · rintro u k _ r u' a h rfl rfl hr
    exact hok u k r a h hr
  · rintro u k _ r u' e h rfl rfl hr
    exact herror u k r e h hr

/-- A call that leaves the signer where it is and sends nothing. -/
theorem triple_holding (hc : ¬ IsSignerCall c) (hsend : ∀ r, sentTransaction ⟨c, r⟩ = none)
    (hP : ∀ u k, P (u, k) → HoldsSigner factory box k)
    (hok : ∀ u k r a, P (u, k) → f r = .ok a → Q a (u ++ [⟨c, r⟩], k)) :
    Triple (secretWorld K) (Kept sdk factory) P (Prog.ask c f) Q
      fun _ x ↦ HoldsSigner factory box x.2 := by
  refine triple_node hc (fun u k h ↦ (hP u k h).alive_le) (fun u k r tx _ ht ↦ ?_) hok
    fun u k r e h _ ↦ hP u k h
  cases (hsend r).symm.trans ht

/-- A call to a signer or to its factory, with what comes of it. -/
theorem triple_signer (r : SecretSigners K → Reply c) (k' : SecretSigners K → SecretSigners K)
    (hserved : ∀ u k, P (u, k) → k.serve c = some (r k, k' k) ∧ fault sdk ⟨c, r k⟩ = none)
    (hnone : ∀ r, sentTransaction ⟨c, r⟩ = none)
    (hP : ∀ u k, P (u, k) → k.alive.length ≤ 1 ∧ (k' k).alive.length ≤ 1)
    (hok : ∀ u k a, P (u, k) → f (r k) = .ok a → Q a (u, k' k))
    (herror : ∀ u k e, P (u, k) → f (r k) = .error e → E e (u, k' k)) :
    Triple (secretWorld K) (Kept sdk factory) P (Prog.ask c f) Q E := by
  refine .ask_served ?_
  rintro ⟨u, k⟩ _ h rfl
  obtain ⟨hr, hfault⟩ := hserved u k h
  have hkept : Kept sdk factory (u, k) ⟨c, r k⟩ := by
    refine ⟨(hP u k h).1, fun _ ↦ ⟨?_, hfault⟩, fun r' k₁ hserve ↦ ?_, fun tx ht ↦ ?_⟩
    · change k.serve c ≠ none
      rw [hr]
      simp
    · obtain ⟨-, rfl⟩ := Prod.mk.inj (Option.some.inj (hr.symm.trans hserve))
      exact (hP u k h).2
    · cases (hnone (r k)).symm.trans ht
  exact ⟨r k, k' k, hr, hkept, fun a ha ↦ hok u k a h ha, fun e he ↦ herror u k e h he⟩

end Calls

/-- The end of a scope. -/
theorem triple_dropHeldSigner (box : Signer) :
    Triple (secretWorld K) (Kept sdk factory) (fun x ↦ HoldsSigner factory box x.2)
      (Prog.ask (.dropSigner box) .ok : Async Unit) (fun _ x ↦ NoSigner factory x.2)
      fun _ x ↦ NoSigner factory x.2 := by
  refine triple_signer (fun _ ↦ ()) (·.drop box) (fun u k h ↦ ⟨?_, rfl⟩) (fun _ ↦ rfl)
    (fun u k h ↦ ⟨h.alive_le, h.drop.alive_le⟩) (fun u k a h _ ↦ h.drop) fun u k e h _ ↦ h.drop
  rw [SecretSigners.serve, h.find]
  rfl

/-- The key of a client in the write methods. -/
def custody (hK : K.Lawful sdk) (factory : SecretSignerFactory K) :
    Discipline sdk (secretWorld K) (Kept sdk factory) where
  Idle x := NoSigner factory x.2
  Done x := NoSigner factory x.2
  Held box x := HoldsSigner factory box x.2
  Failed box x := HoldsSigner factory box x.2
  Fetched box account x := HoldsSigner factory box x.2 ∧
    ⟨.getAccount factory.publicKey, .ok account⟩ ∈ x.1
  Unsigned box tx x := HoldsSigner factory box x.2 ∧ Signable factory.publicKey x.1 tx
  Signed box tx x := HoldsSigner factory box x.2 ∧
    ∃ tx', Signable factory.publicKey x.1 tx' ∧ SignedOnce sdk factory tx' tx
  Sent box _ x := HoldsSigner factory box x.2
  failed_of_held _ _ := id
  held_of_fetched _ _ _ := And.left
  unsigned_of_fetched _ account _ networkPassphrase fee op data h :=
    ⟨h.1, .inr ⟨account, networkPassphrase, fee, op, data, h.2, rfl⟩⟩
  buildSigner := by
    refine triple_signer (fun k ↦ .ok (k.insert factory.signer).1)
      (fun k ↦ (k.insert factory.signer).2) (fun u k h ↦ ⟨?_, rfl⟩) (fun _ ↦ rfl)
      (fun u k h ↦ ?_) ?_ ?_
    · rw [SecretSigners.serve, h.1, factory.buildSigner_eq]
    · exact ⟨h.alive_le, h.insert.alive_le⟩
    · rintro u k box h ⟨⟩
      exact h.insert
    · rintro u k e h ⟨⟩
  dropSigner := triple_dropHeldSigner
  dropSigner_failed := triple_dropHeldSigner
  quiet box c hc := by
    refine triple_holding ?_ (fun r ↦ ?_) (fun _ _ ↦ id) fun _ _ _ _ h _ ↦ h
    · cases c <;> first | exact id | exact hc.elim
    · cases c <;> first | rfl | exact hc.elim
  getAccount box := by
    refine triple_node (fun h ↦ h) (fun _ _ h ↦ h.alive_le) (by rintro _ _ _ _ _ ⟨⟩) ?_
      fun _ _ _ _ h _ ↦ h
    rintro u k (e | account) a h hr <;> cases hr
    exact ⟨h, by simp [h.2.2]⟩
  prepareTransaction box tx := by
    refine triple_holding (fun h ↦ h) (fun _ ↦ rfl) (fun _ _ h ↦ h.1) ?_
    rintro u k r _ h ⟨⟩
    cases r with
    | error e => exact h.1
    | ok prepared => exact ⟨h.1, .inl ⟨tx, by simp⟩⟩
  sign box tx networkPassphrase := by
    refine triple_signer (fun _ ↦ .ok (factory.signed tx)) id (fun u k h ↦ ⟨?_, rfl⟩)
      (fun _ ↦ rfl) (fun u k h ↦ ⟨h.1.alive_le, h.1.alive_le⟩) ?_ ?_
    · rw [SecretSigners.serve, h.1.find]
      rfl
    · rintro u k signed h ⟨⟩
      exact ⟨h.1, tx, h.2, hK.signedOnce factory tx⟩
    · rintro u k e h ⟨⟩
  sendTransaction box tx := by
    refine triple_node (fun h ↦ h) (fun _ _ h ↦ h.1.alive_le) ?_ (fun _ _ _ _ h _ ↦ h.1)
      fun _ _ _ _ h _ ↦ h.1
    rintro u k r tx' h ⟨⟩
    exact h.2
  now box tx := triple_holding (fun h ↦ h) (fun _ ↦ rfl) (fun _ _ ↦ id) fun _ _ _ _ h _ ↦ h
  sleep box tx duration :=
    triple_holding (fun h ↦ h) (fun _ ↦ rfl) (fun _ _ ↦ id) fun _ _ _ _ h _ ↦ h
  failed_of_sent _ _ _ := id
  getTransaction box tx := by
    refine triple_holding (fun h ↦ h) (fun _ ↦ rfl) (fun _ _ ↦ id) fun u k r response h _ ↦ ?_
    cases response.status <;> exact h

/-! ## Errors of a signer -/

/-- An error of a signer comes from a call to one. -/
theorem exists_signerCall_of_explained {cfg : PollConfig} {op : WriteOp} {u : List Exchange}
    {msg : String} (h : Explained sdk cfg op u (.signer msg)) :
    ∃ x ∈ u, IsSignerCall x.1 ∧ fault sdk x ≠ none := by
  generalize he : SorobanUtilsError.signer msg = e at h
  cases h with
  | @fault u x e hfault =>
    subst he
    refine ⟨x, by simp, ?_, by simp [hfault]⟩
    obtain hremote | rfl | ⟨_, _, _, rfl⟩ := isRemote_or_of_fault hfault
    · exact hremote.elim
    · trivial
    · trivial
  | undecoded hstatus hop =>
    subst he
    exact hop.isLocal.elim
  | unbuilt hnone hop =>
    subst he
    exact hop.isLocal.elim
  | _ => cases he

/-! ## Any run -/

/-- A run in which all is kept ends with at most one signer alive too. -/
theorem alive_le_of_path {h : History Call Reply (List Exchange × SecretSigners K)}
    {x y : List Exchange × SecretSigners K} (hpath : (secretWorld K).Path x h y)
    (hx : x.2.alive.length ≤ 1) (hkept : ∀ z ∈ h, Kept sdk factory z.1 z.2) :
    y.2.alive.length ≤ 1 := by
  induction hpath with
  | nil x => exact hx
  | @cons x x₁ x₂ y e h hdrift hstep _ ih =>
    obtain ⟨he, hkept⟩ := List.forall_mem_cons.mp hkept
    refine ih ?_ hkept
    obtain ⟨hserve, -⟩ | ⟨-, -, hk⟩ := hstep
    · exact he.alive_serve_le _ _ hserve
    · exact hk ▸ he.alive_le

/-- **The custody of a secret key.** -/
theorem secret_key_kept (K : Keyring) (sdk : Sdk) (hK : K.Lawful sdk) (client : Client)
    (op : WriteOp) (factory : SecretSignerFactory K) (n : ℕ)
    (h : History Call Reply (List Exchange × SecretSigners K))
    (x : List Exchange × SecretSigners K) (o : Outcome (Except SorobanUtilsError Unit))
    (hpath : (secretWorld K).Path ([], ⟨factory, n, []⟩) h x)
    (hrun : Runs (client.perform sdk op).run h.trace o) :
    (∀ y ∈ h, Kept sdk factory y.1 y.2) ∧ x.2.alive.length ≤ 1 ∧
      ∀ r, o = .returned r → NoSigner factory x.2 ∧ ∀ msg, r ≠ .error (.signer msg) := by
  obtain ⟨hkept, hok, herror⟩ :=
    (custody hK factory).perform client op _ h x o ⟨rfl, rfl⟩ hpath hrun
  refine ⟨hkept, alive_le_of_path hpath (Nat.zero_le 1) hkept, fun r ho ↦ ?_⟩
  subst ho
  cases r with
  | ok a => exact ⟨hok a rfl, fun msg hmsg ↦ by cases hmsg⟩
  | error e =>
    refine ⟨herror e rfl, ?_⟩
    rintro msg ⟨⟩
    obtain ⟨-, -, hblamed⟩ := (explains_perform client op).of_record (by simp [NoFault]) hrun
    obtain ⟨u, ht, hexplained, -⟩ := hblamed _ rfl
    obtain ⟨y, hy, hcall, hfault⟩ := exists_signerCall_of_explained hexplained
    have hmem : y ∈ h.trace := by
      obtain ht | ⟨box, ht⟩ := ht
      · exact ht ▸ hy
      · exact ht ▸ List.mem_append_left _ hy
    obtain ⟨⟨z, _⟩, hz, rfl⟩ := List.mem_map.mp hmem
    exact hfault ((hkept _ hz).served hcall).2

/-! ## An upload with a key -/

/-- A keyring in which every text but the empty one is a key of the account `G`. -/
def Keyring.sample : Keyring where
  Keypair := String
  fromSecret secret := if secret = "" then .error "InvalidSeed" else .ok secret
  publicKey _ := "G"
  clone keypair := keypair
  signDecorated keypair hash := ⟨hash.toArray ++ keypair.toUTF8.data⟩
  sign tx keypairs :=
    let hash := Sdk.sample.hash tx.contents
    { tx with
      signatures := tx.signatures ++ keypairs.map fun keypair ↦
        ⟨hash.toArray ++ keypair.toUTF8.data⟩ }

theorem Keyring.sample_lawful : Keyring.sample.Lawful .sample where
  signDecorated_clone _ _ := rfl
  contents_sign _ _ := rfl
  signatures_sign _ _ := rfl

def SecretSignerFactory.sample : SecretSignerFactory .sample where
  secret := "S"
  publicKey := "G"
  derived := rfl

/-- The upload of no code, with the signature of the key. -/
def signedUpload : Transaction :=
  SecretSignerFactory.sample.signed sampleUpload

/-- The exchanges of the upload with the node from its send on. -/
def signedUploadSent : List Exchange :=
  [⟨.sendTransaction signedUpload, .ok ⟨.pending, signedUpload.hexHash .sample⟩⟩, ⟨.now, 0⟩,
    ⟨.getTransaction (signedUpload.hexHash .sample), .ok ⟨.success, some (some zeroHashVal)⟩⟩]

/-- The exchanges of the upload with its signer as well. -/
def secretUpload : List Exchange :=
  ⟨.buildSigner, .ok .sample⟩ :: ((unsignedUpload ++
    ⟨.sign .sample sampleUpload NetworkConfig.testnet.networkPassphrase, .ok signedUpload⟩ ::
      signedUploadSent) ++ [⟨.dropSigner .sample, ()⟩])

theorem runs_secretUpload : Runs (Client.sample.perform .sample (.uploadWasm ⟨#[]⟩)).run
    secretUpload (.returned (.ok ())) := by
  refine runs_except_map.mpr ⟨.returned (.ok zeroHash), runs_withSigner.mpr ?_, rfl⟩
  refine .dropped .sample (runs_uploadWasm.mpr ?_)
  have hpoll : Runs (pollTransactionStatus .sample (signedUpload.hexHash .sample) .default).run
      [⟨.now, 0⟩, ⟨.getTransaction (signedUpload.hexHash .sample),
        .ok ⟨.success, some (some zeroHashVal)⟩⟩]
      (.returned (.ok ⟨.success, some (some zeroHashVal)⟩)) :=
    runs_poll_success (by decide) rfl
  exact .built (.uploadContractWasm ⟨#[]⟩) rfl (.submitted (.error (.other ""))
    (.leg ⟨"G", 7⟩ sampleUpload (.polling signedUpload _ hpoll)))

/-- The node sees all of it but the calls to the signer. -/
theorem links_secretUpload : Links SecretSigners.serve
    ⟨SecretSignerFactory.sample, 0, []⟩ secretUpload (unsignedUpload ++ signedUploadSent)
    ⟨SecretSignerFactory.sample, 1, []⟩ := by
  refine .served rfl (.passed rfl (.passed rfl (.passed rfl (.served rfl (.passed rfl
    (.passed rfl (.passed rfl (.served rfl (.nil _)))))))))

theorem secret_key_kept_upload : ∃ h x,
    (secretWorld .sample).Path ([], ⟨SecretSignerFactory.sample, 0, []⟩) h x ∧
      h.trace = secretUpload ∧ (∀ y ∈ h, Kept .sample .sample y.1 y.2) ∧
        NoSigner .sample x.2 := by
  obtain ⟨l, hl, hu, -⟩ := World.exists_record_path (unsignedUpload ++ signedUploadSent) []
  obtain ⟨h, hpath, ht, -⟩ := hl.attach (fun _ ↦ rfl) (hu ▸ links_secretUpload)
  obtain ⟨hkept, -, hend⟩ := secret_key_kept .sample .sample Keyring.sample_lawful .sample
    (.uploadWasm ⟨#[]⟩) .sample 0 h _ _ hpath (ht ▸ runs_secretUpload)
  exact ⟨h, _, hpath, ht, hkept, (hend _ rfl).1⟩

end StellarRustClient
