import StellarRustClient.Client.ReadOp
import StellarRustClient.Client.SequenceHonesty
import StellarRustClient.Signer.Custody

/-!
# A client of a secret, as the node sees it

A client that is configured with a secret needs nothing but a node: its signers are part of it. A
`SecretSession` is a sequence of calls of such a client, linked with the signers, and what is left
of it are the exchanges with the node and the clock. Before one call is followed by the next, what
it sent has been polled as final: after a timeout the network may still apply the transaction, and
the next number is no longer known.

By `Keyring.Lawful` the signers keep to what the ledger asks of the signers of an account, so every
transaction of a session carries the next number and one signature more, the key's.
-/

namespace StellarRustClient

open Interaction

variable {K : Keyring} {sdk : Sdk} {client : Client} {factory : SecretSignerFactory K}
  {k k' : SecretSigners K} {op : WriteOp ⊕ ReadOp} {ops : List (WriteOp ⊕ ReadOp)}
  {u t : List Exchange} {s s' : Ledger} {h : History Call Reply Ledger}

/-- What is sent in the ledger `s`, after the exchanges `u` with the node. -/
structure SignedNext (sdk : Sdk) (factory : SecretSignerFactory K) (u : List Exchange) (s : Ledger)
    (tx : Transaction) : Prop where
  /-- It carries the number after the account's. -/
  sequence_eq : tx.contents.sequence = s.sequence + 1
  /-- Its number has not been used. -/
  unused : ∀ c ∈ s.applied, c.sequence < tx.contents.sequence
  /-- It is something there was to sign, with one signature of the key more. -/
  signed : ∃ tx', Signable factory.publicKey u tx' ∧ SignedOnce sdk factory tx' tx

/-- An exchange of a session that the node sees in the ledger `s`, after the exchanges `u`. -/
structure SeenByNode (sdk : Sdk) (factory : SecretSignerFactory K) (u : List Exchange) (s : Ledger)
    (x : Exchange) : Prop where
  /-- The signers are not part of what is seen. -/
  not_signerCall : ¬ IsSignerCall x.1
  sent : ∀ tx, sentTransaction x = some tx → SignedNext sdk factory u s tx

/-- Each exchange of a history, with the ledger it took place in, is one that the node sees. -/
def AllSeenByNode (sdk : Sdk) (factory : SecretSignerFactory K)
    (h : History Call Reply Ledger) : Prop :=
  ∀ (h₁ h₂ : History Call Reply Ledger) (s : Ledger) (x : Exchange),
    h = h₁ ++ (s, x) :: h₂ → SeenByNode sdk factory h₁.trace s x

theorem SeenByNode.prepend {v : List Exchange} {x : Exchange} (h : SeenByNode sdk factory u s x) :
    SeenByNode sdk factory (v ++ u) s x where
  not_signerCall := h.not_signerCall
  sent tx ht := by
    obtain ⟨hnext, hunused, tx', hsignable, htx⟩ := h.sent tx ht
    refine ⟨hnext, hunused, tx', ?_, htx⟩
    obtain ⟨q, hq⟩ | ⟨account, networkPassphrase, fee, op, data, hmem, hbuild⟩ := hsignable
    · exact .inl ⟨q, List.mem_append_right _ hq⟩
    · exact .inr ⟨account, networkPassphrase, fee, op, data, List.mem_append_right _ hmem, hbuild⟩

/-! ## One call -/

theorem not_isSignerCall_of_isReadCall {c : Call} (hc : IsReadCall c) : ¬ IsSignerCall c := by
  cases c <;> first | exact id | exact hc.elim

/-- The key, in any method. -/
theorem call_kept (hK : K.Lawful sdk) (client : Client) (factory : SecretSignerFactory K)
    (op : WriteOp ⊕ ReadOp) :
    Triple (secretWorld K) (Kept sdk factory) (fun x ↦ NoSigner factory x.2)
      (client.call sdk op) (fun _ x ↦ NoSigner factory x.2)
      fun _ x ↦ NoSigner factory x.2 := by
  cases op with
  | inl op => exact (custody hK factory).perform client op
  | inr op =>
    refine ReadOp.triple (fun c f hc ↦ ?_) client op
    refine triple_node (not_isSignerCall_of_isReadCall hc) (fun u k h ↦ h.alive_le)
      (fun u k r tx _ ht ↦ ?_) (fun _ _ _ _ h _ ↦ h) fun _ _ _ _ h _ ↦ h
    cases (sentTransaction_of_isReadCall hc).symm.trans ht

/-- The numbers, in any method. -/
theorem call_sendsNext (sdk : Sdk) (client : Client) (address : String) (op : WriteOp ⊕ ReadOp) :
    Triple (ledgerWorld sdk address) SendsNext Settled (client.call sdk op)
      (fun _ _ ↦ True) fun _ _ ↦ True := by
  cases op with
  | inl op =>
    exact ((honesty sdk address).perform client op).conseq (fun _ ↦ id) (fun _ _ _ ↦ trivial)
      fun _ _ _ ↦ trivial
  | inr op =>
    refine Triple.conseq (ReadOp.triple (fun c f hc ↦ ?_) client op) (fun _ ↦ id)
      (fun _ _ _ ↦ trivial) fun _ _ _ ↦ trivial
    refine triple_of_stable ?_ (stable_of_settled fun _ ↦ id) (fun _ _ _ h _ _ ↦ h)
      fun _ _ _ h _ ↦ h
    rintro tx rfl
    exact hc

/-- What the signers of a secret answer is what signers of the account answer. -/
theorem step_of_serve (hK : K.Lawful sdk) {c : Call} {r : Reply c} (hk : k.factory = factory)
    (hserve : k.serve c = some (r, k')) :
    k'.factory = factory ∧ ∀ s, (ledgerWorld sdk factory.publicKey).step s ⟨c, r⟩ s := by
  cases c with
  | factoryPublicKey =>
    obtain ⟨rfl, rfl⟩ := Prod.mk.inj (Option.some.inj hserve)
    exact ⟨hk, fun s ↦ ⟨trivial, rfl⟩⟩
  | buildSigner =>
    rw [SecretSigners.serve, hk, factory.buildSigner_eq] at hserve
    obtain ⟨rfl, rfl⟩ := Prod.mk.inj (Option.some.inj hserve)
    exact ⟨hk, fun s ↦ ⟨factory.signer_publicKey, rfl⟩⟩
  | sign box tx networkPassphrase =>
    obtain ⟨signer, -, hsigned⟩ := Option.map_eq_some_iff.mp hserve
    obtain ⟨rfl, rfl⟩ := Prod.mk.inj hsigned
    exact ⟨hk, fun s ↦ ⟨hK.contents_sign tx _, rfl⟩⟩
  | dropSigner box =>
    obtain ⟨signer, -, hdropped⟩ := Option.map_eq_some_iff.mp hserve
    obtain ⟨rfl, rfl⟩ := Prod.mk.inj hdropped
    exact ⟨hk, fun s ↦ ⟨trivial, rfl⟩⟩
  | _ => cases hserve

/-- One call of a client, linked with its signers. -/
theorem seenByNode_of_runs (hK : K.Lawful sdk)
    {o : Outcome (Except SorobanUtilsError Unit × SecretSigners K)} (hk : NoSigner factory k)
    (hs : Settled s) (hpath : (ledgerWorld sdk factory.publicKey).Path s h s')
    (hrun : Runs ((client.call sdk op).run.link SecretSigners.serve k) h.trace o) :
    AllSeenByNode sdk factory h ∧ ∀ x k', o = .returned (x, k') → NoSigner factory k' := by
  obtain ⟨l, hl, ht, hmem⟩ := World.exists_record_path h.trace []
  -- The call is looked at twice: in a world that records it for the key, and on the ledger.
  obtain ⟨hkept, hok, herror⟩ :=
    (call_kept hK client factory op).link (fun _ ↦ rfl) hk hl (ht.symm ▸ hrun)
  have hattached := (call_sendsNext sdk client factory.publicKey op).attach
    fun k c r k' (hk : k.factory = factory) hserve ↦ step_of_serve hK hk hserve
  obtain ⟨hnext, -, -⟩ := hattached.link (fun _ ↦ .refl) ⟨hs, hk.1⟩ hpath hrun
  refine ⟨?_, fun x k' ho ↦ ?_⟩
  · rintro h₁ h₂ s₁ x rfl
    obtain ⟨k₁, hpassed, hx⟩ := hkept _ (hmem h₁.trace x h₂.trace (by simp [History.trace]))
    refine ⟨fun hcall ↦ (hx.served hcall).1 hpassed, fun tx hsent ↦ ?_⟩
    have hnext₁ := (hnext (s₁, x) List.mem_append_cons_self).choose_spec.2
    have hwf := ((hs.wellFormed.path hpath).2 (s₁, x) List.mem_append_cons_self).sequence_le
    have hsequence : tx.contents.sequence = s₁.sequence + 1 := by
      obtain ⟨c, r⟩ := x
      cases c with
      | sendTransaction tx' =>
        cases hsent
        exact hnext₁
      | _ => cases hsent
    refine ⟨hsequence, fun c hc ↦ ?_, hx.signed tx hsent⟩
    rw [hsequence]
    exact Int.lt_add_one_of_le (hwf c hc)
  · cases x with
    | error e => exact herror e k' ho
    | ok a => exact hok a k' ho

/-! ## A sequence of calls -/

/-- Calls of a client one after the other, with its signers linked to it. Each but the last has
returned, whatever its result, and has seen what it sent become final. -/
inductive SecretSession (sdk : Sdk) (client : Client) :
    SecretSigners K → List (WriteOp ⊕ ReadOp) → List Exchange → Prop
  | nil (k : SecretSigners K) : SecretSession sdk client k [] []
  | last (k : SecretSigners K) (op : WriteOp ⊕ ReadOp) {t : List Exchange}
      {o : Outcome (Except SorobanUtilsError Unit × SecretSigners K)}
      (hrun : Runs ((client.call sdk op).run.link SecretSigners.serve k) t o) :
      SecretSession sdk client k [op] t
  | next (k : SecretSigners K) (op : WriteOp ⊕ ReadOp) {k' : SecretSigners K}
      {ops : List (WriteOp ⊕ ReadOp)} {t₁ t₂ : List Exchange} {x : Except SorobanUtilsError Unit}
      (hrun : Runs ((client.call sdk op).run.link SecretSigners.serve k) t₁
        (.returned (x, k')))
      (hfinal : AllFinal sdk t₁) (hrest : SecretSession sdk client k' ops t₂) :
      SecretSession sdk client k (op :: ops) (t₁ ++ t₂)

theorem SecretSession.seenByNode (hsession : SecretSession sdk client k ops t)
    (hK : K.Lawful sdk) (hk : NoSigner factory k) (hs : Settled s)
    (hpath : (ledgerWorld sdk factory.publicKey).Path s h s') (ht : h.trace = t) :
    AllSeenByNode sdk factory h := by
  induction hsession generalizing s h with
  | nil k =>
    obtain rfl := List.map_eq_nil_iff.mp ht
    rintro h₁ h₂ s₁ x hnil
    simp at hnil
  | last k op hrun => exact (seenByNode_of_runs hK hk hs hpath (ht ▸ hrun)).1
  | next k op hrun hfinal _ ih =>
    obtain ⟨l₁, l₂, rfl, rfl, rfl⟩ := List.map_eq_append_iff.mp ht
    obtain ⟨s₁, hpath₁, hpath₂⟩ := World.path_append.mp hpath
    obtain ⟨hseen, hend⟩ := seenByNode_of_runs hK hk hs hpath₁ hrun
    intro h₁ h₂ s₂ x hsplit
    obtain ⟨a, rfl, -⟩ | ⟨a, rfl, ha⟩ := append_cons_eq_append_iff.mp hsplit
    · exact hseen h₁ a s₂ x rfl
    · rw [History.trace_append]
      exact (ih (hend _ _ rfl) (hs.path hpath₁ hfinal) hpath₂ rfl a h₂ s₂ x ha).prepend

/-- The account of a client is that of its key. -/
theorem publicKey_of_withPollConfig {serverNew : String → Except RpcError Unit}
    {network : NetworkConfig} {secret : String} {pollCfg : PollConfig}
    (hclient : Runs (Client.withPollConfig sdk serverNew K.publicKeyOf network (.secret secret)
      pollCfg).run t (.returned (.ok client)))
    (hfactory : SecretSignerFactory.new secret = .ok factory) :
    client.publicKey = factory.publicKey := by
  rw [Client.withPollConfig] at hclient
  obtain ⟨e, -, -, ho⟩ | ⟨-, -, hrun⟩ := runs_lift_mapError_bind.mp hclient
  · cases ho
  rw [intoFactory_secret, hfactory] at hrun
  obtain ⟨-, ho⟩ := runs_pure.mp hrun
  rw [Except.ok.inj (Outcome.returned.inj ho)]

/-- **A client of a secret.** Its public key is that of the secret. On an account of which nothing
is on its way, and for which only this client submits, every transaction of a session is signed with
the key and carries the number after the account's; and the node has nothing to do with the
signing. -/
theorem secret_sessions_honest (K : Keyring) (sdk : Sdk) (hK : K.Lawful sdk)
    (serverNew : String → Except RpcError Unit) (network : NetworkConfig) (secret : String)
    (pollCfg : PollConfig) (client : Client) (factory : SecretSignerFactory K) (t : List Exchange)
    (hclient : Runs (Client.withPollConfig sdk serverNew K.publicKeyOf network (.secret secret)
      pollCfg).run t (.returned (.ok client)))
    (hfactory : SecretSignerFactory.new secret = .ok factory) (ops : List (WriteOp ⊕ ReadOp))
    (n : ℤ) (h : History Call Reply Ledger) (s : Ledger)
    (hpath : (ledgerWorld sdk client.publicKey).Path (.start n) h s)
    (hsession : SecretSession sdk client ⟨factory, 0, []⟩ ops h.trace) :
    K.publicKeyOf secret = .ok client.publicKey ∧ client.publicKey = factory.publicKey ∧
      AllSeenByNode sdk factory h := by
  have hstart : Settled (.start n) := ⟨Ledger.wellFormed_start n, by simp [Ledger.start]⟩
  have hkey := publicKey_of_withPollConfig hclient hfactory
  rw [hkey] at hpath
  refine ⟨?_, hkey, hsession.seenByNode hK ⟨rfl, rfl⟩ hstart hpath rfl⟩
  rw [hkey]
  exact SecretSignerFactory.publicKeyOf_of_new hfactory

/-! ## An upload and a reading -/

/-- No code is uploaded, and then the latest ledger is read. -/
def uploadAndRead : History Call Reply Ledger :=
  unsignedUpload.map (Ledger.start 7, ·) ++
  [(.start 7, ⟨.sendTransaction signedUpload, .ok ⟨.pending, signedUpload.hexHash .sample⟩⟩),
    (uploadSubmitted, ⟨.now, 0⟩),
    (uploadApplied, ⟨.getTransaction (signedUpload.hexHash .sample),
      .ok ⟨.success, some (some zeroHashVal)⟩⟩),
    (uploadApplied, ⟨.getLatestLedger, .ok 42⟩)]

theorem path_uploadAndRead :
    (ledgerWorld .sample "G").Path (.start 7) uploadAndRead uploadApplied := by
  have hbefore : ∀ x ∈ unsignedUpload,
      (Ledger.start 7).Answers .sample "G" x ∧ (Ledger.start 7).after x = .start 7 := by
    simp [unsignedUpload, Ledger.Answers, Ledger.after, Ledger.start]
  have hdrift : (ledgerWorld .sample "G").drift uploadSubmitted uploadApplied :=
    .single ⟨_, Set.mem_insert _ _, rfl, by decide, rfl⟩
  refine (Ledger.path_of_stationary hbefore).append ?_
  refine .cons .refl ⟨trivial, rfl⟩ (.cons .refl ⟨trivial, rfl⟩ (.cons hdrift ⟨?_, rfl⟩
    (.cons .refl ⟨trivial, rfl⟩ (.nil _))))
  rintro - c (rfl | hc) -
  · exact List.mem_singleton_self _
  · exact hc.elim

theorem allFinal_signedUpload : AllFinal .sample (unsignedUpload ++ signedUploadSent) :=
  .of_single_send rfl rfl ⟨⟨.success, some (some zeroHashVal)⟩, .tail _ (.head _), by simp⟩

theorem session_uploadAndRead : SecretSession .sample .sample
    ⟨SecretSignerFactory.sample, 0, []⟩ [.inl (.uploadWasm ⟨#[]⟩), .inr .latestLedger]
    uploadAndRead.trace := by
  have hread : Runs (Client.sample.call .sample (.inr .latestLedger)).run
      [⟨.getLatestLedger, .ok 42⟩] (.returned (.ok ())) :=
    .call _ (.ret _)
  exact .next _ _ (runs_secretUpload.link (by simp) links_secretUpload) allFinal_signedUpload
    (.last _ _ (hread.link (by simp) (.passed rfl (.nil _))))

theorem secret_session_honest_uploadAndRead :
    Keyring.sample.publicKeyOf "S" = .ok "G" ∧ Client.sample.publicKey = "G" ∧
      AllSeenByNode .sample .sample uploadAndRead :=
  secret_sessions_honest .sample .sample Keyring.sample_lawful (fun _ ↦ .ok ()) .testnet "S"
    .default .sample .sample [] (.ret _) rfl _ 7 uploadAndRead uploadApplied path_uploadAndRead
    session_uploadAndRead

end StellarRustClient
