import StellarRustClient.Client
import StellarRustClient.Interaction.Link
import StellarRustClient.Signer.Local

/-!
# The signers of a secret key

`SecretSignerFactory` keeps the secret and the public key derived from it, and builds a
`LocalSigner` each time it is asked. With it the signers of a client are no longer up to the
environment: `SecretSigners` is the factory together with the signers that are alive, and
`SecretSigners.serve` answers the calls of a client that go to one of them.
-/

namespace StellarRustClient

open Interaction

variable {K : Keyring}

/-- The public key of `Keypair::from_secret`. -/
def Keyring.publicKeyOf (K : Keyring) (secret : String) : Except String String :=
  (K.fromSecret secret).map K.publicKey

/-- `SecretSignerFactory`. -/
structure SecretSignerFactory (K : Keyring) where
  secret : String
  publicKey : String
  /-- The public key was derived from the secret. -/
  derived : K.publicKeyOf secret = .ok publicKey

namespace SecretSignerFactory

/-- `SecretSignerFactory::new`. -/
def new (secret : String) : Except SorobanUtilsError (SecretSignerFactory K) :=
  match h : K.fromSecret secret with
  | .error e => .error (.signer e)
  | .ok keypair => .ok
    { secret := secret
      publicKey := K.publicKey keypair
      derived := by rw [Keyring.publicKeyOf, h]; rfl }

variable (factory : SecretSignerFactory K)

/-- `SecretSignerFactory::public_key`. -/
def getPublicKey : Except SorobanUtilsError String :=
  .ok factory.publicKey

/-- `SecretSignerFactory::build_signer`. -/
def buildSigner : Except SorobanUtilsError (LocalSigner K) := do
  let keypair ← (K.fromSecret factory.secret).mapError .signer
  pure (.fromKeypair keypair)

/-- The signer that a factory builds, each time: `new` has seen that there is one. -/
def signer : LocalSigner K :=
  match h : K.fromSecret factory.secret with
  | .ok keypair => .fromKeypair keypair
  | .error e => False.elim <| by
    have hderived := factory.derived
    rw [Keyring.publicKeyOf, h] at hderived
    cases hderived

theorem fromSecret_eq : LocalSigner.fromSecret factory.secret = .ok factory.signer := by
  rw [LocalSigner.fromSecret, signer]
  split
  · rename_i h
    rw [h]
    rfl
  · rename_i h
    have hderived := factory.derived
    rw [Keyring.publicKeyOf, h] at hderived
    cases hderived

theorem buildSigner_eq : factory.buildSigner = .ok factory.signer :=
  factory.fromSecret_eq

theorem signer_publicKey : factory.signer.publicKey = factory.publicKey := by
  have hderived := factory.derived
  have hsecret := factory.fromSecret_eq
  rw [LocalSigner.fromSecret] at hsecret
  rw [Keyring.publicKeyOf] at hderived
  cases h : K.fromSecret factory.secret with
  | error e =>
    rw [h] at hderived
    cases hderived
  | ok keypair =>
    rw [h] at hderived hsecret
    obtain hsigner : LocalSigner.fromKeypair keypair = factory.signer := Except.ok.inj hsecret
    rw [← hsigner]
    exact Except.ok.inj hderived

end SecretSignerFactory

/-- The factory that `new` makes of a secret keeps the public key of that secret. -/
theorem SecretSignerFactory.publicKeyOf_of_new {secret : String} {factory : SecretSignerFactory K}
    (h : new secret = .ok factory) : K.publicKeyOf secret = .ok factory.publicKey := by
  rw [new] at h
  split at h
  · cases h
  · rename_i keypair hkeypair
    have hkey : factory.publicKey = K.publicKey keypair := by rw [← Except.ok.inj h]
    rw [hkey, Keyring.publicKeyOf, hkeypair]
    rfl

/-- What the client keeps of a factory that is made from a secret is its public key. -/
theorem intoFactory_secret (secret : String) :
    SignerConfig.intoFactory K.publicKeyOf (.secret secret) =
      (SecretSignerFactory.new (K := K) secret).map fun factory ↦ .secret factory.publicKey := by
  rw [SignerConfig.intoFactory, SecretSignerFactory.new]
  split
  · rename_i e h
    have hkey : K.publicKeyOf secret = .error e := by
      rw [Keyring.publicKeyOf, h]
      rfl
    rw [hkey]
    rfl
  · rename_i keypair h
    have hkey : K.publicKeyOf secret = .ok (K.publicKey keypair) := by
      rw [Keyring.publicKeyOf, h]
      rfl
    change _ = Except.ok (SignerFactory.secret (K.publicKey keypair))
    rw [hkey]
    rfl

/-! ## Signers as objects -/

/-- A factory and the signers it has built: how many, and those that have not been dropped. -/
structure SecretSigners (K : Keyring) where
  factory : SecretSignerFactory K
  built : ℕ
  alive : List (Signer × LocalSigner K)

namespace SecretSigners

/-- The signer behind a `Box<dyn Signer>`. -/
def find (k : SecretSigners K) (box : Signer) : Option (LocalSigner K) :=
  (k.alive.find? fun y ↦ y.1 = box).map Prod.snd

/-- A signer in a new box. -/
def insert (k : SecretSigners K) (signer : LocalSigner K) : Signer × SecretSigners K :=
  let box : Signer := ⟨k.built, signer.publicKey⟩
  (box, { k with built := k.built + 1, alive := (box, signer) :: k.alive })

/-- The end of a box, and of the signer in it. -/
def drop (k : SecretSigners K) (box : Signer) : SecretSigners K :=
  { k with alive := k.alive.eraseP fun y ↦ y.1 = box }

/-- The calls that go to the factory or to one of its signers. -/
def serve : Component Call Reply (SecretSigners K)
  | k, .factoryPublicKey => some (k.factory.getPublicKey, k)
  | k, .buildSigner =>
    match k.factory.buildSigner with
    | .error e => some (.error e, k)
    | .ok signer => some (.ok (k.insert signer).1, (k.insert signer).2)
  | k, .sign box tx networkPassphrase =>
    (k.find box).map fun signer ↦ (signer.sign tx networkPassphrase, k)
  | k, .dropSigner box => (k.find box).map fun _ ↦ ((), k.drop box)
  | _, _ => none

end SecretSigners

end StellarRustClient
