import StellarRustClient.Sdk.Server

/-!
# Signing with a key in memory

`LocalSigner`, over the part of `soroban_client::keypair` that the crate uses. The public key is
computed once and kept beside the keypair, and the structure carries the fact that it belongs to it.

What the keypairs of the SDK do is a parameter, `Keyring`; `Keyring.Lawful` states what the SDK
documents of signing with them.
-/

namespace StellarRustClient

/-- `soroban_client::keypair::Keypair`, and `Transaction::sign`, which takes a slice of them. -/
structure Keyring where
  Keypair : Type
  /-- `Keypair::from_secret`, with an error carried by its text. -/
  fromSecret : String → Except String Keypair
  /-- `Keypair::public_key`. -/
  publicKey : Keypair → String
  /-- `Keypair::clone`. -/
  clone : Keypair → Keypair
  /-- `Keypair::sign_decorated`. -/
  signDecorated : Keypair → Hash → ByteArray
  /-- `Transaction::sign`: what the transaction is once it is signed with the keypairs. -/
  sign : Transaction → List Keypair → Transaction

/-- What the SDK documents of its keypairs: a copy signs as the original does, and signing a
transaction attaches one signature of its hash for each keypair behind those there are, and leaves
what it is a transaction of alone. -/
structure Keyring.Lawful (K : Keyring) (sdk : Sdk) : Prop where
  signDecorated_clone : ∀ keypair hash,
    K.signDecorated (K.clone keypair) hash = K.signDecorated keypair hash
  contents_sign : ∀ tx keypairs, (K.sign tx keypairs).contents = tx.contents
  signatures_sign : ∀ tx keypairs, (K.sign tx keypairs).signatures =
    tx.signatures ++ keypairs.map (K.signDecorated · (sdk.hash tx.contents))

variable {K : Keyring}

/-- `LocalSigner`. -/
structure LocalSigner (K : Keyring) where
  keypair : K.Keypair
  publicKey : String
  /-- The public key is that of the keypair. -/
  publicKey_eq : publicKey = K.publicKey keypair

namespace LocalSigner

/-- `LocalSigner::from_keypair`. -/
def fromKeypair (keypair : K.Keypair) : LocalSigner K where
  keypair := keypair
  publicKey := K.publicKey keypair
  publicKey_eq := rfl

/-- `LocalSigner::from_secret`. -/
def fromSecret (secret : String) : Except SorobanUtilsError (LocalSigner K) := do
  let keypair ← (K.fromSecret secret).mapError .signer
  pure (fromKeypair keypair)

/-- `LocalSigner::sign`: a copy of the keypair signs, and is gone when the call returns. The
passphrase is part of what the transaction is hashed with. -/
def sign (signer : LocalSigner K) (tx : Transaction) (_networkPassphrase : String) :
    Except SorobanUtilsError Transaction :=
  .ok (K.sign tx [K.clone signer.keypair])

end LocalSigner

end StellarRustClient
