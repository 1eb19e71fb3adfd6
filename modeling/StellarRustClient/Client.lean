import StellarRustClient.Deploy
import StellarRustClient.Ttl

/-!
# The client

`Client`, the entry point of the crate. It holds a signer factory, not a signer: every write method
builds a signer, runs the free function it wraps, and drops the signer at the end of its own scope,
whatever the result.

A client is built from its configuration, of which only the address of the node and the signer
can be refused. The `PollConfig` is taken as it is.
-/

namespace StellarRustClient

open Interaction

/-- `Client`. The connection and the signer factory are part of the environment. -/
structure Client where
  network : NetworkConfig
  publicKey : String
  pollCfg : PollConfig

/-- `SignerConfig`: a secret key, or a factory that is part of the environment. -/
inductive SignerConfig
  | secret (secret : String)
  | custom

/-- `SignerFactory`, as far as its public key goes. -/
inductive SignerFactory
  | secret (publicKey : String)
  | custom

/-- `SignerConfig::into_factory`, where `publicKeyOf` is the public key of
`Keypair::from_secret`. -/
def SignerConfig.intoFactory (publicKeyOf : String → Except String String) :
    SignerConfig → Except SorobanUtilsError SignerFactory
  | .secret key => ((publicKeyOf key).mapError .signer).map .secret
  | .custom => .ok .custom

/-- `SignerFactory::public_key`. -/
def SignerFactory.getPublicKey : SignerFactory → Async String
  | .secret publicKey => pure publicKey
  | .custom => Prog.ask .factoryPublicKey fun r ↦ r

/-- A scope that owns a signer: `build_signer().await?`, the body, and the drop at its end. -/
def withSigner {α : Type} (body : Signer → Async α) : Async α := do
  let signer ← Prog.ask .buildSigner fun r ↦ r
  Prog.ensuring (body signer) (.dropSigner signer)

namespace Client

variable (sdk : Sdk)

/-- `Client::with_poll_config`, where `serverNew` is `Server::new` with the default options. -/
def withPollConfig (serverNew : String → Except RpcError Unit)
    (publicKeyOf : String → Except String String) (network : NetworkConfig)
    (signerConfig : SignerConfig) (pollCfg : PollConfig) : Async Client := do
  Prog.lift ((serverNew network.rpcUrl).mapError (rpcError sdk))
  let signerFactory ← Prog.lift (signerConfig.intoFactory publicKeyOf)
  let publicKey ← signerFactory.getPublicKey
  pure { network, publicKey, pollCfg }

/-- `Client::new`. -/
def new (serverNew : String → Except RpcError Unit) (publicKeyOf : String → Except String String)
    (network : NetworkConfig) (signerConfig : SignerConfig) : Async Client :=
  withPollConfig sdk serverNew publicKeyOf network signerConfig .default

variable (client : Client)

/-- `Client::upload_wasm`. -/
def uploadWasm (wasm : ByteArray) : Async Hash :=
  withSigner fun signer ↦
    StellarRustClient.uploadWasm sdk client.network.networkPassphrase signer wasm client.pollCfg

/-- `Client::create_contract_instance`. -/
def createContractInstance (wasmHash : Hash) (constructorArgs : List ScVal) : Async String :=
  withSigner fun signer ↦
    StellarRustClient.createContractInstance sdk client.network.networkPassphrase signer wasmHash
      constructorArgs client.pollCfg

/-- `Client::deploy_contract`, through the two methods above: one signer for each transaction. -/
def deployContract (wasm : ByteArray) (constructorArgs : List ScVal) : Async (String × Hash) := do
  let wasmHash ← client.uploadWasm sdk wasm
  let contractAddress ← client.createContractInstance sdk wasmHash constructorArgs
  pure (contractAddress, wasmHash)

/-- `Client::invoke_contract`. -/
def invokeContract (contractAddress functionName : String) (args : List ScVal) :
    Async InvokeOutcome :=
  withSigner fun signer ↦
    StellarRustClient.invokeContract sdk client.network.networkPassphrase signer contractAddress
      functionName args client.pollCfg

/-- `Client::extend_ttl`. -/
def extendTtl (contractAddress mappingName : String) (details : List ScVal)
    (durability : ContractDataDurability) (extendTo : UInt32) : Async InvokeOutcome :=
  withSigner fun signer ↦ do
    let storageKey ← Prog.lift (mappingEntryKey mappingName details)
    StellarRustClient.extendTtl sdk client.network.networkPassphrase signer contractAddress
      storageKey durability extendTo client.pollCfg

/-- `Client::extend_instance_ttl`. -/
def extendInstanceTtl (contractAddress : String) (extendTo : UInt32) : Async InvokeOutcome :=
  withSigner fun signer ↦
    StellarRustClient.extendInstanceTtl sdk client.network.networkPassphrase signer
      contractAddress extendTo client.pollCfg

/-- `Client::extend_wasm_ttl`. -/
def extendWasmTtl (wasmHash : Hash) (extendTo : UInt32) : Async InvokeOutcome :=
  withSigner fun signer ↦
    StellarRustClient.extendWasmTtl sdk client.network.networkPassphrase signer wasmHash extendTo
      client.pollCfg

end Client

end StellarRustClient
