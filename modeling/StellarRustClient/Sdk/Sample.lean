import StellarRustClient.Sdk.Server

/-!
# An SDK to run on

The results of this development hold for every SDK. A run on given inputs needs one with definite
values, and `Sdk.sample` is the smallest that keeps what the SDK documents: operations carry the
arguments they were built from, and transactions with different sequence numbers below 256 have
different hashes.
-/

namespace StellarRustClient

/-- The account and contract that the sample SDK knows. -/
def zeroHash : Hash := Vector.replicate 32 0

/-- An SDK with definite values. -/
def Sdk.sample : Sdk where
  hash contents := Vector.replicate 32 (UInt8.ofNat contents.sequence.toNat)
  uploadWasm code := .ok (.uploadContractWasm code)
  createContract _ wasmHash salt args :=
    .ok (.createContract (.account zeroHash) salt wasmHash args)
  invokeContract _ function args :=
    ((BytesM.tryFrom 32 function.toUTF8).mapError XdrError.debug).map fun symbol ↦
      .invokeContract (.contract zeroHash) symbol args
  extendFootprintTtl n := .ok (.extendFootprintTtl n)
  restoreFootprint := .ok .restoreFootprint
  Address := Unit
  addressNew _ := .ok ()
  toScAddress _ := .ok (.contract zeroHash)
  toScVal _ := .ok (.address (.contract zeroHash))
  displayScAddress _ := "C"
  displayRpcError _ := "RPC error"
  debugScVal _ := "ScVal"
  debugString s := s
  debugFromUtf8Error _ := "FromUtf8Error"
  instantMax := UInt64.size * 1000000000

theorem Sdk.sample_lawful : Sdk.sample.Lawful where
  extendFootprintTtl h := (Except.ok.inj h).symm
  extendFootprintTtl_isOk n _ := ⟨.extendFootprintTtl n, rfl⟩
  restoreFootprint := rfl
  createContract h := ⟨.account zeroHash, (Except.ok.inj h).symm⟩
  uploadWasm h := (Except.ok.inj h).symm

/-- The signer of the runs below. -/
def Signer.sample : Signer where
  id := 0
  publicKey := "G"

/-- The transaction that an account with sequence number 7 restores with, at the floor fee. -/
def Transaction.sample : Transaction :=
  (TransactionBuilder.build ⟨"G", 7⟩ NetworkConfig.testnet.networkPassphrase 100 .restoreFootprint
    none).1

end StellarRustClient
