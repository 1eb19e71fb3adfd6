import StellarRustClient.Fee
import StellarRustClient.Invoke
import StellarRustClient.Utils.Basic

/-!
# Extending the time to live of ledger entries

The three kinds of entry that expire on their own, their ledger keys, and
`extend_ledger_key_ttl`, the core that the three public functions share: prepare an extend, restore
the entry first when the node asks for it, and try the extend once more.
-/

namespace StellarRustClient

open Interaction

/-! ## Keys -/

/-- `instance_key`. -/
def instanceKey : ScVal := .ledgerKeyContractInstance

/-- `wasm_ledger_key`. -/
def wasmLedgerKey (wasmHash : Hash) : LedgerKey := .contractCode wasmHash

/-- `wasm_hash_to_hex`. -/
def wasmHashToHex (wasmHash : Hash) : String := hexEncode wasmHash.toList

/-- `wasm_hash_from_hex`, over `hex::decode`. -/
def wasmHashFromHex (hexDecode : String → Except String (List UInt8)) (hexStr : String) :
    Except SorobanUtilsError Hash := do
  let bytes ← (hexDecode hexStr).mapError fun e ↦ .xdr s!"invalid hex wasm hash: {e}"
  if h : bytes.length = 32 then
    pure ⟨bytes.toArray, h⟩
  else
    throw (.xdr s!"wasm hash must be 32 bytes, got {bytes.length} (input: {hexStr})")

/-- `mapping_entry_key`. -/
def mappingEntryKey (mappingName : String) (details : List ScVal) :
    Except SorobanUtilsError ScVal := do
  let name ← Utils.symbol mappingName
  Utils.vecVal (name :: details)

variable (sdk : Sdk)

/-- The contract address of a call, parsed and encoded. -/
def contractScAddress (contractAddress : String) : Except SorobanUtilsError ScAddress := do
  let address ← (sdk.addressNew contractAddress).mapError fun e ↦
    .invalidAddress s!"{contractAddress}: {e.display}"
  (sdk.toScAddress address).mapError fun e ↦ .xdr s!"failed to encode contract address: {e}"

/-! ## Building the transactions -/

/-- `extend_footprint_data`. -/
def extendFootprintData (ledgerKey : LedgerKey) :
    Except SorobanUtilsError SorobanTransactionData := do
  let readOnly ← (VecM.tryFrom u32Max [ledgerKey]).mapError fun e ↦ .xdr e.debug
  let readWrite ← (VecM.tryFrom u32Max []).mapError fun e ↦ .xdr e.debug
  pure
    { ext := .v0
      resources :=
        { footprint := { readOnly, readWrite }
          instructions := 0
          diskReadBytes := 0
          writeBytes := 0 }
      resourceFee := 0 }

/-- `build_transaction`. -/
def buildTransaction (sourceAccount : Account) (networkPassphrase : String) (op : Operation)
    (fee : UInt32) (sorobanData : SorobanTransactionData) : Transaction × Account :=
  TransactionBuilder.build sourceAccount networkPassphrase fee op (some sorobanData)

/-- `u32::try_from(x)` for an `i64`. -/
def u32TryFrom (x : Int64) : Option UInt32 :=
  if 0 ≤ x.toInt ∧ x.toInt ≤ u32Max then some (.ofNat x.toInt.toNat) else none

/-- `u32::saturating_add`. -/
def saturatingAdd (a b : UInt32) : UInt32 :=
  .ofNat (min (a.toNat + b.toNat) u32Max)

/-- The fee of the restore transaction, from the resource fee of the preamble. -/
def restoreFee (resourceFee : Int64) : UInt32 :=
  -- A negative fee counts as none, and one that is no `u32` as the largest.
  let resourceFeeU32 := (u32TryFrom (max resourceFee 0)).getD (.ofNat u32Max)
  saturatingAdd minBaseFee resourceFeeU32

/-! ## Submitting -/

/-- `submit`. -/
def submit (signer : Signer) (networkPassphrase : String) (prepared : Transaction)
    (pollCfg : PollConfig) : Async InvokeOutcome := do
  let signed ← signer.sign prepared networkPassphrase
  let hash := signed.hexHash sdk
  let _ ← sendTransaction sdk signed
  let _ ← pollTransactionStatus sdk hash pollCfg
  pure (.executed hash)

/-- `restore_entry`. -/
def restoreEntry (networkPassphrase : String) (signer : Signer) (resourceFee : Int64)
    (restoreData : SorobanTransactionData) (pollCfg : PollConfig) : Async Unit := do
  let restoreOp ← Prog.lift (sdk.restoreFootprint.mapError .xdr)
  let sourceAccount ← getAccount sdk signer.publicKey
  let transaction :=
    (buildTransaction sourceAccount networkPassphrase restoreOp (restoreFee resourceFee)
      restoreData).1
  -- The data and the fee are those of the preamble, so the restore is not prepared again.
  let _ ← submit sdk signer networkPassphrase transaction pollCfg

/-- The extend transaction against a freshly fetched account; both attempts build it the same
way. -/
def buildExtend (networkPassphrase : String) (signer : Signer) (extendTo : UInt32)
    (extendSorobanData : SorobanTransactionData) : Async Transaction := do
  let sourceAccount ← getAccount sdk signer.publicKey
  let op ← Prog.lift ((sdk.extendFootprintTtl extendTo).mapError .xdr)
  pure (buildTransaction sourceAccount networkPassphrase op minBaseFee extendSorobanData).1

/-- `extend_ledger_key_ttl`. -/
def extendLedgerKeyTtl (networkPassphrase : String) (signer : Signer) (ledgerKey : LedgerKey)
    (extendTo : UInt32) (pollCfg : PollConfig) : Async InvokeOutcome := do
  let extendSorobanData ← Prog.lift (extendFootprintData ledgerKey)
  let transaction ← buildExtend sdk networkPassphrase signer extendTo extendSorobanData
  match ← Prog.ask (.prepareTransaction transaction) .ok with
  | .ok prepared => submit sdk signer networkPassphrase prepared pollCfg
  | .error (.restorationRequired resourceFee restoreData) => do
    restoreEntry sdk networkPassphrase signer resourceFee restoreData pollCfg
    -- The second attempt: a preamble that it gets back is an error like any other.
    let transaction ← buildExtend sdk networkPassphrase signer extendTo extendSorobanData
    let prepared ←
      Prog.ask (.prepareTransaction transaction) (Except.mapError (simulationError sdk))
    submit sdk signer networkPassphrase prepared pollCfg
  | .error e => throw (simulationError sdk e)

/-! ## The three public functions -/

/-- `extend_ttl`. -/
def extendTtl (networkPassphrase : String) (signer : Signer) (contractAddress : String)
    (storageKey : ScVal) (durability : ContractDataDurability) (extendTo : UInt32)
    (pollCfg : PollConfig) : Async InvokeOutcome := do
  let contract ← Prog.lift (contractScAddress sdk contractAddress)
  extendLedgerKeyTtl sdk networkPassphrase signer (.contractData contract storageKey durability)
    extendTo pollCfg

/-- `extend_instance_ttl`. -/
def extendInstanceTtl (networkPassphrase : String) (signer : Signer) (contractAddress : String)
    (extendTo : UInt32) (pollCfg : PollConfig) : Async InvokeOutcome := do
  let contract ← Prog.lift (contractScAddress sdk contractAddress)
  extendLedgerKeyTtl sdk networkPassphrase signer
    (.contractData contract instanceKey .persistent) extendTo pollCfg

/-- `extend_wasm_ttl`. -/
def extendWasmTtl (networkPassphrase : String) (signer : Signer) (wasmHash : Hash)
    (extendTo : UInt32) (pollCfg : PollConfig) : Async InvokeOutcome :=
  extendLedgerKeyTtl sdk networkPassphrase signer (wasmLedgerKey wasmHash) extendTo pollCfg

/-! ## Reading -/

/-- `wasm_hash_of`. -/
def wasmHashOf (contractAddress : String) : Async (Option Hash) := do
  match ← Prog.ask (.getContractData contractAddress instanceKey .persistent) .ok with
  | .error .contractDataNotFound => pure none
  | .error e => throw (rpcError sdk e)
  | .ok entry =>
    match entry.toData with
    | some (.contractInstance (.wasm hash) _) => pure (some hash)
    -- Neither an asset contract nor an entry of another kind names any code.
    | _ => pure none

/-- `live_until_ledger`. -/
def liveUntilLedger (ledgerKey : LedgerKey) : Async (Option UInt32) := do
  let entries ← Prog.ask (.getLedgerEntries [ledgerKey]) (Except.mapError (rpcError sdk))
  pure ((entries.bind List.head?).bind LedgerEntryResult.liveUntilLedgerSeq)

/-- `wasm_ttl`. -/
def wasmTtl (wasmHash : Hash) : Async (Option UInt32) :=
  liveUntilLedger sdk (wasmLedgerKey wasmHash)

end StellarRustClient
