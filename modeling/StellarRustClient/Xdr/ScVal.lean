import Mathlib.Data.List.OfFn
import StellarRustClient.Xdr.Bounded

/-!
# Contract values

`ScVal`, the type of contract arguments, results and storage keys, with every constructor of the
protocol. The nested sequences are functions on `Fin n` with `n` under the XDR limit instead of
lists with a side condition: the type is recursive through them, and this way an over-length vec or
map still cannot be built. `ScVec.toList` and `ScVec.ofList` are how the code reads and writes them.
-/

namespace StellarRustClient

/-- A 32-byte hash, identifier or key. -/
abbrev Hash := Vector UInt8 32

/-- `ScAddress`: an account (its Ed25519 key, for a muxed one with an identifier in front), a
contract, a claimable balance or a liquidity pool. -/
inductive ScAddress
  | account (id : Hash)
  | contract (id : Hash)
  | muxedAccount (id : UInt64) (ed25519 : Hash)
  | claimableBalance (id : Hash)
  | liquidityPool (id : Hash)
  deriving DecidableEq

/-- `ContractExecutable`: what a contract instance runs. -/
inductive ContractExecutable
  | wasm (hash : Hash)
  | stellarAsset
  deriving DecidableEq

/-- `ScErrorCode`. -/
inductive ScErrorCode
  | arithDomain | indexBounds | invalidInput | missingValue | existingValue | exceededLimit
  | invalidAction | internalError | unexpectedType | unexpectedSize
  deriving DecidableEq

/-- `ScError`. -/
inductive ScError
  | contract (code : UInt32)
  | wasmVm (code : ScErrorCode)
  | context (code : ScErrorCode)
  | storage (code : ScErrorCode)
  | object (code : ScErrorCode)
  | crypto (code : ScErrorCode)
  | events (code : ScErrorCode)
  | budget (code : ScErrorCode)
  | value (code : ScErrorCode)
  | auth (code : ScErrorCode)
  deriving DecidableEq

/-- `Int128Parts`: the signed high and the unsigned low half. -/
structure Int128Parts where
  hi : Int64
  lo : UInt64
  deriving DecidableEq

/-- `UInt128Parts`. -/
structure UInt128Parts where
  hi : UInt64
  lo : UInt64
  deriving DecidableEq

/-- `Int256Parts`. -/
structure Int256Parts where
  hiHi : Int64
  hiLo : UInt64
  loHi : UInt64
  loLo : UInt64
  deriving DecidableEq

/-- `UInt256Parts`. -/
structure UInt256Parts where
  hiHi : UInt64
  hiLo : UInt64
  loHi : UInt64
  loLo : UInt64
  deriving DecidableEq

/-- `ScBytes`. -/
abbrev ScBytes := BytesM u32Max

/-- `ScString`: bytes that need not be UTF-8. -/
abbrev ScString := BytesM u32Max

/-- `ScSymbol`: at most 32 bytes. -/
abbrev ScSymbol := BytesM 32

mutual

/-- `ScVal`. -/
inductive ScVal
  | bool (b : Bool)
  | void
  | error (e : ScError)
  | u32 (n : UInt32)
  | i32 (n : Int32)
  | u64 (n : UInt64)
  | i64 (n : Int64)
  | timepoint (t : UInt64)
  | duration (d : UInt64)
  | u128 (n : UInt128Parts)
  | i128 (n : Int128Parts)
  | u256 (n : UInt256Parts)
  | i256 (n : Int256Parts)
  | bytes (b : ScBytes)
  | string (s : ScString)
  | symbol (s : ScSymbol)
  /-- The protocol tells the absent vec from the empty one. -/
  | vec (v : Option ScVec)
  | map (m : Option ScMap)
  | address (a : ScAddress)
  | contractInstance (executable : ContractExecutable) (storage : Option ScMap)
  | ledgerKeyContractInstance
  | ledgerKeyNonce (nonce : Int64)

/-- `ScVec`: contract values under the XDR length limit. -/
inductive ScVec
  | mk (n : ℕ) (le : n ≤ u32Max) (get : Fin n → ScVal)

/-- `ScMap`: key-value pairs under the XDR length limit. -/
inductive ScMap
  | mk (n : ℕ) (le : n ≤ u32Max) (key val : Fin n → ScVal)

end

namespace ScVec

/-- The elements in order. -/
def toList : ScVec → List ScVal
  | mk _ _ get => List.ofFn get

/-- The vec with each element replaced. -/
def map (f : ScVal → ScVal) : ScVec → ScVec
  | mk n le get => mk n le fun i ↦ f (get i)

theorem toList_map (f : ScVal → ScVal) (v : ScVec) : (v.map f).toList = v.toList.map f := by
  obtain ⟨n, le, get⟩ := v
  exact List.map_ofFn.symm

/-- `TryFrom<Vec<ScVal>>`. -/
def tryFrom (l : List ScVal) : Except XdrError ScVec :=
  if h : l.length ≤ u32Max then .ok (mk l.length h l.get) else .error .lengthExceedsMax

theorem length_toList_le (v : ScVec) : v.toList.length ≤ u32Max := by
  obtain ⟨n, le, get⟩ := v
  rw [toList, List.length_ofFn]
  exact le

theorem toList_injective {v w : ScVec} (h : v.toList = w.toList) : v = w := by
  obtain ⟨n, hn, f⟩ := v
  obtain ⟨m, hm, g⟩ := w
  rw [toList, toList, List.ofFn_inj'] at h
  cases h
  rfl

theorem tryFrom_eq_ok {l : List ScVal} {v : ScVec} : tryFrom l = .ok v ↔ v.toList = l := by
  constructor
  · intro h
    by_cases hle : l.length ≤ u32Max
    · rw [tryFrom, dif_pos hle] at h
      rw [← Except.ok.inj h, toList, List.ofFn_get]
    · rw [tryFrom, dif_neg hle] at h
      cases h
  · rintro rfl
    rw [tryFrom, dif_pos v.length_toList_le]
    exact congrArg _ (toList_injective (by rw [toList, List.ofFn_get]))

end ScVec

end StellarRustClient
