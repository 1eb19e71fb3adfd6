import StellarRustClient.Client.WriteOp
import StellarRustClient.Interaction.World
import StellarRustClient.Read
import StellarRustClient.Submission.Leg

/-!
# The read methods

The methods of the client that only ask the node. None of them builds a signer; `read_contract` uses
the public key of the client as the source of a transaction that it has simulated and nothing else.

`ReadOp.triple` walks through all five once: what their calls keep in some world, the methods keep.
-/

namespace StellarRustClient

open Interaction

/-- `AccountBehavior::sequence_number`: the sequence number as the SDK hands it out. -/
def Account.sequenceNumber (account : Account) : String :=
  toString account.sequence

/-- The integers that an `i64` can take. -/
def IsI64 (z : ℤ) : Prop :=
  Int64.minValue.toInt ≤ z ∧ z ≤ Int64.maxValue.toInt

instance (z : ℤ) : Decidable (IsI64 z) :=
  inferInstanceAs (Decidable (_ ∧ _))

/-- The `Display` text of the error of a number beyond the range of a signed type. -/
def overflowText (negative : Bool) : String :=
  if negative then "number too small to fit in target type" else ParseIntError.posOverflow.display

/-- The digits of an `i64`, most significant first, onto what was read so far: each one is added, or
subtracted after a `-`. -/
def parseI64Digits (negative : Bool) (acc : ℤ) : List Char → Except String ℤ
  | [] => .ok acc
  | c :: cs =>
    if c.isDigit then
      let digit : ℤ := (c.toNat - '0'.toNat : ℕ)
      let next := if negative then 10 * acc - digit else 10 * acc + digit
      if IsI64 next then parseI64Digits negative next cs else .error (overflowText negative)
    else .error ParseIntError.invalidDigit.display

/-- `i64::from_str`: decimal digits after an optional sign. -/
def parseI64 (s : String) : Except String Int64 :=
  match s.toList with
  | [] => .error ParseIntError.empty.display
  | ['+'] => .error ParseIntError.invalidDigit.display
  | ['-'] => .error ParseIntError.invalidDigit.display
  | '+' :: digits => (parseI64Digits false 0 digits).map .ofInt
  | '-' :: digits => (parseI64Digits true 0 digits).map .ofInt
  | digits => (parseI64Digits false 0 digits).map .ofInt

namespace Client

variable (sdk : Sdk) (client : Client)

/-- `Client::wasm_hash_of`. -/
def wasmHashOf (_client : Client) (contractAddress : String) : Async (Option Hash) :=
  StellarRustClient.wasmHashOf sdk contractAddress

/-- `Client::wasm_ttl`. -/
def wasmTtl (_client : Client) (wasmHash : Hash) : Async (Option UInt32) :=
  StellarRustClient.wasmTtl sdk wasmHash

/-- `Client::latest_ledger`. -/
def latestLedger (_client : Client) : Async UInt32 :=
  Prog.ask .getLatestLedger (Except.mapError (rpcError sdk))

/-- `Client::account_sequence`. -/
def accountSequence (_client : Client) (accountId : String) : Async Int64 := do
  let account ← getAccount sdk accountId
  Prog.lift ((parseI64 account.sequenceNumber).mapError fun e ↦
    .rpc s!"malformed account sequence number: {e}")

/-- `Client::read_contract`. -/
def readContract (contractAddress functionName : String) (args : List ScVal) : Async ScVal :=
  StellarRustClient.readContract sdk client.network.networkPassphrase client.publicKey
    contractAddress functionName args

end Client

/-- A read method of the client, with its arguments. -/
inductive ReadOp
  | wasmHashOf (contractAddress : String)
  | wasmTtl (wasmHash : Hash)
  | latestLedger
  | accountSequence (accountId : String)
  | readContract (contractAddress functionName : String) (args : List ScVal)

/-- A call of a read method, whose result is looked at no further than whether it is an error. -/
def Client.read (sdk : Sdk) (client : Client) : ReadOp → Async Unit
  | .wasmHashOf contractAddress => (fun _ ↦ ()) <$> client.wasmHashOf sdk contractAddress
  | .wasmTtl wasmHash => (fun _ ↦ ()) <$> client.wasmTtl sdk wasmHash
  | .latestLedger => (fun _ ↦ ()) <$> client.latestLedger sdk
  | .accountSequence accountId => (fun _ ↦ ()) <$> client.accountSequence sdk accountId
  | .readContract contractAddress functionName args =>
    (fun _ ↦ ()) <$> client.readContract sdk contractAddress functionName args

/-- A call of any method of a client. -/
def Client.call (sdk : Sdk) (client : Client) : WriteOp ⊕ ReadOp → Async Unit
  | .inl op => client.perform sdk op
  | .inr op => client.read sdk op

/-! ## What a read method asks -/

/-- The calls of the read methods. -/
def IsReadCall : Call → Prop
  | .getAccount _ => True
  | .simulateTransaction _ => True
  | .getContractData _ _ _ => True
  | .getLedgerEntries _ => True
  | .getLatestLedger => True
  | _ => False

theorem sentTransaction_of_isReadCall {x : Exchange} (hx : IsReadCall x.1) :
    sentTransaction x = none := by
  obtain ⟨c, r⟩ := x
  cases c <;> first | rfl | exact hx.elim

section

variable {sdk : Sdk} {σ : Type*} {W : World Call Reply σ} {G : σ → Exchange → Prop} {P : σ → Prop}

/-- **Every read method** keeps what its calls keep. -/
theorem ReadOp.triple (hcall : ∀ {α : Type} (c : Call) (f : Reply c → Except SorobanUtilsError α),
      IsReadCall c → Triple W G P (Prog.ask c f) (fun _ ↦ P) fun _ ↦ P)
    (client : Client) (op : ReadOp) :
    Triple W G P (client.read sdk op) (fun _ ↦ P) fun _ ↦ P := by
  have hlift {α : Type} (x : Except SorobanUtilsError α) :
      Triple W G P (Prog.lift x) (fun _ ↦ P) fun _ ↦ P :=
    .lift (fun _ _ _ h ↦ h) fun _ _ _ h ↦ h
  cases op with
  | wasmHashOf contractAddress =>
    refine Triple.map ?_
    rw [Client.wasmHashOf, StellarRustClient.wasmHashOf]
    refine (hcall (.getContractData _ _ _) _ trivial).bind fun r ↦ ?_
    split
    · exact .pure fun _ h ↦ h
    · exact .throw fun _ h ↦ h
    · split <;> exact .pure fun _ h ↦ h
  | wasmTtl wasmHash =>
    refine Triple.map ?_
    rw [Client.wasmTtl, StellarRustClient.wasmTtl, liveUntilLedger]
    exact (hcall (.getLedgerEntries _) _ trivial).bind fun entries ↦ .pure fun _ h ↦ h
  | latestLedger => exact (hcall .getLatestLedger _ trivial).map
  | accountSequence accountId =>
    exact Triple.map ((hcall (.getAccount accountId) _ trivial).bind fun account ↦ hlift _)
  | readContract contractAddress functionName args =>
    refine Triple.map ?_
    rw [Client.readContract, StellarRustClient.readContract]
    refine (hlift _).bind fun op ↦ Triple.bind (M := fun _ ↦ P) ?_ fun simulation ↦ ?_
    · rw [buildAndSimulate]
      exact (hcall (.getAccount _) _ trivial).bind fun account ↦
        hcall (.simulateTransaction _) _ trivial
    · split
      · exact .pure fun _ h ↦ h
      · exact .throw fun _ h ↦ h

end

end StellarRustClient
