import StellarRustClient.Xdr.ScVal

/-!
# Transactions

The parts of `soroban-client` that the crate builds and hands around: ledger keys, footprints,
operations, transactions and accounts. A transaction is split into its contents, which its hash is
a function of, and the signatures attached to them.

`TransactionBuilder.build` stands for the builder chain that every build site of the crate writes
out: one operation, the given fee, the sequence number after the account's. Sequence numbers are
integers here and `i64` in the SDK: at `i64::MAX` the builder of the SDK overflows, and what is
built here is no transaction of the code.
-/

namespace StellarRustClient

/-- `ContractDataDurability`, re-exported by the crate as `Durability`. -/
inductive ContractDataDurability
  | temporary
  | persistent
  deriving DecidableEq

/-- `LedgerKey`, with the two kinds of entry this crate addresses. -/
inductive LedgerKey
  | contractData (contract : ScAddress) (key : ScVal) (durability : ContractDataDurability)
  | contractCode (hash : Hash)

/-- `LedgerFootprint`. -/
structure LedgerFootprint where
  readOnly : VecM LedgerKey u32Max
  readWrite : VecM LedgerKey u32Max

/-- `SorobanResources`. -/
structure SorobanResources where
  footprint : LedgerFootprint
  instructions : UInt32
  diskReadBytes : UInt32
  writeBytes : UInt32

/-- `SorobanTransactionDataExt`. -/
inductive SorobanTransactionDataExt
  | v0
  | v1 (archivedSorobanEntries : List UInt32)

/-- `SorobanTransactionData`. -/
structure SorobanTransactionData where
  ext : SorobanTransactionDataExt
  resources : SorobanResources
  resourceFee : Int64

/-- `Operation`: the operations that the crate submits. -/
inductive Operation
  | uploadContractWasm (code : ByteArray)
  | createContract (deployer : ScAddress) (salt wasmHash : Hash) (constructorArgs : List ScVal)
  | invokeContract (contract : ScAddress) (function : ScSymbol) (args : List ScVal)
  /-- The argument counts ledgers from the one the operation is applied at. -/
  | extendFootprintTtl (extendTo : UInt32)
  | restoreFootprint

/-- Everything of a transaction that is signed and hashed. -/
structure TransactionContents where
  source : String
  sequence : ℤ
  fee : UInt32
  operations : List Operation
  sorobanData : Option SorobanTransactionData
  networkPassphrase : String

/-- `Transaction`. -/
structure Transaction where
  contents : TransactionContents
  signatures : List ByteArray

/-- `Account`: an account as `get_account` returns it, with its current sequence number. -/
structure Account where
  accountId : String
  sequence : ℤ
  deriving DecidableEq

/-- `TransactionBuilder::new(&mut account, network, None).fee(..).add_operation(..)`, with
`.set_soroban_data(..)` where data is given, and `.build()`: the transaction, and the account
after it, whose sequence number the builder has advanced. -/
def TransactionBuilder.build (account : Account) (networkPassphrase : String) (fee : UInt32)
    (operation : Operation) (sorobanData : Option SorobanTransactionData) :
    Transaction × Account :=
  ({ contents :=
      { source := account.accountId
        sequence := account.sequence + 1
        fee := fee
        operations := [operation]
        sorobanData := sorobanData
        networkPassphrase := networkPassphrase }
     signatures := [] },
   { account with sequence := account.sequence + 1 })

end StellarRustClient
