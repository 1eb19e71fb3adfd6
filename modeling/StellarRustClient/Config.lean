import Mathlib.Data.Nat.Notation
import Mathlib.Tactic.Common

/-!
# Configuration

`NetworkConfig` and `PollConfig`.
-/

namespace StellarRustClient

/-- `NetworkConfig`. -/
structure NetworkConfig where
  rpcUrl : String
  networkPassphrase : String
  deriving DecidableEq

namespace NetworkConfig

def testnet : NetworkConfig where
  rpcUrl := "https://soroban-testnet.stellar.org"
  networkPassphrase := "Test SDF Network ; September 2015"

def futurenet : NetworkConfig where
  rpcUrl := "https://rpc-futurenet.stellar.org"
  networkPassphrase := "Test SDF Future Network ; October 2022"

def mainnet (rpcUrl : String) : NetworkConfig where
  rpcUrl := rpcUrl
  networkPassphrase := "Public Global Stellar Network ; September 2015"

def custom (rpcUrl networkPassphrase : String) : NetworkConfig where
  rpcUrl := rpcUrl
  networkPassphrase := networkPassphrase

end NetworkConfig

/-- `std::time::Duration` in nanoseconds: `u64` seconds and a fraction. -/
structure Duration where
  nanos : ℕ
  /-- A duration is representable. -/
  lt : nanos < UInt64.size * 1000000000
  deriving DecidableEq

/-- `Duration::from_secs`. -/
def Duration.fromSecs (secs : UInt64) : Duration where
  nanos := secs.toNat * 1000000000
  lt := Nat.mul_lt_mul_of_pos_right secs.toNat_lt (by decide)

/-- `Duration::MAX`. -/
def Duration.max : Duration where
  nanos := UInt64.size * 1000000000 - 1
  lt := by decide

/-- `tokio::time::Instant`, in nanoseconds since the start of the clock. -/
abbrev Instant := ℕ

/-- `PollConfig`. -/
structure PollConfig where
  interval : Duration
  timeout : Duration
  deriving DecidableEq

/-- `PollConfig::default`: two seconds, one hour. -/
def PollConfig.default : PollConfig where
  interval := .fromSecs 2
  timeout := .fromSecs (60 * 60)

end StellarRustClient
