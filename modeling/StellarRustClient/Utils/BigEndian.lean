import Mathlib.Data.List.Induction
import Mathlib.Data.Nat.Notation
import Mathlib.Tactic.Common
import Mathlib.Tactic.Ring

/-!
# Big-endian bytes

A natural number as a fixed number of bytes, most significant first. Encoding is taken modulo
`256 ^ n`, decoding is exact, and splitting the bytes splits the number into quotient and
remainder; these are the facts that splitting a wide integer into parts relies on.
-/

namespace BigEndian

/-- The `n` low bytes of `v`, most significant first. -/
def encode : ℕ → ℕ → List UInt8
  | 0, _ => []
  | n + 1, v => encode n (v / 256) ++ [UInt8.ofNat v]

/-- The number that the bytes write. -/
def decode (l : List UInt8) : ℕ :=
  l.foldl (fun acc b ↦ 256 * acc + b.toNat) 0

@[simp] theorem length_encode (n v : ℕ) : (encode n v).length = n := by
  induction n generalizing v with
  | zero => rfl
  | succ n ih => rw [encode, List.length_append, ih, List.length_singleton]

@[simp] theorem decode_nil : decode [] = 0 := rfl

theorem decode_append_singleton (l : List UInt8) (b : UInt8) :
    decode (l ++ [b]) = 256 * decode l + b.toNat := by
  rw [decode, List.foldl_append, List.foldl_cons, List.foldl_nil, decode]

theorem decode_append (l m : List UInt8) :
    decode (l ++ m) = decode l * 256 ^ m.length + decode m := by
  induction m using List.reverseRecOn with
  | nil => simp
  | append_singleton m b ih =>
    rw [← List.append_assoc, decode_append_singleton, decode_append_singleton, ih,
      List.length_append, List.length_singleton, pow_succ]
    ring

theorem decode_encode (n v : ℕ) : decode (encode n v) = v % 256 ^ n := by
  induction n generalizing v with
  | zero => simp [encode, Nat.mod_one]
  | succ n ih =>
    rw [encode, decode_append_singleton, ih, UInt8.toNat_ofNat', pow_succ' 256 n, Nat.mod_mul]
    exact Nat.add_comm _ _

/-- Splitting the bytes splits the number. -/
theorem encode_add (m n v : ℕ) : encode (m + n) v = encode m (v / 256 ^ n) ++ encode n v := by
  induction n generalizing v with
  | zero => simp [encode]
  | succ n ih =>
    rw [← Nat.add_assoc, encode, ih, encode, Nat.div_div_eq_div_mul, ← pow_succ',
      List.append_assoc]

end BigEndian
