import Mathlib.Data.Prod.Lex
import StellarRustClient.Utils.Scalar

/-!
# What the parts of a 128-bit integer mean

The high and the low part of an encoded `i128` or `u128` are quotient and remainder by `2 ^ 64`,
over the integers: the high part of a negative number is the floor quotient, and the low part is
never negative. That encoding and decoding undo each other does not say this, a split with the
halves exchanged would do that as well; it comes from the bytes being big-endian and from two's
complement, which meet in `toInt_joinHalves`.
-/

namespace StellarRustClient

namespace Utils

variable {sdk : Sdk}

/-- Joining is the numeric combination of a signed high and an unsigned low half. -/
theorem toInt_joinHalves (hi lo : BitVec 64) :
    (joinHalves hi lo).toInt = hi.toInt * 2 ^ 64 + lo.toNat := by
  have hhi := hi.isLt
  have hlo := lo.isLt
  have hjoin := toNat_joinHalves hi lo
  rw [BitVec.toInt_eq_toNat_cond, BitVec.toInt_eq_toNat_cond, hjoin]
  -- The sign of the whole is the sign of the high half.
  by_cases hneg : 2 * hi.toNat < 2 ^ 64
  · rw [if_pos hneg, if_pos (by omega)]
    push_cast
    ring
  · rw [if_neg hneg, if_neg (by omega)]
    push_cast
    ring

theorem i128Val_eq {v : I128} {hi : Int64} {lo : UInt64} :
    i128Val v = .i128 ⟨hi, lo⟩ ↔ v.toInt = hi.toInt * 2 ^ 64 + lo.toNat := by
  have hjoin := toInt_joinHalves hi.toBitVec lo.toBitVec
  have hsplit := partialInverse_i128Halves v ⟨hi, lo⟩
  rw [Except.ok.injEq, Except.ok.injEq, ← BitVec.toInt_inj, hjoin] at hsplit
  rw [i128Val, ScVal.i128.injEq, hsplit]
  exact eq_comm

theorem u128Val_eq {v : U128} {hi lo : UInt64} :
    u128Val v = .u128 ⟨hi, lo⟩ ↔ v.toNat = hi.toNat * 2 ^ 64 + lo.toNat := by
  have hjoin := toNat_joinHalves hi.toBitVec lo.toBitVec
  have hsplit := partialInverse_u128Halves v ⟨hi, lo⟩
  rw [Except.ok.injEq, Except.ok.injEq, ← BitVec.toNat_inj, hjoin] at hsplit
  rw [u128Val, ScVal.u128.injEq, hsplit]
  exact eq_comm

theorem exists_i128Val (v : I128) : ∃ hi lo, i128Val v = .i128 ⟨hi, lo⟩ := ⟨_, _, rfl⟩

theorem exists_u128Val (v : U128) : ∃ hi lo, u128Val v = .u128 ⟨hi, lo⟩ := ⟨_, _, rfl⟩

/-- Pairs of a quotient and a remainder are ordered like the numbers they stand for. -/
theorem combine_lt_combine {a b : ℤ} {l m : ℕ} (hl : l < 2 ^ 64) (hm : m < 2 ^ 64) :
    a * 2 ^ 64 + l < b * 2 ^ 64 + m ↔ toLex (a, l) < toLex (b, m) := by
  rw [Prod.Lex.toLex_lt_toLex]
  omega

end Utils

open Utils in
/-- The numeric meaning of the 128-bit encodings. -/
structure NumericParts (sdk : Sdk) : Prop where
  /-- The parts of an encoded `i128`. -/
  i128_split : ∀ v : I128, ∃ hi lo, i128Val v = .i128 ⟨hi, lo⟩ ∧
    -2 ^ 63 ≤ hi.toInt ∧ hi.toInt < 2 ^ 63 ∧ 0 ≤ lo.toNat ∧ lo.toNat < 2 ^ 64 ∧
    v.toInt = hi.toInt * 2 ^ 64 + lo.toNat ∧ hi.toInt = v.toInt / 2 ^ 64
  /-- The parts of an encoded `u128`. -/
  u128_split : ∀ v : U128, ∃ hi lo, u128Val v = .u128 ⟨hi, lo⟩ ∧
    0 ≤ hi.toNat ∧ hi.toNat < 2 ^ 64 ∧ 0 ≤ lo.toNat ∧ lo.toNat < 2 ^ 64 ∧
    v.toNat = hi.toNat * 2 ^ 64 + lo.toNat ∧ hi.toNat = v.toNat / 2 ^ 64
  /-- Any parts are decoded to the number they stand for. -/
  i128_join : ∀ hi lo, ∃ v, toI128 sdk (.i128 ⟨hi, lo⟩) = .ok v ∧
    v.toInt = hi.toInt * 2 ^ 64 + lo.toNat
  u128_join : ∀ hi lo, ∃ v, toU128 sdk (.u128 ⟨hi, lo⟩) = .ok v ∧
    v.toNat = hi.toNat * 2 ^ 64 + lo.toNat
  /-- The numbers are ordered like their parts. -/
  i128_lt : ∀ (v w : I128) hi lo hi' lo', i128Val v = .i128 ⟨hi, lo⟩ →
    i128Val w = .i128 ⟨hi', lo'⟩ →
    (v.toInt < w.toInt ↔ toLex (hi.toInt, lo.toNat) < toLex (hi'.toInt, lo'.toNat))
  u128_lt : ∀ (v w : U128) hi lo hi' lo', u128Val v = .u128 ⟨hi, lo⟩ →
    u128Val w = .u128 ⟨hi', lo'⟩ →
    (v.toNat < w.toNat ↔ toLex (hi.toNat, lo.toNat) < toLex (hi'.toNat, lo'.toNat))
  /-- A number that both types have is encoded with the same parts by both. -/
  same_parts : ∀ (n : ℕ) (v : I128) (w : U128), n < 2 ^ 127 → v.toInt = n → w.toNat = n →
    ∃ hi hi' lo, i128Val v = .i128 ⟨hi, lo⟩ ∧ u128Val w = .u128 ⟨hi', lo⟩ ∧
      hi.toInt = hi'.toNat

open Utils in
/-- **The 128-bit encodings.** High and low part are quotient and remainder by `2 ^ 64`. -/
theorem numericParts (sdk : Sdk) : NumericParts sdk where
  i128_split v := by
    obtain ⟨hi, lo, hv⟩ := exists_i128Val v
    have hnum := i128Val_eq.mp hv
    have hlt := lo.toNat_lt
    exact ⟨hi, lo, hv, hi.le_toInt, hi.toInt_lt, Nat.zero_le _, hlt, hnum, by omega⟩
  u128_split v := by
    obtain ⟨hi, lo, hv⟩ := exists_u128Val v
    have hnum := u128Val_eq.mp hv
    have hlt := lo.toNat_lt
    exact ⟨hi, lo, hv, Nat.zero_le _, hi.toNat_lt, Nat.zero_le _, hlt, hnum, by omega⟩
  i128_join hi lo := ⟨_, rfl, toInt_joinHalves hi.toBitVec lo.toBitVec⟩
  u128_join hi lo := ⟨_, rfl, toNat_joinHalves hi.toBitVec lo.toBitVec⟩
  i128_lt v w hi lo hi' lo' hv hw := by
    rw [i128Val_eq.mp hv, i128Val_eq.mp hw]
    exact combine_lt_combine lo.toNat_lt lo'.toNat_lt
  u128_lt v w hi lo hi' lo' hv hw := by
    have hlo := lo.toNat_lt
    have hlo' := lo'.toNat_lt
    rw [u128Val_eq.mp hv, u128Val_eq.mp hw, Prod.Lex.toLex_lt_toLex]
    omega
  same_parts n v w hn hv hw := by
    obtain ⟨hi, lo, hi128⟩ := exists_i128Val v
    obtain ⟨hi', lo', hu128⟩ := exists_u128Val w
    have hv' := i128Val_eq.mp hi128
    have hw' := u128Val_eq.mp hu128
    have hlo := lo.toNat_lt
    have hlo' := lo'.toNat_lt
    have hloeq : lo = lo' := UInt64.toNat_inj.mp (by omega)
    subst hloeq
    exact ⟨hi, hi', lo, hi128, hu128, by omega⟩

end StellarRustClient
