import StellarRustClient.Client.ReadOp
import StellarRustClient.Client.SequenceHonesty
import StellarRustClient.Fee.Bidding

/-!
# The sequence number of an account, read

`account_sequence` reads the number of an account off a text, as an `i64`. `readSequence` says what
comes of it: the number itself where it is an `i64`, and an error that says in which direction it is
none elsewhere. What is read is what the client goes by: on an account of which nothing is on its
way, the next transaction is sent with the number after it, where an `i64` comes after it.
-/

namespace StellarRustClient

open Interaction

/-! ## Signed decimal texts -/

/-- What digits stand for after a sign. -/
def signed (negative : Bool) (n : ℕ) : ℤ :=
  if negative then -n else n

theorem minValue_toInt : Int64.minValue.toInt = -9223372036854775808 := rfl

theorem maxValue_toInt : Int64.maxValue.toInt = 9223372036854775807 := rfl

/-- Towards zero nothing leaves the range. -/
theorem IsI64.of_le {negative : Bool} {n m : ℕ} (h : IsI64 (signed negative n)) (hle : m ≤ n) :
    IsI64 (signed negative m) := by
  cases negative <;> simp only [IsI64, signed, minValue_toInt, maxValue_toInt] at h ⊢ <;> grind

/-- Digits onto what was read so far: the number they end up with, or the error of the digit that
leaves the range. -/
theorem parseI64Digits_signed {negative : Bool} {cs : List Char} {acc : ℕ}
    (hcs : ∀ c ∈ cs, c.isDigit) (hacc : IsI64 (signed negative acc)) :
    parseI64Digits negative (signed negative acc) cs =
      if IsI64 (signed negative (Nat.ofDigitChars 10 cs acc)) then
        .ok (signed negative (Nat.ofDigitChars 10 cs acc))
      else .error (overflowText negative) := by
  induction cs generalizing acc with
  | nil => rw [parseI64Digits, Nat.ofDigitChars_nil, if_pos hacc]
  | cons c cs ih =>
    obtain ⟨hc, hcs⟩ := List.forall_mem_cons.mp hcs
    have hnext : (if negative then 10 * signed negative acc - (c.toNat - '0'.toNat : ℕ)
        else 10 * signed negative acc + (c.toNat - '0'.toNat : ℕ)) =
          signed negative (10 * acc + (c.toNat - '0'.toNat)) := by
      cases negative <;> simp only [signed, Bool.false_eq_true, ↓reduceIte] <;> push_cast <;> ring
    rw [parseI64Digits, if_pos hc, Nat.ofDigitChars_cons]
    simp only [hnext]
    by_cases hfits : IsI64 (signed negative (10 * acc + (c.toNat - '0'.toNat)))
    · rw [if_pos hfits, ih hcs hfits]
    · -- What is out of range stays out of range.
      have hout : ¬IsI64 (signed negative
          (Nat.ofDigitChars 10 cs (10 * acc + (c.toNat - '0'.toNat)))) :=
        fun h ↦ hfits (h.of_le (le_ofDigitChars cs _))
      rw [if_neg hfits, if_neg hout]

theorem parseI64Digits_toDigits (negative : Bool) (n : ℕ) :
    parseI64Digits negative 0 (Nat.toDigits 10 n) =
      if IsI64 (signed negative n) then .ok (signed negative n)
      else .error (overflowText negative) := by
  have hzero : signed negative 0 = 0 := by cases negative <;> rfl
  have hdigits : ∀ c ∈ Nat.toDigits 10 n, c.isDigit := fun c hc ↦
    Nat.isDigit_of_mem_toDigits (by decide) (by decide) hc
  have hrange : IsI64 (signed negative 0) := by
    rw [hzero]
    decide
  have hread := parseI64Digits_signed hdigits hrange
  rw [hzero, Nat.ofDigitChars_toDigits (by decide) (by decide)] at hread
  exact hread

theorem ofInt_toInt {z : ℤ} (h : IsI64 z) : (Int64.ofInt z).toInt = z :=
  Int64.toInt_ofInt_of_le h.1 (Int.lt_of_le_of_lt h.2 (by decide))

theorem parseI64_of_digits {s : String} {digits : List Char} (hs : s.toList = digits)
    (hne : digits ≠ []) (hdigits : ∀ c ∈ digits, c.isDigit) :
    parseI64 s = (parseI64Digits false 0 digits).map .ofInt := by
  have hsign {c : Char} {l : List Char} (hc : ¬c.isDigit) (h : digits = c :: l) : False :=
    hc (hdigits c (h ▸ List.mem_cons_self))
  rw [parseI64, hs]
  split
  · exact absurd rfl hne
  · exact (hsign (by decide) rfl).elim
  · exact (hsign (by decide) rfl).elim
  · exact (hsign (by decide) rfl).elim
  · exact (hsign (by decide) rfl).elim
  · rfl

theorem parseI64_of_minus {s : String} {digits : List Char} (hs : s.toList = '-' :: digits)
    (hne : digits ≠ []) : parseI64 s = (parseI64Digits true 0 digits).map .ofInt := by
  have hminus : '-' ≠ '+' := by decide
  rw [parseI64, hs]
  split
  · contradiction
  · exact absurd (List.cons.inj ‹_›).1 hminus
  · exact absurd (List.cons.inj ‹_›).2 hne
  · exact absurd (List.cons.inj ‹_›).1 hminus
  · rename_i h
    rw [(List.cons.inj h).2]
  · rename_i h
    exact absurd rfl (h digits)

/-- What a text of `z` is read as. -/
theorem parseI64_toString (z : ℤ) : parseI64 (toString z) =
    if IsI64 z then .ok (.ofInt z) else .error (overflowText (decide (z < 0))) := by
  have hne (n : ℕ) : Nat.toDigits 10 n ≠ [] := Nat.toDigits_ne_nil
  have hdigits (n : ℕ) : ∀ c ∈ Nat.toDigits 10 n, c.isDigit := fun c hc ↦
    Nat.isDigit_of_mem_toDigits (by decide) (by decide) hc
  have hmap {p : Prop} [Decidable p] {z : ℤ} {e : String} :
      (if p then .ok z else .error e : Except String ℤ).map Int64.ofInt =
        if p then .ok (.ofInt z) else .error e := by
    split <;> rfl
  rw [Int.toString_eq_repr, Int.repr_eq_if]
  by_cases hz : 0 ≤ z
  · have hsigned : signed false z.toNat = z := Int.toNat_of_nonneg hz
    rw [if_pos hz, parseI64_of_digits Nat.toList_repr (hne _) (hdigits _), parseI64Digits_toDigits,
      hsigned, hmap, decide_eq_false (Int.not_lt.mpr hz)]
  · have hneg : z < 0 := Int.not_le.mp hz
    have hsigned : signed true (-z).toNat = z := by
      rw [signed, if_pos rfl, Int.toNat_of_nonneg (by omega), Int.neg_neg]
    have hs : ("-" ++ (-z).toNat.repr).toList = '-' :: Nat.toDigits 10 (-z).toNat := by
      rw [String.toList_append, Nat.toList_repr]
      rfl
    rw [if_neg hz, parseI64_of_minus hs (hne _), parseI64Digits_toDigits, hsigned, hmap,
      decide_eq_true hneg]

/-! ## The runs of the method -/

/-- What `account_sequence` makes of the number of an account. -/
def readSequence (z : ℤ) : Except SorobanUtilsError Int64 :=
  if IsI64 z then .ok (.ofInt z)
  else .error (.rpc s!"malformed account sequence number: {overflowText (decide (z < 0))}")

variable {sdk : Sdk} {client : Client} {accountId address : String} {x : Int64} {s s' : Ledger}
  {h : History Call Reply Ledger}

theorem readSequence_eq_ok {z : ℤ} (hx : readSequence z = .ok x) : x.toInt = z := by
  rw [readSequence] at hx
  split at hx
  · rename_i hz
    rw [← Except.ok.inj hx, ofInt_toInt hz]
  · cases hx

/-- **Reading a sequence number.** The method asks for the account once, and returns its number
where that is an `i64`. -/
theorem runs_accountSequence (sdk : Sdk) (client : Client) (accountId : String) (t : List Exchange)
    (o : Outcome (Except SorobanUtilsError Int64)) :
    Runs (client.accountSequence sdk accountId).run t o ↔
      t = [] ∧ o = .running ∨
      (∃ e, t = [⟨.getAccount accountId, .error e⟩] ∧ o = .returned (.error (rpcError sdk e))) ∨
      ∃ account : Account, t = [⟨.getAccount accountId, .ok account⟩] ∧
        o = .returned (readSequence account.sequence) := by
  have hread (account : Account) : ((parseI64 account.sequenceNumber).mapError fun e ↦
      .rpc s!"malformed account sequence number: {e}") = readSequence account.sequence := by
    rw [Account.sequenceNumber, parseI64_toString, readSequence]
    split <;> rfl
  rw [Client.accountSequence, runs_getAccount_bind]
  simp only [StartsWith, runs_lift, hread]
  refine or_congr_right (or_congr_right ⟨?_, ?_⟩)
  · rintro ⟨account, t, rfl, rfl, ho⟩
    exact ⟨account, rfl, ho⟩
  · rintro ⟨account, rfl, ho⟩
    exact ⟨account, [], rfl, rfl, ho⟩

/-! ## The next transaction -/

/-- As long as nothing is sent, a settled ledger stays as it is. -/
theorem Settled.eq_of_path (hs : Settled s) (hpath : (ledgerWorld sdk address).Path s h s')
    (hnone : ∀ y ∈ h, sentTransaction y.2 = none) : s' = s := by
  induction hpath with
  | nil s => rfl
  | @cons s s₁ s₂ s' x h hdrift hstep hrest ih =>
    obtain rfl := hs.eq_of_drift hdrift
    obtain ⟨-, rfl⟩ := hstep
    obtain ⟨hx, hnone⟩ := List.forall_mem_cons.mp hnone
    have hafter : s₁.after x = s₁ := by
      obtain ⟨c, r⟩ := x
      refine Ledger.after_of_ne_send (fun tx hc ↦ ?_) s₁ r
      subst hc
      cases hx
    rw [hafter] at ih
    exact ih hs hnone

/-- The first transaction of a history on a settled ledger is sent while that is as it was. -/
theorem Settled.exists_first_send {tx : Transaction} {rest : List Transaction} (hs : Settled s)
    (hpath : (ledgerWorld sdk address).Path s h s') (hsends : sends h.trace = tx :: rest) :
    ∃ r, (s, ⟨.sendTransaction tx, r⟩) ∈ h := by
  rw [sends, History.trace, List.filterMap_map] at hsends
  obtain ⟨h₁, ⟨s₁, x⟩, h₂, rfl, hnone, hx, -⟩ := List.filterMap_eq_cons_iff.mp hsends
  obtain ⟨s₂, hpath₁, hpath₂⟩ := World.path_append.mp hpath
  obtain rfl := hs.eq_of_path hpath₁ hnone
  cases hpath₂ with
  | cons hdrift _ _ =>
    obtain rfl := hs.eq_of_drift hdrift
    obtain ⟨c, r⟩ := x
    cases c with
    | sendTransaction tx' =>
      obtain rfl := Option.some.inj hx
      exact ⟨r, List.mem_append_cons_self⟩
    | _ => cases hx

/-- The first transaction that a method sends on a settled ledger carries the number after the
account's. -/
theorem Settled.next_of_perform {op : WriteOp} {t : List Exchange}
    {o : Outcome (Except SorobanUtilsError Unit)} {tx : Transaction} {rest : List Transaction}
    (hs : Settled s) (hrun : Runs (client.perform sdk op).run t o)
    (hpath : (ledgerWorld sdk address).Path s h s') (ht : h.trace = t)
    (hsends : sends t = tx :: rest) : tx.contents.sequence = s.sequence + 1 := by
  obtain ⟨r, hmem⟩ := hs.exists_first_send hpath (ht ▸ hsends)
  exact ((honesty sdk address).perform client op s h s' o hs hpath (ht ▸ hrun)).1 _ hmem

/-- Write methods that are called one after the other, the last one perhaps still running. What
became of their transactions is left open. -/
inductive WritesInTurn (sdk : Sdk) (client : Client) : List WriteOp → List Exchange → Prop
  | nil : WritesInTurn sdk client [] []
  | last (op : WriteOp) {t : List Exchange} {o : Outcome (Except SorobanUtilsError Unit)}
      (hrun : Runs (client.perform sdk op).run t o) : WritesInTurn sdk client [op] t
  | cons (op : WriteOp) {ops : List WriteOp} {t₁ t₂ : List Exchange}
      {x : Except SorobanUtilsError Unit}
      (hrun : Runs (client.perform sdk op).run t₁ (.returned x))
      (hrest : WritesInTurn sdk client ops t₂) : WritesInTurn sdk client (op :: ops) (t₁ ++ t₂)

theorem Session.writesInTurn {ops : List WriteOp} {t : List Exchange}
    (hsession : Session sdk client ops t) : WritesInTurn sdk client ops t := by
  induction hsession with
  | nil => exact .nil
  | last op hrun => exact .last op hrun
  | next op hrun _ _ ih => exact .cons op hrun ih

/-- Up to the first send nothing is on its way, so the ledger is the one that the first method that
sends finds. -/
theorem WritesInTurn.next {ops : List WriteOp} {t : List Exchange} {tx : Transaction}
    {rest : List Transaction} (hwrites : WritesInTurn sdk client ops t) (hs : Settled s)
    (hpath : (ledgerWorld sdk address).Path s h s') (ht : h.trace = t)
    (hsends : sends t = tx :: rest) : tx.contents.sequence = s.sequence + 1 := by
  induction hwrites generalizing s h with
  | nil => cases hsends
  | last op hrun => exact hs.next_of_perform hrun hpath ht hsends
  | @cons op ops t₁ t₂ x hrun _ ih =>
    obtain ⟨h₁, h₂, rfl, rfl, ht₂⟩ := List.map_eq_append_iff.mp ht
    obtain ⟨s₁, hpath₁, hpath₂⟩ := World.path_append.mp hpath
    rw [sends_append] at hsends
    cases hfirst : sends (List.map Prod.snd h₁) with
    | nil =>
      have hnone : ∀ y ∈ h₁, sentTransaction y.2 = none := fun y hy ↦
        List.filterMap_eq_nil_iff.mp hfirst y.2 (List.mem_map_of_mem hy)
      rw [hfirst, List.nil_append] at hsends
      obtain rfl := hs.eq_of_path hpath₁ hnone
      exact ih hs hpath₂ ht₂ hsends
    | cons tx' rest' =>
      rw [hfirst, List.cons_append] at hsends
      obtain ⟨rfl, -⟩ := List.cons.inj hsends
      exact hs.next_of_perform hrun hpath₁ rfl hfirst

/-- Below the last `i64` the number after an `i64` is one. -/
theorem toInt_add_one {x : Int64} (hx : x < Int64.maxValue) : (x + 1).toInt = x.toInt + 1 := by
  have hlt : x.toInt < 9223372036854775807 := Int64.lt_iff_toInt_lt.mp hx
  have hge : -9223372036854775808 ≤ x.toInt := Int64.minValue_le_toInt x
  have hone : (1 : Int64).toInt = 1 := rfl
  rw [Int64.toInt_add, hone]
  exact Int.bmod_eq_of_le (by omega) (by omega)

/-- **The number that is read is the one before the next.** On an account of which nothing is on its
way, what `account_sequence` returns is the number of the account, and the first transaction that
the write methods after it send carries the number after that: the next `i64`, unless it was the
last one. -/
theorem accountSequence_isBeforeNext (sdk : Sdk) (client : Client) (address : String)
    (ops : List WriteOp) (s s₁ s₂ : Ledger) (h₁ h₂ : History Call Reply Ledger) (x : Int64)
    (tx : Transaction) (rest : List Transaction) (hs : Settled s)
    (hpath₁ : (ledgerWorld sdk address).Path s h₁ s₁)
    (hread : Runs (client.accountSequence sdk address).run h₁.trace (.returned (.ok x)))
    (hpath₂ : (ledgerWorld sdk address).Path s₁ h₂ s₂)
    (hwrites : WritesInTurn sdk client ops h₂.trace) (hsends : sends h₂.trace = tx :: rest) :
    x.toInt = s.sequence ∧ tx.contents.sequence = x.toInt + 1 ∧
      (x < Int64.maxValue → tx.contents.sequence = (x + 1).toInt) := by
  obtain ⟨-, ho⟩ | ⟨e, -, ho⟩ | ⟨account, ht, ho⟩ := (runs_accountSequence ..).mp hread
  · cases ho
  · cases ho
  · obtain ⟨⟨s₃, _⟩, rfl, rfl⟩ := List.map_eq_singleton_iff.mp ht
    cases hpath₁ with
    | cons hdrift hstep hrest =>
      cases hrest
      obtain rfl := hs.eq_of_drift hdrift
      obtain ⟨hanswer, rfl⟩ := hstep
      have hx : x.toInt = s₁.sequence := by
        rw [readSequence_eq_ok (Outcome.returned.inj ho).symm, hanswer rfl]
      have hnext : tx.contents.sequence = x.toInt + 1 := by
        rw [hx]
        exact hwrites.next hs hpath₂ rfl hsends
      exact ⟨hx, hnext, fun hlast ↦ hnext.trans (toInt_add_one hlast).symm⟩

/-- A reading of the number before two uploads. -/
theorem accountSequence_isBeforeNext_uploads :
    (7 : Int64).toInt = (Ledger.start 7).sequence ∧
      (uploadFrom 7).contents.sequence = (7 : Int64).toInt + 1 ∧
      ((7 : Int64) < Int64.maxValue →
        (uploadFrom 7).contents.sequence = ((7 : Int64) + 1).toInt) := by
  refine accountSequence_isBeforeNext .sample .sample "G" _ (.start 7) (.start 7) _
    [(.start 7, ⟨.getAccount "G", .ok ⟨"G", 7⟩⟩)] twoUploads 7 (uploadFrom 7) [uploadFrom 8]
    ⟨Ledger.wellFormed_start 7, by simp [Ledger.start]⟩ ?_ ?_ path_twoUploads
    session_twoUploads.writesInTurn rfl
  · exact .cons .refl ⟨fun _ ↦ rfl, rfl⟩ (.nil _)
  · exact (runs_accountSequence ..).mpr (.inr (.inr ⟨⟨"G", 7⟩, rfl, rfl⟩))

end StellarRustClient
