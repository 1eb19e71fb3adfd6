import StellarRustClient.Deploy.Runs
import StellarRustClient.Invoke.Report

/-!
# What is bid on a reported fee

The node reports a fee as a string of any length, and a fee is a `u32`. A report that is no `u32`,
because it is no number or because it is too large a one, is an error of
`recommended_inclusion_fee`, which its callers replace by the floor. So the floor holds exactly for
the reports that are a `u32`, and the bid falls where the reported number leaves the range.
-/

namespace StellarRustClient

open Interaction

/-! ## Decimal strings -/

/-- `s` is a decimal string of the number `n`: digits, with an optional `+` before them. -/
def Denotes (s : String) (n : ℕ) : Prop :=
  ∃ digits, (s.toList = digits ∨ s.toList = '+' :: digits) ∧ digits ≠ [] ∧
    (∀ c ∈ digits, c.isDigit) ∧ Nat.ofDigitChars 10 digits 0 = n

theorem Denotes.unique {s : String} {n n' : ℕ} (h : Denotes s n) (h' : Denotes s n') : n = n' := by
  obtain ⟨digits, hs, hne, hdigits, rfl⟩ := h
  obtain ⟨digits', hs', hne', hdigits', rfl⟩ := h'
  have hplus {l l' : List Char} (hl : ∀ c ∈ l, c.isDigit) : l ≠ '+' :: l' := by
    rintro rfl
    exact absurd (hl '+' List.mem_cons_self) (by decide)
  obtain hs | hs := hs <;> obtain hs' | hs' := hs' <;> rw [hs] at hs'
  · rw [hs']
  · exact absurd hs' (hplus hdigits)
  · exact absurd hs'.symm (hplus hdigits')
  · rw [(List.cons.inj hs').2]

theorem le_ofDigitChars (cs : List Char) (acc : ℕ) : acc ≤ Nat.ofDigitChars 10 cs acc := by
  rw [Nat.ofDigitChars_eq_ofDigitChars_zero]
  have hpow : 1 ≤ 10 ^ cs.length := Nat.one_le_pow _ _ (by decide)
  calc acc = 1 * acc := (one_mul acc).symm
    _ ≤ 10 ^ cs.length * acc := Nat.mul_le_mul_right acc hpow
    _ ≤ 10 ^ cs.length * acc + Nat.ofDigitChars 10 cs 0 := Nat.le_add_right _ _

/-- The value only grows from digit to digit, so checking it after each of them is as good as
checking it at the end. -/
theorem parseDigits_eq_ok {cs : List Char} {acc n : ℕ} (hacc : acc ≤ u32Max) :
    parseDigits acc cs = .ok n ↔
      (∀ c ∈ cs, c.isDigit) ∧ Nat.ofDigitChars 10 cs acc = n ∧ n ≤ u32Max := by
  induction cs generalizing acc with
  | nil =>
    simp only [parseDigits, Except.ok.injEq, List.not_mem_nil, false_implies, implies_true,
      true_and, Nat.ofDigitChars_nil]
    exact ⟨fun h ↦ ⟨h, h ▸ hacc⟩, And.left⟩
  | cons c cs ih =>
    rw [parseDigits, List.forall_mem_cons, Nat.ofDigitChars_cons]
    by_cases hdigit : c.isDigit
    · rw [if_pos hdigit]
      by_cases hfits : 10 * acc + (c.toNat - '0'.toNat) ≤ u32Max
      · rw [if_pos hfits, ih hfits, and_iff_right hdigit]
      · rw [if_neg hfits]
        refine iff_of_false (by simp) ?_
        rintro ⟨-, rfl, hle⟩
        exact hfits ((le_ofDigitChars cs _).trans hle)
    · rw [if_neg hdigit]
      exact iff_of_false (by simp) fun h ↦ hdigit h.1.1

private theorem map_parseDigits_eq_ok {digits : List Char} {x : UInt32} :
    (parseDigits 0 digits).map UInt32.ofNat = .ok x ↔
      (∀ c ∈ digits, c.isDigit) ∧ Nat.ofDigitChars 10 digits 0 = x.toNat := by
  have hx : x.toNat ≤ u32Max := Nat.le_of_lt_succ x.toNat_lt
  have hspec {n : ℕ} : parseDigits 0 digits = .ok n ↔
      (∀ c ∈ digits, c.isDigit) ∧ Nat.ofDigitChars 10 digits 0 = n ∧ n ≤ u32Max :=
    parseDigits_eq_ok (Nat.zero_le _)
  cases h : parseDigits 0 digits with
  | error e =>
    refine iff_of_false (by simp [Except.map]) fun hdigits ↦ ?_
    cases h.symm.trans (hspec.mpr ⟨hdigits.1, hdigits.2, hx⟩)
  | ok n =>
    obtain ⟨hdigits, hn, hle⟩ := hspec.mp h
    rw [Except.map, Except.ok.injEq, hn, and_iff_right hdigits]
    constructor
    · rintro rfl
      exact (UInt32.toNat_ofNat_of_lt' (Nat.lt_succ_of_le hle)).symm
    · rintro rfl
      exact UInt32.ofNat_toNat

/-- **Parsing.** What is read is the number that the string denotes. -/
theorem parseU32_eq_ok {s : String} {x : UInt32} : parseU32 s = .ok x ↔ Denotes s x.toNat := by
  rw [parseU32, Denotes]
  split
  next hs => simp [hs]
  next hs =>
    refine iff_of_false (by simp) ?_
    rintro ⟨digits, h | h, hne, hdigits, -⟩ <;> rw [hs] at h
    · exact absurd (hdigits '+' (h ▸ List.mem_cons_self)) (by decide)
    · exact hne (List.cons.inj h).2.symm
  next digits hne hs =>
    rw [map_parseDigits_eq_ok]
    constructor
    · rintro ⟨hdigits, hx⟩
      exact ⟨digits, .inr hs, fun h ↦ hne (h ▸ rfl), hdigits, hx⟩
    · rintro ⟨digits', h | h, -, hdigits, hx⟩ <;> rw [hs] at h
      · exact absurd (hdigits '+' (h ▸ List.mem_cons_self)) (by decide)
      · rw [(List.cons.inj h).2]
        exact ⟨hdigits, hx⟩
  next digits hnil hplus hplus' =>
    rw [map_parseDigits_eq_ok]
    constructor
    · rintro ⟨hdigits, hx⟩
      exact ⟨_, .inl rfl, hnil, hdigits, hx⟩
    · rintro ⟨digits', h | h, -, hdigits, hx⟩
      · rw [h]
        exact ⟨hdigits, hx⟩
      · exact absurd h (hplus' digits')

theorem parseU32_of_denotes {s : String} {n : ℕ} (hn : Denotes s n) (hle : n ≤ u32Max) :
    parseU32 s = .ok (.ofNat n) := by
  rw [parseU32_eq_ok, UInt32.toNat_ofNat_of_lt' (Nat.lt_succ_of_le hle)]
  exact hn

/-! ## The floor -/

private theorem toNat_max (a b : UInt32) : (max a b).toNat = max a.toNat b.toNat := by
  have hmax : max a b = if a ≤ b then b else a := rfl
  by_cases hle : a ≤ b
  · rw [hmax, if_pos hle, max_eq_right (UInt32.le_iff_toNat_le.mp hle)]
  · rw [hmax, if_neg hle, max_eq_left]
    exact Nat.le_of_not_le fun h ↦ hle (UInt32.le_iff_toNat_le.mpr h)

/-- What `recommended_inclusion_fee` returns for a report. -/
def recommendation (p90 : String) : Except SorobanUtilsError UInt32 :=
  match parseU32 p90 with
  | .ok fee => .ok (max fee minBaseFee)
  | .error e => .error (.rpc s!"failed to parse fee stats p90: {e.display}")

/-- The run of `recommendedInclusionFee` on a report. -/
theorem runs_recommendedInclusionFee {sdk : Sdk} {p90 : String}
    {o : Outcome (Except SorobanUtilsError UInt32)} :
    Runs (recommendedInclusionFee sdk).run [⟨.getFeeStats, .ok ⟨p90⟩⟩] o ↔
      o = .returned (recommendation p90) := by
  have hlift (stats : FeeStats) :
      (Prog.lift ((parseU32 stats.p90).mapError fun e ↦
          .rpc s!"failed to parse fee stats p90: {e.display}") >>=
        fun fee ↦ pure (max fee minBaseFee) : Async UInt32) =
        Prog.lift (recommendation stats.p90) := by
    rw [recommendation]
    cases parseU32 stats.p90 <;> rfl
  rw [recommendedInclusionFee, runs_ask_bind]
  simp only [hlift, runs_lift]
  simp [Except.mapError]

/-- The floor and the fallback to it, as `recommended_inclusion_fee` documents them. -/
def MeetsFloor (p90 : String) (o : Outcome (Except SorobanUtilsError UInt32)) : Prop :=
  ∃ fee, o = .returned (.ok fee) ∧ minBaseFee ≤ fee ∧
    ((∀ n, Denotes p90 n → n < minBaseFee.toNat) → fee = minBaseFee)

theorem meetsFloor_iff {sdk : Sdk} {p90 : String} {o : Outcome (Except SorobanUtilsError UInt32)}
    (h : Runs (recommendedInclusionFee sdk).run [⟨.getFeeStats, .ok ⟨p90⟩⟩] o) :
    MeetsFloor p90 o ↔ ∃ n, Denotes p90 n ∧ n ≤ u32Max := by
  obtain rfl := runs_recommendedInclusionFee.mp h
  cases hparse : parseU32 p90 with
  | error e =>
    -- A report that is not read is an error, whatever the reason.
    refine iff_of_false ?_ ?_
    · rintro ⟨fee, hfee, -⟩
      simp [recommendation, hparse] at hfee
    · rintro ⟨n, hn, hle⟩
      cases hparse.symm.trans (parseU32_of_denotes hn hle)
  | ok p =>
    have hp : Denotes p90 p.toNat := parseU32_eq_ok.mp hparse
    refine iff_of_true ⟨max p minBaseFee, ?_, ?_, fun hlow ↦ ?_⟩
      ⟨p.toNat, hp, Nat.le_of_lt_succ p.toNat_lt⟩
    · rw [recommendation, hparse]
    · rw [UInt32.le_iff_toNat_le, toNat_max]
      exact le_max_right _ _
    · rw [← UInt32.toNat_inj, toNat_max]
      exact max_eq_right (hlow _ hp).le

/-! ## The bid -/

/-- What is bid on a report: the number, unless it is below the floor or no `u32`. -/
theorem toNat_feeBid {p90 : String} {n : ℕ} (hn : Denotes p90 n) :
    (feeBid (.ok ⟨p90⟩)).toNat =
      if n ≤ u32Max then max n minBaseFee.toNat else minBaseFee.toNat := by
  simp only [feeBid]
  cases hparse : parseU32 p90 with
  | error e =>
    have hlarge : ¬n ≤ u32Max := by
      intro hle
      cases hparse.symm.trans (parseU32_of_denotes hn hle)
    rw [if_neg hlarge]
    rfl
  | ok p =>
    have hp : p.toNat = n := (parseU32_eq_ok.mp hparse).unique hn
    have hle : n ≤ u32Max := hp ▸ Nat.le_of_lt_succ p.toNat_lt
    rw [if_pos hle, ← hp]
    exact toNat_max p minBaseFee

/-- A call of one of the three functions that bid a fee on a report. -/
inductive BiddingCall
  | uploadWasm (networkPassphrase : String) (signer : Signer) (wasm : ByteArray)
      (pollCfg : PollConfig)
  | createContractInstance (networkPassphrase : String) (signer : Signer) (wasmHash : Hash)
      (constructorArgs : List ScVal) (pollCfg : PollConfig)
  | invokeContract (networkPassphrase : String) (signer : Signer)
      (contractAddress functionName : String) (args : List ScVal) (pollCfg : PollConfig)

namespace BiddingCall

variable (sdk : Sdk)

/-- The type of the value that the call gives. -/
@[reducible] def Value : BiddingCall → Type
  | uploadWasm .. => Hash
  | createContractInstance .. => String
  | invokeContract .. => InvokeOutcome

/-- The call. -/
def call : (c : BiddingCall) → Async c.Value
  | uploadWasm networkPassphrase signer wasm pollCfg =>
    StellarRustClient.uploadWasm sdk networkPassphrase signer wasm pollCfg
  | createContractInstance networkPassphrase signer wasmHash constructorArgs pollCfg =>
    StellarRustClient.createContractInstance sdk networkPassphrase signer wasmHash constructorArgs
      pollCfg
  | invokeContract networkPassphrase signer contractAddress functionName args pollCfg =>
    StellarRustClient.invokeContract sdk networkPassphrase signer contractAddress functionName args
      pollCfg

/-- On the report `p90` the call can ask to prepare a transaction that bids `fee`. -/
def Bids (c : BiddingCall) (p90 : String) (fee : UInt32) : Prop :=
  ∃ t o q r, Runs (c.call sdk).run t o ∧ (⟨.getFeeStats, .ok ⟨p90⟩⟩ : Exchange) ∈ t ∧
    (⟨.prepareTransaction q, r⟩ : Exchange) ∈ t ∧ q.contents.fee = fee

variable {sdk}

section

variable {networkPassphrase : String} {signer : Signer} {op : Operation} {pollCfg : PollConfig}
  {t : List Exchange} {p90 : String} {q : Transaction} {r : Except RpcError Transaction}

private theorem eq_feeBid_of_submitted {stats : Except RpcError FeeStats} {o : SubmissionOutcome}
    (hsend : PrepareAndSendRun sdk networkPassphrase signer.publicKey op (feeBid stats) signer
      pollCfg t o)
    (hstats : (⟨.getFeeStats, .ok ⟨p90⟩⟩ : Exchange) ∈ (⟨.getFeeStats, stats⟩ : Exchange) :: t)
    (hq : (⟨.prepareTransaction q, r⟩ : Exchange) ∈ (⟨.getFeeStats, stats⟩ : Exchange) :: t) :
    q.contents.fee = feeBid (.ok ⟨p90⟩) := by
  obtain ⟨account, rfl⟩ := hsend.prepare_eq (List.mem_of_ne_of_mem (by simp) hq)
  obtain hstats | hstats := List.mem_cons.mp hstats
  · cases hstats
    rfl
  · -- The submission itself does not ask for fee statistics.
    obtain hpreamble | hleg := hsend.calls _ hstats
    · exact hpreamble.elim
    · exact hleg.elim

private theorem eq_feeBid_of_decodedRun {β : Type} {decode : ScVal → Except SorobanUtilsError β}
    {o : Outcome (Except SorobanUtilsError β)}
    (h : DecodedRun sdk networkPassphrase signer op pollCfg decode t o)
    (hstats : (⟨.getFeeStats, .ok ⟨p90⟩⟩ : Exchange) ∈ t)
    (hq : (⟨.prepareTransaction q, r⟩ : Exchange) ∈ t) :
    q.contents.fee = feeBid (.ok ⟨p90⟩) := by
  cases h with
  | bidding => cases hstats
  | submitted stats hsend => exact eq_feeBid_of_submitted hsend hstats hq

end

/-- **The bid.** It depends on the report only. -/
theorem Bids.eq_feeBid {c : BiddingCall} {p90 : String} {fee : UInt32} (h : Bids sdk c p90 fee) :
    fee = feeBid (.ok ⟨p90⟩) := by
  obtain ⟨t, o, q, r, hrun, hstats, hq, rfl⟩ := h
  cases c with
  | uploadWasm networkPassphrase signer wasm pollCfg =>
    cases runs_uploadWasm.mp hrun with
    | notBuilt e hop => cases hstats
    | built op hop hdecoded => exact eq_feeBid_of_decodedRun hdecoded hstats hq
  | createContractInstance networkPassphrase signer wasmHash constructorArgs pollCfg =>
    cases runs_createContractInstance.mp hrun with
    | salting => cases hstats
    | notBuilt salt e hop => simp at hstats
    | built salt op hop hdecoded =>
      exact eq_feeBid_of_decodedRun hdecoded (List.mem_of_ne_of_mem (by simp) hstats)
        (List.mem_of_ne_of_mem (by simp) hq)
  | invokeContract networkPassphrase signer contractAddress functionName args pollCfg =>
    cases runs_invokeContract.mp hrun with
    | submitted op hop account simulation herr hne stats hsend =>
      have hstats' := List.mem_of_ne_of_mem (by simp) (List.mem_of_ne_of_mem (by simp) hstats)
      have hq' := List.mem_of_ne_of_mem (by simp) (List.mem_of_ne_of_mem (by simp) hq)
      exact eq_feeBid_of_submitted hsend hstats' hq'
    | _ => simp at hstats

/-- A higher report lowers the bid exactly when it leaves the range from above the floor. -/
theorem Bids.le_iff {c c' : BiddingCall} {p90 p90' : String} {fee fee' : UInt32} {n n' : ℕ}
    (h : Bids sdk c p90 fee) (h' : Bids sdk c' p90' fee') (hn : Denotes p90 n)
    (hn' : Denotes p90' n') (hle : n ≤ n') :
    fee ≤ fee' ↔ ¬(minBaseFee.toNat < n ∧ n ≤ u32Max ∧ u32Max < n') := by
  have hfee := toNat_feeBid hn
  have hfee' := toNat_feeBid hn'
  rw [← h.eq_feeBid] at hfee
  rw [← h'.eq_feeBid] at hfee'
  rw [UInt32.le_iff_toNat_le, hfee, hfee']
  split_ifs <;> omega

/-- A call that uploads something bids on every report. -/
theorem exists_bids_upload {networkPassphrase : String} {signer : Signer} {wasm : ByteArray}
    {pollCfg : PollConfig} {op : Operation} (hop : sdk.uploadWasm wasm = .ok op) (p90 : String) :
    Bids sdk (.uploadWasm networkPassphrase signer wasm pollCfg) p90 (feeBid (.ok ⟨p90⟩)) := by
  have hsend : PrepareAndSendRun sdk networkPassphrase signer.publicKey op (feeBid (.ok ⟨p90⟩))
      signer pollCfg _ _ := .prepareFailed ⟨signer.publicKey, 7⟩ (.other "")
  refine ⟨_, _, unprepared networkPassphrase op (feeBid (.ok ⟨p90⟩)) ⟨signer.publicKey, 7⟩,
    .error (.other ""), runs_uploadWasm.mpr (.built op hop (.submitted (.ok ⟨p90⟩) hsend)),
    ?_, ?_, rfl⟩
  · exact List.mem_cons_self
  · simp

end BiddingCall

open BiddingCall in
/-- **Inclusion fees.** The floor holds exactly for the reports that are a `u32`, and a higher
report never lowers the bid unless it is too large for a `u32` where the lower one is not. -/
theorem inclusionFees {sdk : Sdk} :
    (∀ p90 o, Runs (recommendedInclusionFee sdk).run [⟨.getFeeStats, .ok ⟨p90⟩⟩] o →
      (MeetsFloor p90 o ↔ ∃ n, Denotes p90 n ∧ n ≤ u32Max)) ∧
    ∀ c c' p90 p90' fee fee' n n', Bids sdk c p90 fee → Bids sdk c' p90' fee' →
      Denotes p90 n → Denotes p90' n' → n ≤ n' →
      (fee ≤ fee' ↔ ¬(minBaseFee.toNat < n ∧ n ≤ u32Max ∧ u32Max < n')) :=
  ⟨fun _ _ h ↦ meetsFloor_iff h, fun _ _ _ _ _ _ _ _ h h' hn hn' hle ↦ h.le_iff h' hn hn' hle⟩

theorem denotes_200 : Denotes "200" 200 :=
  ⟨['2', '0', '0'], .inl rfl, by simp, by simp, by simp [Nat.ofDigitChars_cons]⟩

/-- An upload for the sample network. -/
def sampleBiddingCall : BiddingCall :=
  .uploadWasm NetworkConfig.testnet.networkPassphrase .sample .empty .default

theorem bids_sampleBiddingCall (p90 : String) :
    sampleBiddingCall.Bids .sample p90 (feeBid (.ok ⟨p90⟩)) :=
  BiddingCall.exists_bids_upload rfl p90

/-- A report in the range meets the floor, and a higher one in the range is bid no less on. -/
theorem inclusionFees_inRange :
    MeetsFloor "200" (.returned (.ok 200)) ∧
      feeBid (.ok ⟨"200"⟩) ≤ feeBid (.ok ⟨"+4294967295"⟩) := by
  have hmax : Denotes "+4294967295" 4294967295 :=
    ⟨['4', '2', '9', '4', '9', '6', '7', '2', '9', '5'], .inr rfl, by simp, by simp,
      by simp [Nat.ofDigitChars_cons]⟩
  have hrun : Runs (recommendedInclusionFee .sample).run [⟨.getFeeStats, .ok ⟨"200"⟩⟩]
      (.returned (.ok 200)) :=
    runs_recommendedInclusionFee.mpr rfl
  refine ⟨(inclusionFees.1 "200" _ hrun).mpr ⟨200, denotes_200, by decide⟩, ?_⟩
  exact (inclusionFees.2 _ _ _ _ _ _ 200 4294967295 (bids_sampleBiddingCall "200")
    (bids_sampleBiddingCall "+4294967295") denotes_200 hmax (by decide)).mpr (by decide)

/-- A report that is no number is an error, and one above the range is bid the floor on. -/
theorem report_lowers_bid :
    (∃ o, Runs (recommendedInclusionFee .sample).run [⟨.getFeeStats, .ok ⟨"n/a"⟩⟩] o ∧
      ¬MeetsFloor "n/a" o) ∧
    ∃ c fee fee', BiddingCall.Bids .sample c "200" fee ∧
      BiddingCall.Bids .sample c "4294967296" fee' ∧
      Denotes "200" 200 ∧ Denotes "4294967296" 4294967296 ∧ ¬fee ≤ fee' := by
  have hhigh : Denotes "4294967296" 4294967296 :=
    ⟨['4', '2', '9', '4', '9', '6', '7', '2', '9', '6'], .inl rfl, by simp, by simp,
      by simp [Nat.ofDigitChars_cons]⟩
  refine ⟨⟨_, runs_recommendedInclusionFee.mpr rfl, ?_⟩, _, _, _, bids_sampleBiddingCall "200",
    bids_sampleBiddingCall "4294967296", denotes_200, hhigh, ?_⟩
  · rintro ⟨fee, hfee, -⟩
    have herror : recommendation "n/a" =
        .error (.rpc "failed to parse fee stats p90: invalid digit found in string") := rfl
    rw [herror] at hfee
    cases hfee
  · rw [UInt32.le_iff_toNat_le, toNat_feeBid denotes_200, toNat_feeBid hhigh]
    decide

end StellarRustClient
