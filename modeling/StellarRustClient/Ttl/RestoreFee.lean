import StellarRustClient.Ttl.Runs

/-!
# The fee of the restore

The node asks for a resource fee as an `i64`, and a transaction carries its fee as a `u32`.
`restore_entry` clamps twice on the way: the resource fee on its own, and its sum with the inclusion
fee. Together this is one clamp of the sum (`toNat_restoreFee`), so the bid covers what the node
asks for exactly as long as the sum is a `u32`; beyond that the restore is submitted all the same,
with the largest fee there is.
-/

namespace StellarRustClient

open Interaction

variable {sdk : Sdk} {networkPassphrase : String} {signer : Signer} {resourceFee : Int64}
  {restoreData : SorobanTransactionData} {pollCfg : PollConfig} {t : List Exchange}

/-- What the restore costs: the inclusion fee and the resource fee, where that is not negative. -/
def restoreCost (resourceFee : Int64) : ℕ :=
  minBaseFee.toNat + resourceFee.toInt.toNat

/-- Nothing is sent that bids less than what the restore costs. -/
def CoversCost (resourceFee : Int64) (t : List Exchange) : Prop :=
  ∀ tx ∈ sends t, restoreCost resourceFee ≤ tx.contents.fee.toNat

theorem toInt_max_zero (x : Int64) : (max x 0).toInt = x.toInt.toNat := by
  have hdef : max x 0 = if x ≤ 0 then 0 else x := rfl
  have hzero : (0 : Int64).toInt = 0 := rfl
  by_cases h : x ≤ 0
  · have hle : x.toInt ≤ 0 := hzero ▸ Int64.le_iff_toInt_le.mp h
    rw [hdef, if_pos h, hzero]
    omega
  · have hlt : ¬ x.toInt ≤ 0 := fun hle ↦ h (Int64.le_iff_toInt_le.mpr (hzero ▸ hle))
    rw [hdef, if_neg h]
    omega

/-- The clamps of the two summands and of their sum are one clamp of the sum. -/
theorem toNat_restoreFee (resourceFee : Int64) :
    (restoreFee resourceFee).toNat = min (restoreCost resourceFee) u32Max := by
  have hmax : u32Max = 4294967295 := rfl
  have hbase : minBaseFee.toNat = 100 := rfl
  have hclamp := toInt_max_zero resourceFee
  rw [restoreFee, saturatingAdd, restoreCost, UInt32.toNat_ofNat', hbase, u32TryFrom, hclamp, hmax]
  by_cases hfits : (resourceFee.toInt.toNat : ℤ) ≤ 4294967295
  · rw [if_pos ⟨by omega, hfits⟩, Option.getD_some, UInt32.toNat_ofNat']
    omega
  · rw [if_neg fun h ↦ hfits h.2, Option.getD_none, UInt32.toNat_ofNat']
    omega

/-- What the restore sends carries the fee computed from the preamble. -/
theorem RestoreRun.fee_eq {o : Outcome (Except SorobanUtilsError Unit)}
    (h : RestoreRun sdk networkPassphrase signer resourceFee restoreData pollCfg t o)
    (hsigner : SignerKeepsContents t) {tx : Transaction} (htx : tx ∈ sends t) :
    tx.contents.fee = restoreFee resourceFee := by
  cases h with
  | @submitted op hop account t o hleg =>
    obtain ⟨r, hmem⟩ := mem_sends.mp htx
    have hmem' : (⟨.sendTransaction tx, r⟩ : Exchange) ∈ t := by
      simpa using hmem
    obtain ⟨u, v, rfl⟩ := List.append_of_mem hmem'
    have hsign := hleg.send_position rfl
    have hsigned : (⟨.sign signer (restoreTransaction networkPassphrase op resourceFee restoreData
        account) networkPassphrase, .ok tx⟩ : Exchange) ∈
          ⟨.getAccount signer.publicKey, .ok account⟩ :: (u ++ ⟨.sendTransaction tx, r⟩ :: v) := by
      simp [hsign]
    rw [hsigner _ _ _ _ hsigned]
    rfl
  | _ => simp [sends, sentTransaction] at htx

/-- A restore that is sent as it was built, and whose send fails. -/
def sentRestore (networkPassphrase : String) (signer : Signer) (op : Operation)
    (resourceFee : Int64) (restoreData : SorobanTransactionData) : List Exchange :=
  let tx := restoreTransaction networkPassphrase op resourceFee restoreData ⟨signer.publicKey, 7⟩
  [⟨.getAccount signer.publicKey, .ok ⟨signer.publicKey, 7⟩⟩,
    ⟨.sign signer tx networkPassphrase, .ok tx⟩, ⟨.sendTransaction tx, .error (.other "")⟩]

theorem exists_runs_sentRestore {op : Operation} (hop : sdk.restoreFootprint = .ok op) :
    ∃ o, Runs (restoreEntry sdk networkPassphrase signer resourceFee restoreData pollCfg).run
      (sentRestore networkPassphrase signer op resourceFee restoreData) o :=
  ⟨_, runs_restoreEntry.mpr (.submitted op hop ⟨signer.publicKey, 7⟩ (.sendFailed _ (.other "")))⟩

theorem signerKeepsContents_sentRestore {op : Operation} : SignerKeepsContents
    (sentRestore networkPassphrase signer op resourceFee restoreData) := by
  intro signer' tx networkPassphrase' signed hmem
  simp only [sentRestore, List.mem_cons, List.not_mem_nil, or_false] at hmem
  obtain hmem | hmem | hmem := hmem
  · cases hmem
  · cases hmem
    rfl
  · cases hmem

/-- **The fee of the restore.** It covers the cost in every run, exactly when the cost is a
`u32`. -/
theorem coversCost_iff (hsdk : sdk.Lawful) :
    (∀ t o,
      Runs (restoreEntry sdk networkPassphrase signer resourceFee restoreData pollCfg).run t o →
      SignerKeepsContents t → CoversCost resourceFee t) ↔ restoreCost resourceFee ≤ u32Max := by
  have hclamp := toNat_restoreFee resourceFee
  constructor
  · intro hcovers
    obtain ⟨o, hrun⟩ := exists_runs_sentRestore hsdk.restoreFootprint
    -- The run that sends the restore as it was built bids the clamped fee.
    have hcost := hcovers _ o hrun signerKeepsContents_sentRestore _ List.mem_cons_self
    exact (hcost.trans_eq hclamp).trans (min_le_right _ _)
  · intro hfits t o hrun hsigner tx htx
    rw [(runs_restoreEntry.mp hrun).fee_eq hsigner htx, hclamp]
    exact le_min le_rfl hfits

/-! ## Two preambles -/

/-- The exchanges of a restore for the given resource fee. -/
def sampleRestore (resourceFee : Int64) : List Exchange :=
  sentRestore NetworkConfig.testnet.networkPassphrase .sample .restoreFootprint resourceFee
    (extendData (.contractCode zeroHash))

theorem exists_runs_sampleRestore (resourceFee : Int64) : ∃ o,
    Runs (restoreEntry .sample NetworkConfig.testnet.networkPassphrase .sample resourceFee
      (extendData (.contractCode zeroHash)) .default).run (sampleRestore resourceFee) o :=
  exists_runs_sentRestore rfl

theorem coversCost_sampleRestore : CoversCost 5000 (sampleRestore 5000) := by
  obtain ⟨o, hrun⟩ := exists_runs_sampleRestore 5000
  exact (coversCost_iff Sdk.sample_lawful).mpr (by decide) _ o hrun signerKeepsContents_sentRestore

/-- A resource fee that is a `u32`, with which the sum is not. -/
theorem restore_underbids : ∃ t o,
    Runs (restoreEntry .sample NetworkConfig.testnet.networkPassphrase .sample 4294967295
      (extendData (.contractCode zeroHash)) .default).run t o ∧
    SignerKeepsContents t ∧ ¬ CoversCost 4294967295 t := by
  obtain ⟨o, hrun⟩ := exists_runs_sampleRestore 4294967295
  refine ⟨_, o, hrun, signerKeepsContents_sentRestore, fun hcovers ↦ ?_⟩
  have hcost := hcovers _ List.mem_cons_self
  exact absurd hcost (by decide)

end StellarRustClient
