import StellarRustClient.Submission.Paths

/-!
# The life of an entry on the ledger

What the protocol does with the time to live of one entry that is not archived. The argument of
`ExtendFootprintTTL` is a number of ledgers, counted from the one the operation is applied at, and
an argument that would take the entry past the network's maximum is rejected.

`LiveEntry.afterRun` is the entry after the transactions that a run of the crate had confirmed.
-/

namespace StellarRustClient

/-- The ledger keys that a transaction only reads. -/
def TransactionContents.readOnly (tx : TransactionContents) : List LedgerKey :=
  (tx.sorobanData.map fun data ↦ data.resources.footprint.readOnly.toList).getD []

/-- An entry that is not archived, with what its life depends on. -/
structure LiveEntry where
  /-- The ledger that transactions are applied at. -/
  current : ℕ
  liveUntil : ℕ
  /-- The network's maximum entry TTL. -/
  maxEntryTtl : ℕ
  /-- The entry is not archived. -/
  live : current ≤ liveUntil

namespace LiveEntry

/-- An argument of `ExtendFootprintTTL` that the network does not take. -/
def Rejects (s : LiveEntry) (n : UInt32) : Prop :=
  s.maxEntryTtl - 1 < n.toNat

instance (s : LiveEntry) (n : UInt32) : Decidable (s.Rejects n) :=
  inferInstanceAs (Decidable (_ < _))

/-- `ExtendFootprintTTL` on the entry. -/
def extend (s : LiveEntry) (n : UInt32) : LiveEntry :=
  if s.Rejects n then s
  else
    { s with
      liveUntil := max s.liveUntil (s.current + n.toNat)
      live := s.live.trans (Nat.le_max_left _ _) }

/-- An operation of a transaction that has the entry in its footprint. A restore leaves a live entry
as it is. -/
def applyOperation (s : LiveEntry) : Operation → LiveEntry
  | .extendFootprintTtl n => s.extend n
  | _ => s

open Classical in
/-- A transaction extends the entries of its read-only footprint. -/
noncomputable def apply (key : LedgerKey) (s : LiveEntry) (tx : TransactionContents) : LiveEntry :=
  if key ∈ tx.readOnly then tx.operations.foldl applyOperation s else s

open Classical in
/-- The transactions of a run that were polled as a success, in the order they were sent. -/
noncomputable def confirmed (sdk : Sdk) (t : List Exchange) : List TransactionContents :=
  ((sends t).filter fun tx ↦ PolledSuccess sdk tx t).map Transaction.contents

/-- The entry after a run. -/
noncomputable def afterRun (sdk : Sdk) (key : LedgerKey) (s : LiveEntry) (t : List Exchange) :
    LiveEntry :=
  (confirmed sdk t).foldl (apply key) s

variable {sdk : Sdk} {key : LedgerKey} {s : LiveEntry} {n : UInt32} {t : List Exchange}

theorem liveUntil_extend (h : ¬ s.Rejects n) :
    (s.extend n).liveUntil = max s.liveUntil (s.current + n.toNat) := by
  rw [extend, if_neg h]

theorem liveUntil_le_extend (s : LiveEntry) (n : UInt32) :
    s.liveUntil ≤ (s.extend n).liveUntil := by
  by_cases h : s.Rejects n
  · rw [extend, if_pos h]
  · rw [liveUntil_extend h]
    exact Nat.le_max_left _ _

/-- No transaction shortens the life of an entry. -/
theorem liveUntil_le_apply (s : LiveEntry) (key : LedgerKey) (tx : TransactionContents) :
    s.liveUntil ≤ (s.apply key tx).liveUntil := by
  have hops (l : List Operation) (s : LiveEntry) :
      s.liveUntil ≤ (l.foldl applyOperation s).liveUntil := by
    induction l generalizing s with
    | nil => exact le_rfl
    | cons op l ih =>
      refine le_trans ?_ (ih (s.applyOperation op))
      cases op with
      | extendFootprintTtl n => exact s.liveUntil_le_extend n
      | _ => exact le_rfl
  rw [apply]
  split
  · exact hops tx.operations s
  · exact le_rfl

/-- A number of ledgers is taken for the ledger of that number only at the very first ledger, or
where neither moves the entry. -/
theorem liveUntil_extend_eq_iff (h : ¬ s.Rejects n) :
    (s.extend n).liveUntil = max s.liveUntil n.toNat ↔
      s.current = 0 ∨ s.current + n.toNat ≤ s.liveUntil := by
  rw [liveUntil_extend h]
  have := s.live
  omega

theorem apply_restore {tx : TransactionContents} (hops : tx.operations = [.restoreFootprint]) :
    s.apply key tx = s := by
  rw [apply, hops]
  exact ite_self s

theorem apply_extend {tx : TransactionContents} (hkey : key ∈ tx.readOnly)
    (hops : tx.operations = [.extendFootprintTtl n]) : s.apply key tx = s.extend n := by
  rw [apply, if_pos hkey, hops]
  rfl

theorem foldl_apply_restores {l : List TransactionContents}
    (hops : ∀ tx ∈ l, tx.operations = [.restoreFootprint]) : l.foldl (apply key) s = s := by
  induction l with
  | nil => rfl
  | cons tx l ih =>
    rw [List.foldl_cons, apply_restore (hops tx List.mem_cons_self)]
    exact ih fun tx' hmem ↦ hops tx' (List.mem_cons_of_mem _ hmem)

/-- Restores, confirmed or not, and then a confirmed extend move the entry as the extend does. -/
theorem afterRun_of_sends (restores : List Transaction) {tx : Transaction}
    (hsends : sends t = restores ++ [tx]) (hpolled : PolledSuccess sdk tx t)
    (hrestores : ∀ r ∈ restores, r.contents.operations = [.restoreFootprint])
    (hkey : key ∈ tx.contents.readOnly)
    (hops : tx.contents.operations = [.extendFootprintTtl n]) :
    s.afterRun sdk key t = s.extend n := by
  classical
  have hfilter : [tx].filter (fun tx ↦ PolledSuccess sdk tx t) = [tx] :=
    List.filter_cons_of_pos (by simpa using hpolled)
  have hkept : ∀ c ∈ (restores.filter fun tx ↦ PolledSuccess sdk tx t).map Transaction.contents,
      c.operations = [.restoreFootprint] := by
    intro c hmem
    obtain ⟨r, hr, rfl⟩ := List.mem_map.mp hmem
    exact hrestores r (List.mem_of_mem_filter hr)
  rw [afterRun, confirmed, hsends, List.filter_append, hfilter, List.map_append,
    List.foldl_append, foldl_apply_restores hkept]
  exact apply_extend hkey hops

end LiveEntry

end StellarRustClient
