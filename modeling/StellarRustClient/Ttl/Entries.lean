import StellarRustClient.Network
import StellarRustClient.Ttl.LiveEntry

/-!
# The entries of the network

The life of the entries as the state of a network: ledgers close, extends and restores are applied,
and anyone else writes, restores and extends entries in between. An extend finds each entry of its
footprint live, as a `LiveEntry`, or passes over it; a restore takes those that are archived.

The one thing that is asked of everybody else is that no entry of the set `kept` is removed or cut
short: code and instances never are, and a data entry is not unless its contract does so. Whatever
happens then only `Prolongs` the life of such an entry.
-/

namespace StellarRustClient

open Interaction

/-- What the network fixes for the life of all entries. -/
structure ArchivalSettings where
  minPersistentTtl : ℕ
  maxEntryTtl : ℕ

/-- The ledger keys that a transaction writes. -/
def TransactionContents.readWrite (tx : TransactionContents) : List LedgerKey :=
  (tx.sorobanData.map fun data ↦ data.resources.footprint.readWrite.toList).getD []

/-- A temporary entry is gone once it has expired. -/
def LedgerKey.IsTemporary : LedgerKey → Prop
  | .contractData _ _ .temporary => True
  | _ => False

/-- The network as its entries see it. -/
structure Entries where
  /-- The ledger that transactions are applied at. -/
  current : ℕ
  /-- The last ledger in the life of an entry that there is, which may have passed. -/
  liveUntil : LedgerKey → Option ℕ

namespace Entries

/-- The life of an entry goes on to the ledger `n` at least. -/
def LivesUntil (s : Entries) (key : LedgerKey) (n : ℕ) : Prop :=
  ∃ m, s.liveUntil key = some m ∧ n ≤ m

/-- The life of an entry has ended, and it is one that can be restored. -/
def Archived (s : Entries) (key : LedgerKey) : Prop :=
  ¬ key.IsTemporary ∧ ∃ n, s.liveUntil key = some n ∧ n < s.current

/-- What the network takes: extends that ask for no more than its maximum, and restores of entries
that can be restored. -/
structure Takes (settings : ArchivalSettings) (c : TransactionContents) : Prop where
  extendTo : ∀ n, .extendFootprintTtl n ∈ c.operations → n.toNat ≤ settings.maxEntryTtl - 1
  restored : .restoreFootprint ∈ c.operations → ∀ key ∈ c.readWrite, ¬ key.IsTemporary

/-- A restore has the entry in its footprint. -/
def Restores (c : TransactionContents) (key : LedgerKey) : Prop :=
  c.operations = [.restoreFootprint] ∧ key ∈ c.readWrite

open Classical in
/-- The end of the life of an entry after the success of `c`, if it was `n` before. -/
noncomputable def liveUntilAfter (settings : ArchivalSettings) (current : ℕ) (key : LedgerKey)
    (c : TransactionContents) (n : ℕ) : ℕ :=
  if h : current ≤ n then
    (LiveEntry.apply key ⟨current, n, settings.maxEntryTtl, h⟩ c).liveUntil
  else if Restores c key then current + settings.minPersistentTtl - 1
  else n

/-- The entries after the success of `c`. -/
noncomputable def apply (settings : ArchivalSettings) (s : Entries) (c : TransactionContents) :
    Entries :=
  { s with liveUntil := fun key ↦ (s.liveUntil key).map (liveUntilAfter settings s.current key c) }

/-- The end of the life of an entry moves from `n` to `m`: never back, and not by less than a
restore gives if it had passed. -/
def Prolongs (settings : ArchivalSettings) (current n m : ℕ) : Prop :=
  n ≤ m ∧ (n < current → m = n ∨ current + settings.minPersistentTtl - 1 ≤ m)

/-- What may happen to the entries otherwise. -/
inductive Others (settings : ArchivalSettings) (kept : Set LedgerKey) : Entries → Entries → Prop
  | close (s : Entries) : Others settings kept s { s with current := s.current + 1 }
  | write (s : Entries) (f : LedgerKey → Option ℕ)
      (hf : ∀ key ∈ kept, ∀ n, s.liveUntil key = some n →
        ∃ m, f key = some m ∧ Prolongs settings s.current n m) :
      Others settings kept s { s with liveUntil := f }

/-- A node prepares what it is given with the footprint that it has, asks for a restoration of the
archived entries of an extend if there are any, and reports an entry that is live with the end of
its life. -/
def Reports (s : Entries) : Exchange → Prop
  | ⟨.prepareTransaction q, .ok prepared⟩ =>
    q.contents.sorobanData ≠ none → prepared.contents.readOnly = q.contents.readOnly
  | ⟨.prepareTransaction q, .error (.restorationRequired _ data)⟩ =>
    ∀ n, q.contents.operations = [.extendFootprintTtl n] →
      (∃ key ∈ q.contents.readOnly, s.Archived key) ∧
      ∀ key ∈ q.contents.readOnly, s.Archived key →
        key ∈ data.resources.footprint.readWrite.toList
  | ⟨.getLedgerEntries [key], .ok entries⟩ => ∀ n, s.liveUntil key = some n → s.current ≤ n →
    ((entries.bind List.head?).bind LedgerEntryResult.liveUntilLedgerSeq).map UInt32.toNat = some n
  | _ => True

end Entries

/-- The entries under the transactions of the network. -/
def entriesProtocol (settings : ArchivalSettings) (kept : Set LedgerKey) : Protocol Entries where
  succeeds c _ s s' := Entries.Takes settings c ∧ s' = s.apply settings c
  others := Entries.Others settings kept
  reports := Entries.Reports

namespace Entries

variable {settings : ArchivalSettings} {kept : Set LedgerKey} {key : LedgerKey} {s s' : Entries}
  {c : TransactionContents} {v : Option ScVal} {n : ℕ}

theorem LivesUntil.mono {m : ℕ} (h : s.LivesUntil key n) (hle : m ≤ n) : s.LivesUntil key m := by
  obtain ⟨k, hk, hn⟩ := h
  exact ⟨k, hk, hle.trans hn⟩

/-! ## What happens to an entry -/

theorem liveUntil_apply (hn : s.liveUntil key = some n) :
    (s.apply settings c).liveUntil key = some (liveUntilAfter settings s.current key c n) := by
  rw [apply]
  exact congrArg (Option.map _) hn

theorem liveUntilAfter_of_le {current : ℕ} (h : current ≤ n) :
    liveUntilAfter settings current key c n =
      (LiveEntry.apply key ⟨current, n, settings.maxEntryTtl, h⟩ c).liveUntil := by
  rw [liveUntilAfter, dif_pos h]

/-- A restore that finds the entry archived. -/
theorem liveUntilAfter_restore {current : ℕ} (h : n < current) (hrestores : Restores c key) :
    liveUntilAfter settings current key c n = current + settings.minPersistentTtl - 1 := by
  rw [liveUntilAfter, dif_neg (Nat.not_le.mpr h), if_pos hrestores]

theorem Prolongs.refl (current n : ℕ) : Prolongs settings current n n :=
  ⟨le_rfl, fun _ ↦ .inl rfl⟩

/-- A success prolongs the life of every entry. -/
theorem prolongs_liveUntilAfter (current : ℕ) :
    Prolongs settings current n (liveUntilAfter settings current key c n) := by
  by_cases h : current ≤ n
  · rw [liveUntilAfter_of_le h]
    exact ⟨LiveEntry.liveUntil_le_apply ⟨current, n, settings.maxEntryTtl, h⟩ key c,
      fun hlt ↦ absurd h (Nat.not_le.mpr hlt)⟩
  rw [liveUntilAfter, dif_neg h]
  split
  · exact ⟨by omega, fun _ ↦ .inr le_rfl⟩
  · exact .refl current n

theorem current_le_of_step (h : (entriesProtocol settings kept).Step s s') :
    s.current ≤ s'.current := by
  obtain hothers | ⟨c, v, -, rfl⟩ := h
  · cases hothers with
    | close => exact Nat.le_succ _
    | write f hf => exact le_rfl
  · exact le_rfl

/-- What one step does to an entry that is kept. -/
theorem prolongs_of_step (h : (entriesProtocol settings kept).Step s s') (hkept : key ∈ kept)
    (hn : s.liveUntil key = some n) :
    ∃ m, s'.liveUntil key = some m ∧ Prolongs settings s.current n m := by
  obtain hothers | ⟨c, v, -, rfl⟩ := h
  · cases hothers with
    | close => exact ⟨n, hn, .refl _ n⟩
    | write f hf => exact hf key hkept n hn
  · exact ⟨_, liveUntil_apply hn, prolongs_liveUntilAfter _⟩

/-! ## What happens in the course of time -/

theorem current_le_of_reaches (h : (entriesProtocol settings kept).Reaches s s') :
    s.current ≤ s'.current :=
  h.invariant (I := fun x ↦ s.current ≤ x.current) le_rfl
    fun _ _ hx hstep ↦ hx.trans (current_le_of_step hstep)

/-- Nothing that happens shortens the life of an entry that is kept. -/
theorem LivesUntil.reaches (hn : s.LivesUntil key n) (hkept : key ∈ kept)
    (h : (entriesProtocol settings kept).Reaches s s') : s'.LivesUntil key n := by
  refine h.invariant (I := fun x ↦ x.LivesUntil key n) hn fun x y hx hstep ↦ ?_
  obtain ⟨m, hm, hle⟩ := hx
  obtain ⟨m', hm', hprolongs, -⟩ := prolongs_of_step hstep hkept hm
  exact ⟨m', hm', hle.trans hprolongs⟩

/-- **An extend in the life of its entry.** When an extend succeeds on the way from `s` to `s'`, and
the entry lives on from before to the end of that, the entry is extended, counted from `s` at
least. -/
theorem LivesUntil.passes {n : UInt32} (hlive : s.LivesUntil key s'.current)
    (h : (entriesProtocol settings kept).Passes c v s s') (hkept : key ∈ kept)
    (hread : key ∈ c.readOnly) (hops : c.operations = [.extendFootprintTtl n]) :
    s'.LivesUntil key (s.current + n.toNat) := by
  obtain ⟨x, _, hx, ⟨htakes, rfl⟩, hy⟩ := h
  have hstart : s.current ≤ x.current := current_le_of_reaches hx
  have hend : x.current ≤ s'.current := current_le_of_reaches (s := x.apply settings c) hy
  -- The extend finds the entry live.
  obtain ⟨m, hm, hle⟩ := hlive.reaches hkept hx
  have hlive : x.current ≤ m := hend.trans hle
  have hrejects : ¬ LiveEntry.Rejects ⟨x.current, m, settings.maxEntryTtl, hlive⟩ n :=
    Nat.not_lt.mpr (htakes.extendTo n (hops ▸ List.mem_singleton_self _))
  refine LivesUntil.reaches ⟨_, liveUntil_apply hm, ?_⟩ hkept hy
  rw [liveUntilAfter_of_le hlive, LiveEntry.apply_extend hread hops,
    LiveEntry.liveUntil_extend hrejects]
  exact le_trans (Nat.add_le_add_right hstart _) (Nat.le_max_right _ _)

/-- **A restore of an archived entry.** When a restore succeeds after the entry `key` was archived,
its own or that of somebody else has given the entry its life back, counted from `s` at least. -/
theorem Archived.passes (harchived : s.Archived key)
    (h : (entriesProtocol settings kept).Passes c v s s') (hkept : key ∈ kept)
    (hrestores : Restores c key) :
    s'.LivesUntil key (s.current + settings.minPersistentTtl - 1) := by
  obtain ⟨-, n, hn, hlt⟩ := harchived
  obtain ⟨x, _, hx, ⟨-, rfl⟩, hy⟩ := h
  -- Until the restore the entry is archived, or has been restored by somebody else.
  have hdormant : s.current ≤ x.current ∧ ∃ m, x.liveUntil key = some m ∧
      (m < x.current ∨ s.current + settings.minPersistentTtl - 1 ≤ m) := by
    refine hx.invariant (I := fun y ↦ s.current ≤ y.current ∧ ∃ m, y.liveUntil key = some m ∧
      (m < y.current ∨ s.current + settings.minPersistentTtl - 1 ≤ m)) ⟨le_rfl, n, hn, .inl hlt⟩ ?_
    rintro y z ⟨hle, m, hm, hm'⟩ hstep
    have hcurrent : y.current ≤ z.current := current_le_of_step hstep
    obtain ⟨k, hk, hmk, hrestored⟩ := prolongs_of_step hstep hkept hm
    refine ⟨hle.trans hcurrent, k, hk, ?_⟩
    obtain hlt | hlives := hm'
    · obtain rfl | hle' := hrestored hlt
      · exact .inl (hlt.trans_le hcurrent)
      · exact .inr (by omega)
    · exact .inr (hlives.trans hmk)
  obtain ⟨hle, m, hm, hlt | hlives⟩ := hdormant
  · refine LivesUntil.reaches ⟨_, liveUntil_apply hm, ?_⟩ hkept hy
    rw [liveUntilAfter_restore hlt hrestores]
    omega
  · refine LivesUntil.reaches ⟨_, liveUntil_apply hm, hlives.trans ?_⟩ hkept hy
    exact (prolongs_liveUntilAfter x.current).1

/-- A reading of an entry that is live shows the end of its life. -/
theorem LivesUntil.exists_of_reports {entries : Option (List LedgerEntryResult)}
    (hlive : s.LivesUntil key n) (hnow : s.current ≤ n)
    (hreports : s.Reports ⟨.getLedgerEntries [key], .ok entries⟩) :
    ∃ m, (entries.bind List.head?).bind LedgerEntryResult.liveUntilLedgerSeq = some m ∧
      n ≤ m.toNat := by
  obtain ⟨k, hk, hle⟩ := hlive
  obtain ⟨m, hm, rfl⟩ := Option.map_eq_some_iff.mp (hreports k hk (hnow.trans hle))
  exact ⟨m, hm, hle⟩

end Entries

end StellarRustClient
