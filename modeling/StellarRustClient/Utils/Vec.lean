import StellarRustClient.Utils.Scalar
import StellarRustClient.Utils.Traversal

/-!
# The vec codecs

`vec_of` and `to_vec_of` take any closure: it may fail, and it may change what it has captured. Here
the closure is a function into `EStateM` with an arbitrary state, so that the order of its calls and
the state it is left in are part of what is proved. The typed wrappers pass closures without a
state.

Every successful encoding is a vec that is there, `Some`; the absent vec `None` decodes to the empty
list as well. This is the only value that encoding does not give back.
-/

namespace StellarRustClient

namespace Utils

variable {sdk : Sdk} {σ τ α : Type} {encode : α → EStateM SorobanUtilsError σ ScVal}
  {decode : ScVal → EStateM SorobanUtilsError τ α} {s s' : σ} {u u' : τ} {xs : List α} {v : ScVal}
  {err : SorobanUtilsError}

/-- The error of `vec_val` for too many elements. -/
def tooLong : SorobanUtilsError :=
  xdrErr "failed to encode Vec<ScVal> as ScVec" XdrError.lengthExceedsMax.debug

/-- The elements of the payload of a vec. -/
def elements : Option ScVec → List ScVal
  | none => []
  | some w => w.toList

/-- The vec without elements. -/
def emptyVec : ScVec := .mk 0 (Nat.zero_le _) Fin.elim0

/-- The value, with the empty vec for the absent one. -/
def presentVec : ScVal → ScVal
  | .vec none => .vec (some emptyVec)
  | v => v

/-! ## The raw vec -/

theorem vecVal_eq_ok {items : List ScVal} :
    vecVal items = .ok v ↔ ∃ w, v = .vec (some w) ∧ w.toList = items := by
  have hcases : vecVal items = match ScVec.tryFrom items with
    | .ok w => .ok (.vec (some w))
    | .error e => .error (xdrErr "failed to encode Vec<ScVal> as ScVec" e.debug) := by
    rw [vecVal]
    cases ScVec.tryFrom items <;> rfl
  rw [hcases]
  constructor
  · intro h
    cases hw : ScVec.tryFrom items with
    | error e =>
      rw [hw] at h
      cases h
    | ok w =>
      rw [hw] at h
      cases h
      exact ⟨w, rfl, ScVec.tryFrom_eq_ok.mp hw⟩
  · rintro ⟨w, rfl, hw⟩
    rw [ScVec.tryFrom_eq_ok.mpr hw]

theorem vecVal_of_lt {items : List ScVal} (h : u32Max < items.length) :
    vecVal items = .error tooLong := by
  rw [vecVal, ScVec.tryFrom, dif_neg (by omega)]
  rfl

theorem exists_vecVal {items : List ScVal} (h : items.length ≤ u32Max) :
    ∃ w, vecVal items = .ok (.vec (some w)) ∧ w.toList = items := by
  have hw : ScVec.tryFrom items = .ok (.mk items.length h items.get) := by
    rw [ScVec.tryFrom, dif_pos h]
  exact ⟨_, vecVal_eq_ok.mpr ⟨_, rfl, ScVec.tryFrom_eq_ok.mp hw⟩, ScVec.tryFrom_eq_ok.mp hw⟩

/-! ## Any closure -/

theorem run_vecOf : (vecOf encode xs).run s =
    match (xs.mapM encode).run s with
    | .ok ys s' =>
      match vecVal ys with
      | .ok v => .ok v s'
      | .error err => .error err s'
    | .error err s' => .error err s' := by
  rw [vecOf, EStateM.run_bind]
  cases (xs.mapM encode).run s with
  | error err s' => rfl
  | ok ys s' =>
    simp only []
    cases vecVal ys <;> rfl

theorem run_vecOf_eq_ok : (vecOf encode xs).run s = .ok v s' ↔
    ∃ w : ScVec, v = .vec (some w) ∧ Traversal encode s xs w.toList s' := by
  rw [run_vecOf]
  constructor
  · intro h
    cases hys : (xs.mapM encode).run s with
    | error err s₁ =>
      rw [hys] at h
      cases h
    | ok ys s₁ =>
      rw [hys] at h
      cases hv : vecVal ys with
      | error err =>
        simp only [hv] at h
        cases h
      | ok v' =>
        simp only [hv] at h
        cases h
        obtain ⟨w, rfl, rfl⟩ := vecVal_eq_ok.mp hv
        exact ⟨w, rfl, run_mapM_eq_ok.mp hys⟩
  · rintro ⟨w, rfl, htraversal⟩
    have hv : vecVal w.toList = .ok (.vec (some w)) := vecVal_eq_ok.mpr ⟨w, rfl, rfl⟩
    rw [run_mapM_eq_ok.mpr htraversal]
    simp only [hv]

theorem run_vecOf_eq_error : (vecOf encode xs).run s = .error err s' ↔
    Stopped encode s xs err s' ∨
      u32Max < xs.length ∧ err = tooLong ∧ ∃ ys, Traversal encode s xs ys s' := by
  rw [run_vecOf]
  cases hys : (xs.mapM encode).run s with
  | error err₁ s₁ =>
    have hno : ∀ ys s', ¬ Traversal encode s xs ys s' := by
      intro ys s' h
      rw [run_mapM_eq_ok.mpr h] at hys
      cases hys
    rw [← run_mapM_eq_error, hys]
    simp [hno]
  | ok ys s₁ =>
    have hno : ¬ Stopped encode s xs err s' := by
      rw [← run_mapM_eq_error, hys]
      simp
    have htraversal : ∀ s', (∃ ys, Traversal encode s xs ys s') ↔ s₁ = s' := by
      simp [← run_mapM_eq_ok, hys]
    have hlength : ys.length = xs.length := (run_mapM_eq_ok.mp hys).length_eq
    rw [htraversal, or_iff_right hno]
    by_cases hlt : u32Max < xs.length
    · simp only [vecVal_of_lt (hlength ▸ hlt), EStateM.Result.error.injEq]
      simp [hlt, eq_comm]
    · have hys : ys.length ≤ u32Max := by omega
      obtain ⟨w, hw, -⟩ := exists_vecVal hys
      simp [hw, hlt]

theorem run_toVecOf_vec (w : Option ScVec) :
    (toVecOf sdk decode (.vec w)).run u = ((elements w).mapM decode).run u := by
  cases w <;> rfl

theorem run_toVecOf_of_ne (hv : ∀ w, v ≠ .vec w) :
    (toVecOf sdk decode v).run u = .error (typeMismatch sdk "Vec" v) u := by
  cases v with
  | vec w => exact absurd rfl (hv w)
  | _ => rfl

theorem run_toVecOf_eq_ok : (toVecOf sdk decode v).run u = .ok xs u' ↔
    ∃ w, v = .vec w ∧ Traversal decode u (elements w) xs u' := by
  by_cases hv : ∃ w, v = .vec w
  · obtain ⟨w, rfl⟩ := hv
    rw [run_toVecOf_vec, run_mapM_eq_ok]
    simp
  · have hne : ∀ w, v ≠ .vec w := fun w h ↦ hv ⟨w, h⟩
    rw [run_toVecOf_of_ne hne]
    simp [hne]

theorem run_toVecOf_eq_error : (toVecOf sdk decode v).run u = .error err u' ↔
    ((∀ w, v ≠ .vec w) ∧ err = typeMismatch sdk "Vec" v ∧ u' = u) ∨
      ∃ w, v = .vec w ∧ Stopped decode u (elements w) err u' := by
  by_cases hv : ∃ w, v = .vec w
  · obtain ⟨w, rfl⟩ := hv
    rw [run_toVecOf_vec, run_mapM_eq_error]
    simp
  · have hne : ∀ w, v ≠ .vec w := fun w h ↦ hv ⟨w, h⟩
    rw [run_toVecOf_of_ne hne]
    simp [hne, eq_comm]

/-! ## Both ways -/

theorem run_toVecOf_of_run_vecOf (h : (vecOf encode xs).run s = .ok v s')
    (hundo : ∀ x ∈ xs, Undoes decode encode x) (u : τ) :
    ∃ u', (toVecOf sdk decode v).run u = .ok xs u' := by
  obtain ⟨w, rfl, htraversal⟩ := run_vecOf_eq_ok.mp h
  obtain ⟨u', hback⟩ := htraversal.undo hundo u
  exact ⟨u', run_toVecOf_eq_ok.mpr ⟨some w, rfl, hback⟩⟩

theorem run_vecOf_of_run_toVecOf (h : (toVecOf sdk decode v).run u = .ok xs u')
    (hundo : ∀ w, v = .vec w → ∀ y ∈ elements w, Undoes encode decode y) (s : σ) :
    ∃ s', (vecOf encode xs).run s = .ok (presentVec v) s' := by
  obtain ⟨w, rfl, htraversal⟩ := run_toVecOf_eq_ok.mp h
  obtain ⟨s', hback⟩ := htraversal.undo (hundo w rfl) s
  cases w with
  | none => exact ⟨s', run_vecOf_eq_ok.mpr ⟨emptyVec, rfl, hback⟩⟩
  | some w => exact ⟨s', run_vecOf_eq_ok.mpr ⟨w, rfl, hback⟩⟩

/-! ## Closures without a state -/

theorem vecOf_eq_ok {encode : α → Except SorobanUtilsError ScVal} :
    vecOf encode xs = .ok v ↔ ∃ s', (vecOf (stateless encode) xs).run () = .ok v s' := by
  rw [run_vecOf, run_mapM_stateless, vecOf]
  cases xs.mapM encode with
  | error err => exact iff_of_false (by rintro ⟨⟩) (by simp)
  | ok ys =>
    change ofExcept (vecVal ys) = _ ↔ _
    simp only []
    cases vecVal ys with
    | error err => exact iff_of_false (by rintro ⟨⟩) (by simp)
    | ok v' =>
      change Except.ok v' = _ ↔ _
      simp

theorem toVecOf_eq_ok {decode : ScVal → Except SorobanUtilsError α} :
    toVecOf sdk decode v = .ok xs ↔
      ∃ u', (toVecOf sdk (stateless decode) v).run () = .ok xs u' := by
  by_cases hv : ∃ w, v = .vec w
  · obtain ⟨w, rfl⟩ := hv
    have hpure : toVecOf sdk decode (.vec w) = (elements w).mapM decode := by
      cases w <;> rfl
    rw [hpure, run_toVecOf_vec, run_mapM_stateless]
    cases (elements w).mapM decode <;> simp
  · have hne : ∀ w, v ≠ .vec w := fun w h ↦ hv ⟨w, h⟩
    rw [run_toVecOf_of_ne hne]
    refine iff_of_false ?_ (by simp)
    cases v with
    | vec w => exact absurd rfl (hne w)
    | _ => rintro ⟨⟩

end Utils

/-! ## The typed wrappers -/

/-- The types with a vec encoder and a vec decoder of their own, where the elements come back as
what they were. -/
inductive TypedVec
  | strings | symbols | i128 | u128 | u64 | i64 | u32 | i32
  deriving DecidableEq

namespace TypedVec

/-- The type of the elements. -/
@[reducible] def scalar : TypedVec → Scalar
  | strings => .string
  | symbols => .symbol
  | i128 => .i128
  | u128 => .u128
  | u64 => .u64
  | i64 => .i64
  | u32 => .u32
  | i32 => .i32

/-- The encoder. -/
def vecOf : (k : TypedVec) → List k.scalar.Native → Except SorobanUtilsError ScVal
  | strings => Utils.vecOfStrings
  | symbols => Utils.vecOfSymbols
  | i128 => Utils.vecOfI128
  | u128 => Utils.vecOfU128
  | u64 => Utils.vecOfU64
  | i64 => Utils.vecOfI64
  | u32 => Utils.vecOfU32
  | i32 => Utils.vecOfI32

/-- The decoder. -/
def toVecOf (sdk : Sdk) : (k : TypedVec) → ScVal → Except SorobanUtilsError (List k.scalar.Native)
  | strings => Utils.toVecOfStrings sdk
  | symbols => Utils.toVecOfSymbols sdk
  | i128 => Utils.toVecOfI128 sdk
  | u128 => Utils.toVecOfU128 sdk
  | u64 => Utils.toVecOfU64 sdk
  | i64 => Utils.toVecOfI64 sdk
  | u32 => Utils.toVecOfU32 sdk
  | i32 => Utils.toVecOfI32 sdk

variable {sdk : Sdk} {k : TypedVec} {xs : List k.scalar.Native} {v : ScVal}

theorem vecOf_eq (k : TypedVec) : k.vecOf = Utils.vecOf k.scalar.encode := by
  cases k <;> rfl

theorem toVecOf_eq (k : TypedVec) : k.toVecOf sdk = Utils.toVecOf sdk (k.scalar.decode sdk) := by
  cases k <;> rfl

theorem toVecOf_of_vecOf (h : k.vecOf xs = .ok v) : k.toVecOf sdk v = .ok xs := by
  rw [vecOf_eq] at h
  rw [toVecOf_eq]
  obtain ⟨s', hrun⟩ := Utils.vecOf_eq_ok.mp h
  refine Utils.toVecOf_eq_ok.mpr (Utils.run_toVecOf_of_run_vecOf hrun (fun x _ ↦ ?_) ())
  exact stateless_undoes fun y hy ↦ (k.scalar.partialInverse x y).mp hy

theorem vecOf_of_toVecOf (h : k.toVecOf sdk v = .ok xs) :
    k.vecOf xs = .ok (Utils.presentVec v) := by
  rw [toVecOf_eq] at h
  rw [vecOf_eq]
  obtain ⟨u', hrun⟩ := Utils.toVecOf_eq_ok.mp h
  refine Utils.vecOf_eq_ok.mpr (Utils.run_vecOf_of_run_toVecOf hrun (fun w _ y _ ↦ ?_) ())
  exact stateless_undoes fun x hx ↦ (k.scalar.partialInverse x y).mpr hx

/-- A wrapper refuses an element that its scalar encoder refuses, and too many elements. -/
theorem exists_vecOf_iff (k : TypedVec) (xs : List k.scalar.Native) :
    (∃ v, k.vecOf xs = .ok v) ↔ (∀ x ∈ xs, k.scalar.Fits x) ∧ xs.length ≤ u32Max := by
  have hfits : (∃ ys s', Traversal (stateless k.scalar.encode) () xs ys s') ↔
      ∀ x ∈ xs, k.scalar.Fits x := by
    rw [exists_traversal_stateless]
    exact forall₂_congr fun x _ ↦ k.scalar.exists_encode_iff x
  rw [vecOf_eq, ← hfits]
  simp only [Utils.vecOf_eq_ok, Utils.run_vecOf_eq_ok]
  constructor
  · rintro ⟨v, s', w, rfl, htraversal⟩
    exact ⟨⟨_, s', htraversal⟩, htraversal.length_eq ▸ w.length_toList_le⟩
  · rintro ⟨⟨ys, s', htraversal⟩, hle⟩
    have hys : ys.length ≤ u32Max := htraversal.length_eq ▸ hle
    obtain ⟨w, -, rfl⟩ := Utils.exists_vecVal hys
    exact ⟨_, s', w, rfl, htraversal⟩

end TypedVec

open Utils in
/-- The laws of the vec codecs. -/
structure VecCodec (sdk : Sdk) : Prop where
  /-- Encoding fails where the closure fails on an element, and where the list is too long. -/
  encode_fails : ∀ {σ α : Type} (encode : α → EStateM SorobanUtilsError σ ScVal) (xs : List α)
    (s : σ), (∃ err s', (vecOf encode xs).run s = .error err s') ↔
      (∃ err s', Stopped encode s xs err s') ∨ u32Max < xs.length
  /-- The error is that of the first element the closure fails on, and what the closure has been
  applied to ends with that element. -/
  encode_stops : ∀ {σ α : Type} (encode : α → EStateM SorobanUtilsError σ ScVal)
    (before : List α) (x : α) (after : List α) (ys : List ScVal) (s s₁ s' : σ)
    (err : SorobanUtilsError), Traversal encode s before ys s₁ →
      (encode x).run s₁ = .error err s' →
      (vecOf encode (before ++ x :: after)).run s = .error err s' ∧
        (vecOf (recorded encode) (before ++ x :: after)).run (s, []) =
          .error err (s', before ++ [x])
  /-- Otherwise the elements of the result are the images, in order. -/
  encode_images : ∀ {σ α : Type} (encode : α → EStateM SorobanUtilsError σ ScVal) (xs : List α)
    (v : ScVal) (s s' : σ), (vecOf encode xs).run s = .ok v s' →
      ∃ ys, Traversal encode s xs ys s' ∧ toVecVal sdk v = .ok ys ∧ ys.length = xs.length
  /-- Decoding fails on what is no vec, and where the closure fails on an element. -/
  decode_fails : ∀ {τ α : Type} (decode : ScVal → EStateM SorobanUtilsError τ α) (v : ScVal)
    (u : τ), (∃ err u', (toVecOf sdk decode v).run u = .error err u') ↔
      (∀ w, v ≠ .vec w) ∨ ∃ w err u', v = .vec w ∧ Stopped decode u (elements w) err u'
  /-- The error is that of the first element the closure fails on, and what the closure has been
  applied to ends with that element. -/
  decode_stops : ∀ {τ α : Type} (decode : ScVal → EStateM SorobanUtilsError τ α)
    (w : Option ScVec) (before : List ScVal) (y : ScVal) (after : List ScVal) (xs : List α)
    (u u₁ u' : τ) (err : SorobanUtilsError), elements w = before ++ y :: after →
      Traversal decode u before xs u₁ → (decode y).run u₁ = .error err u' →
      (toVecOf sdk decode (.vec w)).run u = .error err u' ∧
        (toVecOf sdk (recorded decode) (.vec w)).run (u, []) = .error err (u', before ++ [y])
  /-- Otherwise the result is the images of the elements, in order. -/
  decode_images : ∀ {τ α : Type} (decode : ScVal → EStateM SorobanUtilsError τ α) (v : ScVal)
    (xs : List α) (u u' : τ), (toVecOf sdk decode v).run u = .ok xs u' →
      ∃ w, v = .vec w ∧ Traversal decode u (elements w) xs u'
  /-- What is encoded is decoded to itself by a closure that undoes the encoding. -/
  decode_encode : ∀ {σ τ α : Type} (encode : α → EStateM SorobanUtilsError σ ScVal)
    (decode : ScVal → EStateM SorobanUtilsError τ α) (xs : List α) (v : ScVal) (s s' : σ) (u : τ),
    (∀ x ∈ xs, Undoes decode encode x) → (vecOf encode xs).run s = .ok v s' →
      ∃ u', (toVecOf sdk decode v).run u = .ok xs u'
  /-- What is decoded is encoded to itself, the absent vec to the empty one. -/
  encode_decode : ∀ {σ τ α : Type} (encode : α → EStateM SorobanUtilsError σ ScVal)
    (decode : ScVal → EStateM SorobanUtilsError τ α) (xs : List α) (w : Option ScVec) (s : σ)
    (u u' : τ), (∀ y ∈ elements w, Undoes encode decode y) →
      (toVecOf sdk decode (.vec w)).run u = .ok xs u' →
      ∃ s', (vecOf encode xs).run s = .ok (presentVec (.vec w)) s'
  /-- A typed wrapper accepts a list of elements that its scalar encoder accepts, under the length
  limit, the empty one among them. -/
  typed_encodes : ∀ (k : TypedVec) (xs : List k.scalar.Native),
    (∃ v, k.vecOf xs = .ok v) ↔ (∀ x ∈ xs, k.scalar.Fits x) ∧ xs.length ≤ u32Max
  /-- What a typed wrapper encodes is decoded to itself. -/
  typed_decode_encode : ∀ (k : TypedVec) (xs : List k.scalar.Native) (v : ScVal),
    k.vecOf xs = .ok v → k.toVecOf sdk v = .ok xs
  /-- What a typed wrapper decodes is encoded to itself, the absent vec to the empty one. -/
  typed_encode_decode : ∀ (k : TypedVec) (xs : List k.scalar.Native) (v : ScVal),
    k.toVecOf sdk v = .ok xs → k.vecOf xs = .ok (presentVec v)

open Utils in
/-- **Vec codecs.** They apply the closure in order up to its first failure, and are inverse to each
other where the closures are. -/
theorem vecCodec (sdk : Sdk) : VecCodec sdk where
  encode_fails encode xs s := by
    simp only [run_vecOf_eq_error]
    constructor
    · rintro ⟨err, s', hstop | ⟨hlt, -⟩⟩
      · exact .inl ⟨err, s', hstop⟩
      · exact .inr hlt
    · rintro (⟨err, s', hstop⟩ | hlt)
      · exact ⟨err, s', .inl hstop⟩
      · -- A closure that fails on no element of a list that is too long gets to the limit.
        obtain ⟨ys, s', htraversal⟩ | ⟨err, s', hstop⟩ := exists_traversal_or_stopped encode s xs
        · exact ⟨tooLong, s', .inr ⟨hlt, rfl, ys, htraversal⟩⟩
        · exact ⟨err, s', .inl hstop⟩
  encode_stops encode before x after ys s s₁ s' err hbefore hx := by
    have hstop : Stopped encode s (before ++ x :: after) err s' :=
      ⟨before, x, after, ys, s₁, rfl, hbefore, hx⟩
    have hrecord : Stopped _ _ (before ++ x :: after) _ _ := stopped_recorded hbefore hx
    exact ⟨run_vecOf_eq_error.mpr (.inl hstop), run_vecOf_eq_error.mpr (.inl hrecord)⟩
  encode_images encode xs v s s' h := by
    obtain ⟨w, rfl, htraversal⟩ := run_vecOf_eq_ok.mp h
    exact ⟨w.toList, htraversal, rfl, htraversal.length_eq⟩
  decode_fails decode v u := by
    simp only [run_toVecOf_eq_error]
    constructor
    · rintro ⟨err, u', ⟨hne, -⟩ | ⟨w, hv, hstop⟩⟩
      · exact .inl hne
      · exact .inr ⟨w, err, u', hv, hstop⟩
    · rintro (hne | ⟨w, err, u', hv, hstop⟩)
      · exact ⟨_, u, .inl ⟨hne, rfl, rfl⟩⟩
      · exact ⟨err, u', .inr ⟨w, hv, hstop⟩⟩
  decode_stops decode w before y after xs u u₁ u' err hw hbefore hy := by
    have hstop : Stopped decode u (elements w) err u' :=
      ⟨before, y, after, xs, u₁, hw, hbefore, hy⟩
    have hrecord : Stopped _ _ (before ++ y :: after) _ _ := stopped_recorded hbefore hy
    rw [← hw] at hrecord
    exact ⟨run_toVecOf_eq_error.mpr (.inr ⟨w, rfl, hstop⟩),
      run_toVecOf_eq_error.mpr (.inr ⟨w, rfl, hrecord⟩)⟩
  decode_images decode v xs u u' h := run_toVecOf_eq_ok.mp h
  decode_encode encode decode xs v s s' u hundo h := run_toVecOf_of_run_vecOf h hundo u
  encode_decode encode decode xs w s u u' hundo h := by
    refine run_vecOf_of_run_toVecOf h (fun w' hw y hy ↦ hundo y ?_) s
    cases hw
    exact hy
  typed_encodes k xs := k.exists_vecOf_iff xs
  typed_decode_encode k xs v h := TypedVec.toVecOf_of_vecOf h
  typed_encode_decode k xs v h := TypedVec.vecOf_of_toVecOf h

end StellarRustClient
