import StellarRustClient.Utils.Vec

/-!
# Nested codecs

`vec_of` and `to_vec_of` take any closures, their own applications among them, so they can be nested
to any depth over a scalar codec. A `NestedType` names such a nesting, with the encoder and the
decoder that it stands for.

A nested decoder takes an absent vec for an empty one at every level, and the encoder gives back the
empty one: the two are inverse up to `NestedType.present`. A value tells its type apart from the
others by the scalars in it; where there are none, all vecs at the bottom are empty.
-/

namespace StellarRustClient

namespace Utils

variable {sdk : Sdk} {α : Type} {encode : α → Except SorobanUtilsError ScVal}
  {decode : ScVal → Except SorobanUtilsError α} {xs : List α} {v : ScVal} {err : SorobanUtilsError}

/-! ## One level -/

theorem vecOf_of_mapM {ys : List ScVal} (hys : xs.mapM encode = .ok ys) :
    vecOf encode xs = vecVal ys := by
  rw [vecOf, hys]
  change ofExcept (vecVal ys) = _
  cases vecVal ys <;> rfl

theorem vecOf_eq_ok_iff :
    vecOf encode xs = .ok v ↔ ∃ w : ScVec, v = .vec (some w) ∧ xs.mapM encode = .ok w.toList := by
  cases hys : xs.mapM encode with
  | error e =>
    rw [vecOf, hys]
    exact iff_of_false (by rintro ⟨⟩) (by simp)
  | ok ys =>
    rw [vecOf_of_mapM hys, vecVal_eq_ok]
    simp [eq_comm]

theorem vecOf_eq_error_iff : vecOf encode xs = .error err ↔ xs.mapM encode = .error err ∨
    (∃ ys, xs.mapM encode = .ok ys) ∧ u32Max < xs.length ∧ err = tooLong := by
  cases hys : xs.mapM encode with
  | error e =>
    rw [vecOf, hys]
    change Except.error e = _ ↔ _
    simp
  | ok ys =>
    have hlength : xs.length = ys.length := (mapM_eq_ok.mp hys).length_eq
    rw [vecOf_of_mapM hys, hlength]
    by_cases hlt : u32Max < ys.length
    · rw [vecVal_of_lt hlt]
      simp [hlt, eq_comm]
    · obtain ⟨w, hw, -⟩ := exists_vecVal (not_lt.mp hlt)
      rw [hw]
      simp [hlt]

theorem toVecOf_vec (w : Option ScVec) :
    toVecOf sdk decode (.vec w) = (elements w).mapM decode := by
  cases w <;> rfl

theorem toVecOf_of_ne (hv : ∀ w, v ≠ .vec w) :
    toVecOf sdk decode v = .error (typeMismatch sdk "Vec" v) := by
  cases v with
  | vec w => exact absurd rfl (hv w)
  | _ => rfl

theorem toVecOf_eq_ok_iff : toVecOf sdk decode v = .ok xs ↔
    ∃ w, v = .vec w ∧ (elements w).mapM decode = .ok xs := by
  by_cases hv : ∃ w, v = .vec w
  · obtain ⟨w, rfl⟩ := hv
    rw [toVecOf_vec]
    simp
  · have hne : ∀ w, v ≠ .vec w := fun w h ↦ hv ⟨w, h⟩
    rw [toVecOf_of_ne hne]
    simp [hne]

theorem toVecOf_eq_error_iff : toVecOf sdk decode v = .error err ↔
    ((∀ w, v ≠ .vec w) ∧ err = typeMismatch sdk "Vec" v) ∨
      ∃ w, v = .vec w ∧ (elements w).mapM decode = .error err := by
  by_cases hv : ∃ w, v = .vec w
  · obtain ⟨w, rfl⟩ := hv
    rw [toVecOf_vec]
    simp
  · have hne : ∀ w, v ≠ .vec w := fun w h ↦ hv ⟨w, h⟩
    rw [toVecOf_of_ne hne]
    simp [hne, eq_comm]

/-- The normal form of a vec: it is there, and its elements are in their normal forms. -/
def normalVec (normal : ScVal → ScVal) : ScVal → ScVal
  | .vec none => .vec (some emptyVec)
  | .vec (some w) => .vec (some (w.map normal))
  | v => v

theorem normalVec_vec (normal : ScVal → ScVal) (w : Option ScVec) :
    ∃ w' : ScVec, normalVec normal (.vec w) = .vec (some w') ∧
      w'.toList = (elements w).map normal := by
  cases w with
  | none => exact ⟨emptyVec, rfl, rfl⟩
  | some w => exact ⟨w.map normal, rfl, w.toList_map normal⟩

/-- A codec nested in the vec codecs. -/
theorem inverseUpTo_vecOf {normal : ScVal → ScVal} (h : InverseUpTo normal encode decode) :
    InverseUpTo (normalVec normal) (vecOf encode) (toVecOf sdk decode) where
  decode_encode hxs := by
    obtain ⟨w, rfl, hw⟩ := vecOf_eq_ok_iff.mp hxs
    exact toVecOf_eq_ok_iff.mpr ⟨some w, rfl, h.mapM.decode_encode hw⟩
  encode_decode hv := by
    obtain ⟨w, rfl, hw⟩ := toVecOf_eq_ok_iff.mp hv
    obtain ⟨w', hnormal, hw'⟩ := normalVec_vec normal w
    rw [hnormal]
    exact vecOf_eq_ok_iff.mpr ⟨w', rfl, hw' ▸ h.mapM.encode_decode hw⟩

end Utils

/-- The types of what `vec_of` and `to_vec_of` can be nested to. -/
inductive NestedType
  | scalar (s : Scalar)
  | vec (elem : NestedType)
  deriving DecidableEq

namespace NestedType

/-- The native type. -/
@[reducible] def Native : NestedType → Type
  | scalar s => s.Native
  | vec t => List t.Native

/-- The encoder. -/
def encode : (t : NestedType) → t.Native → Except SorobanUtilsError ScVal
  | scalar s => s.encode
  | vec t => Utils.vecOf t.encode

/-- The decoder. -/
def decode (sdk : Sdk) : (t : NestedType) → ScVal → Except SorobanUtilsError t.Native
  | scalar s => s.decode sdk
  | vec t => Utils.toVecOf sdk (t.decode sdk)

/-- The value, with the empty vec for the absent one at every level. -/
def present : NestedType → ScVal → ScVal
  | scalar _ => id
  | vec t => Utils.normalVec t.present

/-- The native values without anything in them that is too long. -/
def Fits : (t : NestedType) → t.Native → Prop
  | scalar s => s.Fits
  | vec t => fun xs ↦ (∀ x ∈ xs, t.Fits x) ∧ xs.length ≤ u32Max

/-- The contract values of the type. -/
def Types : NestedType → ScVal → Prop
  | scalar s => fun v ↦ Scalar.ofScVal v = some s ∧
    ∀ raw, Scalar.text v = some raw → raw.IsValidUTF8
  | vec t => fun v ↦ ∃ w, v = .vec w ∧ ∀ y ∈ Utils.elements w, t.Types y

/-- The error of the first thing in a native value that does not fit, in the order of reading: the
elements of a list come before its length. -/
def Refuses : (t : NestedType) → t.Native → SorobanUtilsError → Prop
  | scalar s => fun x err ↦ s.encode x = .error err
  | vec t => fun (xs : List t.Native) err ↦
    (∃ (before : List t.Native) (x : t.Native) (after : List t.Native),
      xs = before ++ x :: after ∧ (∀ y ∈ before, t.Fits y) ∧ t.Refuses x err) ∨
      (∀ x ∈ xs, t.Fits x) ∧ u32Max < xs.length ∧ err = Utils.tooLong

/-- The error of the first thing in a contract value that is not of the type, in the order of
reading. -/
def Rejects (sdk : Sdk) : NestedType → ScVal → SorobanUtilsError → Prop
  | scalar s => fun v err ↦ s.decode sdk v = .error err
  | vec t => fun v err ↦ ((∀ w, v ≠ .vec w) ∧ err = Utils.typeMismatch sdk "Vec" v) ∨
    ∃ w, v = .vec w ∧ ∃ before y after, Utils.elements w = before ++ y :: after ∧
      (∀ z ∈ before, t.Types z) ∧ t.Rejects sdk y err

/-- The type with another scalar at the bottom. -/
def withScalar (s : Scalar) : NestedType → NestedType
  | scalar _ => scalar s
  | vec t => vec (t.withScalar s)

/-- There is a scalar somewhere in the value. -/
inductive HasScalar : ScVal → Prop
  | self {v : ScVal} {s : Scalar} (h : Scalar.ofScVal v = some s) : HasScalar v
  | inside {w : Option ScVec} {y : ScVal} (hy : y ∈ Utils.elements w) (h : HasScalar y) :
      HasScalar (.vec w)

variable {sdk : Sdk} {t t' : NestedType} {v : ScVal} {err : SorobanUtilsError}

theorem fits_vec {xs : List t.Native} :
    (vec t).Fits xs ↔ (∀ x ∈ xs, t.Fits x) ∧ xs.length ≤ u32Max := Iff.rfl

theorem types_vec : (vec t).Types v ↔ ∃ w, v = .vec w ∧ ∀ y ∈ Utils.elements w, t.Types y :=
  Iff.rfl

/-! ## What is accepted -/

theorem inverseUpTo (t : NestedType) : InverseUpTo t.present t.encode (t.decode sdk) := by
  induction t with
  | scalar s => exact s.partialInverse.inverseUpTo
  | vec t ih => exact Utils.inverseUpTo_vecOf ih

theorem exists_encode_iff (t : NestedType) (x : t.Native) :
    (∃ v, t.encode x = .ok v) ↔ t.Fits x := by
  induction t with
  | scalar s => exact s.exists_encode_iff x
  | vec t ih =>
    have hfits : (∃ ys, x.mapM t.encode = .ok ys) ↔ ∀ y ∈ x, t.Fits y :=
      exists_mapM.trans (forall₂_congr fun y _ ↦ ih y)
    rw [fits_vec, ← hfits, encode]
    simp only [Utils.vecOf_eq_ok_iff]
    constructor
    · rintro ⟨v, w, rfl, hw⟩
      exact ⟨⟨_, hw⟩, (mapM_eq_ok.mp hw).length_eq ▸ w.length_toList_le⟩
    · rintro ⟨⟨ys, hys⟩, hle⟩
      obtain ⟨w, -, rfl⟩ := Utils.exists_vecVal ((mapM_eq_ok.mp hys).length_eq ▸ hle)
      exact ⟨_, w, rfl, hys⟩

theorem exists_decode_iff (t : NestedType) (v : ScVal) :
    (∃ x, t.decode sdk v = .ok x) ↔ t.Types v := by
  induction t generalizing v with
  | scalar s => exact s.exists_decode_iff v
  | vec t ih =>
    have htypes (w : Option ScVec) : (∃ xs, (Utils.elements w).mapM (t.decode sdk) = .ok xs) ↔
        ∀ y ∈ Utils.elements w, t.Types y :=
      exists_mapM.trans (forall₂_congr fun y _ ↦ ih y)
    rw [types_vec, decode]
    simp only [Utils.toVecOf_eq_ok_iff, ← htypes]
    constructor
    · rintro ⟨xs, w, hv, hw⟩
      exact ⟨w, hv, xs, hw⟩
    · rintro ⟨w, hv, xs, hw⟩
      exact ⟨xs, w, hv, hw⟩

/-! ## What is not -/

theorem encode_eq_error_iff (t : NestedType) (x : t.Native) :
    t.encode x = .error err ↔ t.Refuses x err := by
  induction t with
  | scalar s => exact Iff.rfl
  | vec t ih =>
    rw [encode, Refuses, Utils.vecOf_eq_error_iff, mapM_eq_error, exists_mapM]
    simp only [exists_encode_iff, ih]

theorem decode_eq_error_iff (t : NestedType) (v : ScVal) :
    t.decode sdk v = .error err ↔ t.Rejects sdk v err := by
  induction t generalizing v with
  | scalar s => exact Iff.rfl
  | vec t ih =>
    rw [decode, Rejects, Utils.toVecOf_eq_error_iff]
    simp only [mapM_eq_error, exists_decode_iff, ih]

/-! ## One type for a value -/

/-- The types of a value with a scalar in it go down to that scalar on the same way. -/
theorem eq_of_types (hv : HasScalar v) (h : t.Types v) (h' : t'.Types v) : t = t' := by
  induction hv generalizing t t' with
  | @self v s hs =>
    have hscalar {t : NestedType} (h : t.Types v) : t = .scalar s := by
      cases t with
      | scalar s' => exact congrArg scalar (Option.some.inj (h.1.symm.trans hs))
      | vec t =>
        obtain ⟨w, rfl, -⟩ := types_vec.mp h
        cases hs
    rw [hscalar h, hscalar h']
  | @inside w y hy _ ih =>
    have hvec {t : NestedType} (h : t.Types (.vec w)) : ∃ t₁, t = .vec t₁ ∧ t₁.Types y := by
      cases t with
      | scalar s => cases h.1
      | vec t =>
        obtain ⟨w', hw, hall⟩ := types_vec.mp h
        cases hw
        exact ⟨t, rfl, hall y hy⟩
    obtain ⟨t, rfl, ht⟩ := hvec h
    obtain ⟨t', rfl, ht'⟩ := hvec h'
    rw [ih ht ht']

theorem types_withScalar (h : t.Types v) (hv : ¬ HasScalar v) (s : Scalar) :
    (t.withScalar s).Types v := by
  induction t generalizing v with
  | scalar s' => exact absurd (.self h.1) hv
  | vec t ih =>
    obtain ⟨w, rfl, hw⟩ := types_vec.mp h
    exact ⟨w, rfl, fun y hy ↦ ih (hw y hy) fun hscalar ↦ hv (.inside hy hscalar)⟩

theorem withScalar_injective (t : NestedType) : Function.Injective t.withScalar := by
  intro s s' h
  induction t with
  | scalar _ => exact scalar.inj h
  | vec t ih => exact ih (vec.inj h)

/-- It takes a scalar to have only one type. -/
theorem unique_iff (h : t.Types v) : (∀ t' : NestedType, t'.Types v → t' = t) ↔ HasScalar v := by
  constructor
  · intro hunique
    by_contra hv
    have hsame (s : Scalar) : t.withScalar s = t := hunique _ (types_withScalar h hv s)
    have hscalar := withScalar_injective t ((hsame .i32).trans (hsame .u32).symm)
    cases hscalar
  · intro hv t' h'
    exact eq_of_types hv h' h

end NestedType

/-- The laws of the nested codecs. -/
structure NestedCodecs (sdk : Sdk) : Prop where
  /-- What is encoded is decoded to itself. -/
  decode_encode : ∀ (t : NestedType) (x : t.Native) (v : ScVal),
    t.encode x = .ok v → t.decode sdk v = .ok x
  /-- What is decoded is encoded to itself, absent vecs to empty ones wherever they are. -/
  encode_decode : ∀ (t : NestedType) (x : t.Native) (v : ScVal),
    t.decode sdk v = .ok x → t.encode x = .ok (t.present v)
  /-- What is encoded has no absent vec in it. -/
  encode_present : ∀ (t : NestedType) (x : t.Native) (v : ScVal),
    t.encode x = .ok v → t.present v = v
  /-- Two values are decoded to the same where they differ in absent and empty vecs only. -/
  decode_eq_iff : ∀ (t : NestedType) (x x' : t.Native) (v v' : ScVal),
    t.decode sdk v = .ok x → t.decode sdk v' = .ok x' → (t.present v = t.present v' ↔ x = x')
  /-- An encoder accepts what is not too long anywhere. -/
  encodes : ∀ (t : NestedType) (x : t.Native), (∃ v, t.encode x = .ok v) ↔ t.Fits x
  /-- A decoder accepts the values of its type. -/
  decodes : ∀ (t : NestedType) (v : ScVal), (∃ x, t.decode sdk v = .ok x) ↔ t.Types v
  /-- The error of an encoder is that of the first thing that does not fit. -/
  encode_fails : ∀ (t : NestedType) (x : t.Native) (err : SorobanUtilsError),
    t.encode x = .error err ↔ t.Refuses x err
  /-- The error of a decoder is that of the first thing that is not of the type. -/
  decode_fails : ∀ (t : NestedType) (v : ScVal) (err : SorobanUtilsError),
    t.decode sdk v = .error err ↔ t.Rejects sdk v err
  /-- No other decoder accepts a value with a scalar in it, and others accept every other value. -/
  separate : ∀ (t : NestedType) (x : t.Native) (v : ScVal), t.decode sdk v = .ok x →
    ((∀ (t' : NestedType) (x' : t'.Native), t'.decode sdk v = .ok x' → t' = t) ↔
      NestedType.HasScalar v)
  /-- The typed wrappers are the codecs one level above a scalar. -/
  typed : ∀ k : TypedVec, k.vecOf = (NestedType.vec (.scalar k.scalar)).encode ∧
    k.toVecOf sdk = (NestedType.vec (.scalar k.scalar)).decode sdk

/-- **Nested codecs.** At every depth encoder and decoder are inverse up to absent vecs, fail with
the error of the first thing they cannot take, and keep their types apart by the scalars. -/
theorem nestedCodecs (sdk : Sdk) : NestedCodecs sdk where
  decode_encode t _ _ h := t.inverseUpTo.decode_encode h
  encode_decode t _ _ h := t.inverseUpTo.encode_decode h
  encode_present t _ _ h := by
    have hinverse : InverseUpTo t.present t.encode (t.decode sdk) := t.inverseUpTo
    exact hinverse.normal_eq h
  decode_eq_iff t _ _ _ _ h h' := t.inverseUpTo.normal_eq_iff h h'
  encodes t x := t.exists_encode_iff x
  decodes t v := t.exists_decode_iff v
  encode_fails t x _ := t.encode_eq_error_iff x
  decode_fails t v _ := t.decode_eq_error_iff v
  separate t x v h := by
    have htypes : t.Types v := (t.exists_decode_iff v).mp ⟨x, h⟩
    rw [← NestedType.unique_iff htypes]
    refine forall_congr' fun t' ↦ ?_
    have htypes' : (∃ x', t'.decode sdk v = .ok x') ↔ t'.Types v := t'.exists_decode_iff v
    rw [← htypes', forall_exists_index]
  typed k := ⟨k.vecOf_eq, k.toVecOf_eq⟩

end StellarRustClient
