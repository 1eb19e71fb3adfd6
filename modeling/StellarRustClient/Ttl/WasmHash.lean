import StellarRustClient.Ttl

/-!
# Wasm hashes as text

`wasm_hash_to_hex` and `wasm_hash_from_hex`. The parser decodes first and checks the length of what
it has decoded, so the text is never cut or padded: what it accepts is exactly the 64 digits of the
hash, in either letter case.

`hex::decode` is an argument here, of which what `HexDecodes` documents is used.
-/

namespace StellarRustClient

variable {hexDecode : String → Except String (List UInt8)} {s : String} {h : Hash}

/-- 64 hexadecimal digits. -/
def IsHashText (s : String) : Prop :=
  s.toList.length = 64 ∧ ∀ c ∈ s.toList, IsHexDigit c

theorem length_hash (h : Hash) : h.toList.length = 32 := by simp

theorem wasmHashToHex_toList (h : Hash) : (wasmHashToHex h).toList = h.toList.flatMap hexByte := by
  rw [wasmHashToHex, hexEncode, String.toList_ofList]

theorem length_wasmHashToHex (h : Hash) : (wasmHashToHex h).toList.length = 64 := by
  rw [wasmHashToHex_toList, length_flatMap_hexByte, length_hash]

theorem wasmHashToHex_injective : Function.Injective wasmHashToHex := fun _ _ heq ↦
  Vector.toList_inj.mp (hexEncode_injective heq)

theorem toList_toLower (s : String) : s.toLower.toList = s.toList.map Char.toLower :=
  String.toList_map

/-- The parser accepts a text whose bytes are those of a hash, and gives that hash. -/
theorem wasmHashFromHex_eq_ok :
    wasmHashFromHex hexDecode s = .ok h ↔ hexDecode s = .ok h.toList := by
  rw [wasmHashFromHex]
  cases hdecode : hexDecode s with
  | error e => exact iff_of_false (by rintro ⟨⟩) (by simp)
  | ok bytes =>
    rw [Except.ok.injEq]
    by_cases hlen : bytes.length = 32
    · change (if h : bytes.length = 32 then pure _ else throw _) = _ ↔ _
      rw [dif_pos hlen]
      constructor
      · rintro ⟨⟩
        rfl
      · rintro rfl
        rfl
    · change (if h : bytes.length = 32 then pure _ else throw _) = _ ↔ _
      rw [dif_neg hlen]
      refine iff_of_false (by rintro ⟨⟩) ?_
      rintro rfl
      exact hlen (length_hash h)

/-- An error of the parser is an `Xdr` error. -/
theorem wasmHashFromHex_cases (hexDecode : String → Except String (List UInt8)) (s : String) :
    (∃ h, wasmHashFromHex hexDecode s = .ok h) ∨
      ∃ msg, wasmHashFromHex hexDecode s = .error (.xdr msg) := by
  rw [wasmHashFromHex]
  cases hexDecode s with
  | error e => exact .inr ⟨_, rfl⟩
  | ok bytes =>
    change (∃ h, (if h : bytes.length = 32 then pure _ else throw _) = _) ∨
      ∃ msg, (if h : bytes.length = 32 then pure _ else throw _) = _
    by_cases hlen : bytes.length = 32
    · exact .inl ⟨_, dif_pos hlen⟩
    · exact .inr ⟨_, dif_neg hlen⟩

/-- What the text of a hash decodes to. -/
theorem wasmHashFromHex_eq_ok_iff (hdecode : HexDecodes hexDecode) :
    wasmHashFromHex hexDecode s = .ok h ↔ IsHashText s ∧ wasmHashToHex h = s.toLower := by
  rw [wasmHashFromHex_eq_ok]
  have htext : wasmHashToHex h = s.toLower ↔
      h.toList.flatMap hexByte = s.toList.map Char.toLower := by
    rw [← String.toList_inj, wasmHashToHex_toList, toList_toLower]
  rw [htext]
  constructor
  · intro heq
    have hpairs := hdecode.reads s _ heq
    have hlen : s.toList.length = 64 := by
      rw [hpairs.length_eq, length_hash]
    exact ⟨⟨hlen, ((hdecode.accepts s).mp ⟨_, heq⟩).2⟩, hpairs.flatMap_eq⟩
  · rintro ⟨⟨hlen, hdigits⟩, heq⟩
    obtain ⟨bytes, hbytes⟩ := (hdecode.accepts s).mpr ⟨by omega, hdigits⟩
    -- The bytes read have the digits of `h`, and no two lists of bytes have the same digits.
    have hpairs := hdecode.reads s bytes hbytes
    have hsame : bytes.flatMap hexByte = h.toList.flatMap hexByte := by
      rw [hpairs.flatMap_eq, heq]
    rw [hbytes, flatMap_hexByte_injective hsame]

/-- The text of a hash is decoded to it. -/
theorem wasmHashFromHex_wasmHashToHex (hdecode : HexDecodes hexDecode) (h : Hash) :
    wasmHashFromHex hexDecode (wasmHashToHex h) = .ok h := by
  have htoList := wasmHashToHex_toList h
  have hpairs := HexPairs.of_bytes h.toList
  rw [← htoList] at hpairs
  have hdigits : ∀ c ∈ (wasmHashToHex h).toList, IsHexDigit c := hpairs.isHexDigit
  refine (wasmHashFromHex_eq_ok_iff hdecode).mpr ⟨⟨length_wasmHashToHex h, hdigits⟩, ?_⟩
  rw [← String.toList_inj, toList_toLower, ← hpairs.flatMap_eq, htoList]

/-- What `wasm_hash_from_hex` and `wasm_hash_to_hex` promise. -/
structure WasmHashText (hexDecode : String → Except String (List UInt8)) : Prop where
  /-- The parser gives the hash that the lowercase text is the text of. -/
  fromHex : ∀ s h, wasmHashFromHex hexDecode s = .ok h ↔
    IsHashText s ∧ wasmHashToHex h = s.toLower
  fromHex_toHex : ∀ h, wasmHashFromHex hexDecode (wasmHashToHex h) = .ok h
  toHex_fromHex : ∀ s h, wasmHashFromHex hexDecode s = .ok h → wasmHashToHex h = s.toLower
  toHex_injective : ∀ h h', wasmHashToHex h = wasmHashToHex h' → h = h'
  length_toHex : ∀ h, (wasmHashToHex h).length = 64
  /-- Any other text is an error. -/
  rejects : ∀ s, ¬ IsHashText s → ∃ msg, wasmHashFromHex hexDecode s = .error (.xdr msg)

/-- **Wasm hashes as text.** The parser accepts exactly the 64 digits of a hash. -/
theorem wasmHashText (hdecode : HexDecodes hexDecode) : WasmHashText hexDecode where
  fromHex s h := wasmHashFromHex_eq_ok_iff hdecode
  fromHex_toHex := wasmHashFromHex_wasmHashToHex hdecode
  toHex_fromHex s h heq := ((wasmHashFromHex_eq_ok_iff hdecode).mp heq).2
  toHex_injective h h' heq := wasmHashToHex_injective heq
  length_toHex h := by rw [← String.length_toList, length_wasmHashToHex]
  rejects s hs := by
    obtain ⟨h, hok⟩ | herror := wasmHashFromHex_cases hexDecode s
    · exact absurd ((wasmHashFromHex_eq_ok_iff hdecode).mp hok).1 hs
    · exact herror

/-! ## A decoder to run on -/

/-- Read the pairs of digits of a string. -/
def readPairs : List Char → Except String (List UInt8)
  | [] => .ok []
  | [_] => .error "Odd number of digits"
  | hi :: lo :: cs =>
    if IsHexDigit hi ∧ IsHexDigit lo then
      (readPairs cs).map (.ofNat (16 * hexValue hi + hexValue lo) :: ·)
    else .error "Invalid character"

theorem readPairs_of_hexPairs {cs : List Char} {bytes : List UInt8} (h : HexPairs cs bytes) :
    readPairs cs = .ok bytes := by
  induction h with
  | nil => rfl
  | @cons hi lo b cs bytes hhi hlo hb _ ih =>
    have hbyte : UInt8.ofNat (16 * hexValue hi + hexValue lo) = b := by
      rw [← hb, UInt8.ofNat_toNat]
    rw [readPairs, if_pos ⟨hhi, hlo⟩, ih, hbyte]
    rfl

/-- Two digits are a byte. -/
theorem toNat_hexByte {hi lo : Char} (hhi : IsHexDigit hi) (hlo : IsHexDigit lo) :
    (UInt8.ofNat (16 * hexValue hi + hexValue lo)).toNat = 16 * hexValue hi + hexValue lo := by
  have hhi' := (hexDigit_hexValue hhi).1
  have hlo' := (hexDigit_hexValue hlo).1
  rw [UInt8.toNat_ofNat']
  omega

theorem hexPairs_of_readPairs {cs : List Char} {bytes : List UInt8}
    (h : readPairs cs = .ok bytes) : HexPairs cs bytes := by
  induction cs using readPairs.induct generalizing bytes with
  | case1 =>
    cases h
    exact .nil
  | case2 c => cases h
  | case3 hi lo cs hdigits ih =>
    rw [readPairs, if_pos hdigits] at h
    cases hrest : readPairs cs with
    | error e =>
      rw [hrest] at h
      cases h
    | ok rest =>
      rw [hrest] at h
      cases h
      exact .cons hdigits.1 hdigits.2 (toNat_hexByte hdigits.1 hdigits.2) (ih hrest)
  | case4 hi lo cs hdigits =>
    rw [readPairs, if_neg hdigits] at h
    cases h

/-- Strings of digits of even length are read to the end. -/
theorem exists_hexPairs {cs : List Char} :
    (∃ bytes, HexPairs cs bytes) ↔ 2 ∣ cs.length ∧ ∀ c ∈ cs, IsHexDigit c := by
  constructor
  · rintro ⟨bytes, h⟩
    exact ⟨⟨bytes.length, h.length_eq⟩, h.isHexDigit⟩
  · rintro ⟨heven, hdigits⟩
    induction cs using readPairs.induct with
    | case1 => exact ⟨[], .nil⟩
    | case2 c => simp at heven
    | case3 hi lo cs hpair ih =>
      simp only [List.length_cons] at heven
      have hrest : ∀ c ∈ cs, IsHexDigit c := fun c hc ↦
        hdigits c (List.mem_cons_of_mem _ (List.mem_cons_of_mem _ hc))
      obtain ⟨bytes, hbytes⟩ := ih (by omega) hrest
      exact ⟨_, .cons hpair.1 hpair.2 (toNat_hexByte hpair.1 hpair.2) hbytes⟩
    | case4 hi lo cs hpair =>
      exact absurd ⟨hdigits hi (by simp), hdigits lo (by simp)⟩ hpair

theorem hexDecodes_readPairs : HexDecodes fun s ↦ readPairs s.toList where
  accepts s := by
    rw [← exists_hexPairs]
    exact exists_congr fun bytes ↦ ⟨hexPairs_of_readPairs, readPairs_of_hexPairs⟩
  reads s bytes h := hexPairs_of_readPairs h

theorem wasmHashText_readPairs : WasmHashText fun s ↦ readPairs s.toList :=
  wasmHashText hexDecodes_readPairs

end StellarRustClient
