import Xlfn.Text.CountedEncoding

/-!
# Xlfn — the storage of returned strings

A returned string is a unit with the count, and the UTF-16 units behind it. Both constructors take
the count from their caller and choose by it how to encode: as many bytes as units, three bytes for
each unit, or the standard encoder.

* `allocCountedUtf16WithLength`, `scalarStringNew` — the code; `none` is a panic.
-/

namespace Xlfn.ReturnAbi

open Xlfn.Lib Xlfn.Lib.Utf16 Xlfn.Text

-- ---- The code.

/-- `u16::try_from(length)`. -/
def countOf (argument : String) (limit length : Nat) : Except Text.XllError UInt16 :=
  if length ≤ 65535 then .ok (.ofNat length) else .error ⟨argument, .tooLarge limit length⟩

/-- `as_chunks::<3>().0`. -/
def asChunks : List UInt8 → List (UInt8 × UInt8 × UInt8)
  | first :: second :: third :: bytes => (first, second, third) :: asChunks bytes
  | _ => []

/-- The unit of three bytes. -/
def bmpUnit : UInt8 × UInt8 × UInt8 → UInt16
  | (first, second, third) =>
    (first &&& 0x0f).toUInt16 <<< 12 ||| (second &&& 0x3f).toUInt16 <<< 6 |||
      (third &&& 0x3f).toUInt16

/-- `alloc_slice_fill_with`, from index `i` on. -/
def fillFrom (f : Nat → Option UInt16) : Nat → Nat → Option (List UInt16)
  | _, 0 => some []
  | i, length + 1 =>
    match f i with
    | none => none
    | some unit => (fillFrom f (i + 1) length).map (unit :: ·)

def allocSliceFillWith (length : Nat) (f : Nat → Option UInt16) : Option (List UInt16) :=
  fillFrom f 0 length

/-- The count, and behind it what `f` gives. -/
def behindCount (count : UInt16) (f : Nat → Option UInt16) (index : Nat) : Option UInt16 :=
  if index = 0 then some count else f (index - 1)

/-- `ReturnStorage::alloc_counted_utf16_with_length`; `checked` is whether debug assertions are. -/
def allocCountedUtf16WithLength (checked : Bool) (text argument : String) (limit length : Nat) :
    Option (Except Text.XllError (List UInt16)) :=
  match countOf argument limit length with
  | .error error => some (.error error)
  | .ok count =>
    let bytes := asBytes text
    if bytes.length = count.toNat then
      (allocSliceFillWith (bytes.length + 1)
        (behindCount count fun index => bytes[index]?.map UInt8.toUInt16)).map .ok
    else if bytes.length = count.toNat * 3 then
      let bytes := asChunks bytes
      (allocSliceFillWith (bytes.length + 1)
        (behindCount count fun index => bytes[index]?.map bmpUnit)).map .ok
    else
      let encoded := encode text.toList
      match allocSliceFillWith (count.toNat + 1)
        (behindCount count fun index => encoded[index]?) with
      | none => none
      | some units => if checked ∧ count.toNat < encoded.length then none else some (.ok units)

/-- A loop over the payload and units at once. -/
def writeZip : Cells UInt16 → List UInt16 → Cells UInt16
  | _ :: payload, unit :: units => some unit :: writeZip payload units
  | payload, _ => payload

/-- The loop over the payload that takes the units one by one, with the units that are left. -/
def writeAll : Cells UInt16 → List UInt16 → Option (Cells UInt16 × List UInt16)
  | [], encoded => some ([], encoded)
  | _ :: _, [] => none
  | _ :: payload, unit :: encoded =>
    (writeAll payload encoded).map fun (payload, encoded) => (some unit :: payload, encoded)

/-- `ScalarStringStorage::new`: the cells that are handed out. -/
def scalarStringNew (checked : Bool) (text argument : String) (limit length : Nat) :
    Option (Except Text.XllError (Cells UInt16)) :=
  match countOf argument limit length with
  | .error error => some (.error error)
  | .ok count =>
    let payload : Cells UInt16 := Cells.uninit count.toNat
    let bytes := asBytes text
    if bytes.length = count.toNat then
      some (.ok (some count :: writeZip payload (bytes.map UInt8.toUInt16)))
    else if bytes.length = count.toNat * 3 then
      some (.ok (some count :: writeZip payload ((asChunks bytes).map bmpUnit)))
    else
      match writeAll payload (encode text.toList) with
      | none => none
      | some (payload, encoded) =>
        if checked ∧ encoded ≠ [] then none else some (.ok (some count :: payload))

-- ---- What the lengths tell.

theorem length_utf8_le (cs : List Char) : (utf8 cs).length ≤ length cs * 3 := by
  induction cs with
  | nil => exact Nat.le_refl _
  | cons c cs ih =>
    rw [length_cons, utf8_cons, List.length_append, length_encodeChar, length_utf8EncodeChar]
    split <;> split <;> split <;> omega

/-- **Text with three bytes a unit** has only scalars of three bytes. -/
theorem threeByte_of_length {cs : List Char} (h : (utf8 cs).length = length cs * 3) :
    ∀ c ∈ cs, 0x800 ≤ c.toNat ∧ c.toNat < 0x10000 := by
  induction cs with
  | nil => rintro c ⟨⟩
  | cons c cs ih =>
    have hrest := length_utf8_le cs
    rw [length_cons, utf8_cons, List.length_append, length_encodeChar, length_utf8EncodeChar] at h
    intro d hd
    rcases List.mem_cons.mp hd with rfl | hd
    · split at h <;> split at h <;> split at h <;> omega
    · refine ih ?_ d hd
      split at h <;> split at h <;> split at h <;> omega

theorem lead_and {n : Nat} (h : n < 0x10) : ((UInt8.ofNat (n + 0xe0)) &&& 0x0f).toNat = n := by
  have hall : ∀ n < 0x10, ((UInt8.ofNat (n + 0xe0)) &&& 0x0f).toNat = n := by decide
  exact hall n h

theorem continuation_and {n : Nat} (h : n < 0x40) :
    ((UInt8.ofNat (n + 0x80)) &&& 0x3f).toNat = n := by
  have hall : ∀ n < 0x40, ((UInt8.ofNat (n + 0x80)) &&& 0x3f).toNat = n := by decide
  exact hall n h

/-- **The unit of a scalar of three bytes.** -/
theorem bmpUnit_of_char {c : Char} (h : 0x800 ≤ c.toNat ∧ c.toNat < 0x10000) :
    ∃ first second third, String.utf8EncodeChar c = [first, second, third] ∧
      encodeChar c = [bmpUnit (first, second, third)] := by
  have hval : c.val.toNat = c.toNat := rfl
  refine ⟨.ofNat (c.toNat / 4096 % 0x10 + 0xe0), .ofNat (c.toNat / 64 % 0x40 + 0x80),
    .ofNat (c.toNat % 0x40 + 0x80), ?_, ?_⟩
  · unfold String.utf8EncodeChar
    rw [hval]
    dsimp only
    rw [if_neg (by omega), if_neg (by omega), if_pos (by omega)]
  · rw [encodeChar, if_pos h.2]
    congr 1
    refine UInt16.toNat_inj.mp ?_
    have hlead : (c.toNat / 4096 % 0x10) <<< 12 % 2 ^ 16 = 2 ^ 12 * (c.toNat / 4096) := by
      rw [Nat.shiftLeft_eq, Nat.mod_eq_of_lt (by omega), Nat.mod_eq_of_lt (by omega), Nat.mul_comm]
    have hmiddle : (c.toNat / 64 % 0x40) <<< 6 % 2 ^ 16 = 2 ^ 6 * (c.toNat / 64 % 0x40) := by
      rw [Nat.shiftLeft_eq, Nat.mod_eq_of_lt (by omega), Nat.mul_comm]
    unfold bmpUnit
    rw [UInt16.toNat_or, UInt16.toNat_or, UInt16.toNat_shiftLeft, UInt16.toNat_shiftLeft,
      UInt8.toNat_toUInt16, UInt8.toNat_toUInt16, UInt8.toNat_toUInt16, lead_and (by omega),
      continuation_and (by omega), continuation_and (by omega), toNat_unit h.2]
    show c.toNat = (c.toNat / 4096 % 0x10) <<< 12 % 2 ^ 16 |||
      (c.toNat / 64 % 0x40) <<< 6 % 2 ^ 16 ||| c.toNat % 0x40
    rw [hlead, hmiddle, Nat.or_assoc, tag_or 6 _ (by omega), tag_or 12 _ (by omega)]
    omega

theorem asChunks_append (first second third : UInt8) (bytes : List UInt8) :
    asChunks ([first, second, third] ++ bytes) = (first, second, third) :: asChunks bytes := rfl

theorem asChunks_utf8 {cs : List Char} (h : ∀ c ∈ cs, 0x800 ≤ c.toNat ∧ c.toNat < 0x10000) :
    (asChunks (utf8 cs)).map bmpUnit = encode cs := by
  induction cs with
  | nil => rfl
  | cons c cs ih =>
    obtain ⟨first, second, third, hbytes, hunit⟩ := bmpUnit_of_char (h c List.mem_cons_self)
    rw [utf8_cons, hbytes, asChunks_append, List.map_cons, encode_cons, hunit,
      ih fun d hd => h d (List.mem_cons_of_mem _ hd)]
    rfl

theorem length_asChunks : (bytes : List UInt8) → (asChunks bytes).length = bytes.length / 3
  | [] => rfl
  | [_] => by simp [asChunks]
  | [_, _] => by simp [asChunks]
  | _ :: _ :: _ :: bytes => by
    rw [asChunks, List.length_cons, length_asChunks bytes, List.length_cons, List.length_cons,
      List.length_cons]
    omega

-- ---- Filling.

variable {units : List UInt16}

theorem fillFrom_eq {f : Nat → Option UInt16} {i : Nat}
    (h : ∀ k, k < units.length → f (i + k) = units[k]?) :
    fillFrom f i units.length = some units := by
  induction units generalizing i with
  | nil => rfl
  | cons unit units ih =>
    have hfirst : f i = some unit := h 0 (Nat.zero_lt_succ _)
    have hrest : fillFrom f (i + 1) units.length = some units := by
      refine ih fun k hk => ?_
      rw [Nat.add_right_comm, Nat.add_assoc, h (k + 1) (Nat.succ_lt_succ hk),
        List.getElem?_cons_succ]
    rw [List.length_cons, fillFrom, hfirst]
    dsimp only
    rw [hrest]
    rfl

theorem allocSliceFillWith_eq (count : UInt16) {f : Nat → Option UInt16}
    (h : ∀ k, k < units.length → f k = units[k]?) :
    allocSliceFillWith (units.length + 1) (behindCount count f) = some (count :: units) := by
  show fillFrom _ 0 (count :: units).length = _
  refine fillFrom_eq fun k hk => ?_
  rw [Nat.zero_add]
  cases k with
  | zero => rfl
  | succ k =>
    rw [behindCount, if_neg (Nat.succ_ne_zero k), Nat.add_sub_cancel, List.getElem?_cons_succ]
    exact h k (Nat.lt_of_succ_lt_succ hk)

theorem writeZip_eq {payload : Cells UInt16} (h : payload.length = units.length) :
    writeZip payload units = units.map some := by
  induction units generalizing payload with
  | nil =>
    rw [List.length_eq_zero_iff.mp h]
    rfl
  | cons unit units ih =>
    cases payload with
    | nil => cases h
    | cons cell payload => rw [writeZip, ih (Nat.succ.inj h), List.map_cons]

theorem writeAll_spec (payload : Cells UInt16) (encoded : List UInt16) :
    writeAll payload encoded = if payload.length ≤ encoded.length then
      some ((encoded.take payload.length).map some, encoded.drop payload.length) else none := by
  induction payload generalizing encoded with
  | nil => rfl
  | cons cell payload ih =>
    cases encoded with
    | nil => rfl
    | cons unit encoded =>
      rw [writeAll, ih, List.length_cons, List.length_cons]
      by_cases hroom : payload.length ≤ encoded.length
      · rw [if_pos hroom, if_pos (Nat.succ_le_succ hroom)]
        rfl
      · rw [if_neg hroom, if_neg fun h => hroom (Nat.le_of_succ_le_succ h)]
        rfl

-- ---- Every branch.

theorem countOf_ok {argument : String} {limit length : Nat} (h : length ≤ 65535) :
    countOf argument limit length = .ok (.ofNat length) := if_pos h

/-- The branches of a constructor that is given the true count, by what they have to encode. -/
theorem branches (text : String) : ((asBytes text).length = length text.toList ∧
        (asBytes text).map UInt8.toUInt16 = encode text.toList) ∨
      ((asBytes text).length ≠ length text.toList ∧ (asBytes text).length = length text.toList * 3 ∧
          (asChunks (asBytes text)).map bmpUnit = encode text.toList) ∨
      ((asBytes text).length ≠ length text.toList ∧
        (asBytes text).length ≠ length text.toList * 3) := by
  by_cases hascii : (asBytes text).length = length text.toList
  · exact .inl ⟨hascii, (encode_ascii (ascii_of_length_utf8 hascii)).symm⟩
  · by_cases hbmp : (asBytes text).length = length text.toList * 3
    · exact .inr (.inl ⟨hascii, hbmp, asChunks_utf8 (threeByte_of_length hbmp)⟩)
    · exact .inr (.inr ⟨hascii, hbmp⟩)

variable {text : String}

theorem allocCountedUtf16WithLength_eq (checked : Bool) (argument : String) (limit : Nat)
    (h : length text.toList ≤ 65535) :
    allocCountedUtf16WithLength checked text argument limit (length text.toList) =
      some (.ok (.ofNat (length text.toList) :: encode text.toList)) := by
  have hcount : (UInt16.ofNat (length text.toList)).toNat = length text.toList :=
    toNat_unit (by omega)
  unfold allocCountedUtf16WithLength
  rw [countOf_ok h]
  dsimp only
  rw [hcount]
  rcases branches text with ⟨hascii, hunits⟩ | ⟨hascii, hbmp, hunits⟩ | ⟨hascii, hbmp⟩
  · have hlength : (asBytes text).length = (encode text.toList).length := hascii
    rw [if_pos hascii, hlength, allocSliceFillWith_eq]
    · rfl
    · intro k _
      rw [← hunits, List.getElem?_map]
  · have hlength : (asChunks (asBytes text)).length = (encode text.toList).length := by
      rw [← hunits, List.length_map]
    rw [if_neg hascii, if_pos hbmp, hlength, allocSliceFillWith_eq]
    · rfl
    · intro k _
      rw [← hunits, List.getElem?_map]
  · rw [if_neg hascii, if_neg hbmp, show length text.toList = (encode text.toList).length from rfl,
      allocSliceFillWith_eq _ fun k _ => rfl]
    dsimp only
    rw [if_neg fun hlong => Nat.lt_irrefl _ hlong.2]

theorem scalarStringNew_eq (checked : Bool) (argument : String) (limit : Nat)
    (h : length text.toList ≤ 65535) :
    scalarStringNew checked text argument limit (length text.toList) =
      some (.ok ((UInt16.ofNat (length text.toList) :: encode text.toList).map some)) := by
  have hcount : (UInt16.ofNat (length text.toList)).toNat = length text.toList :=
    toNat_unit (by omega)
  have hcells : (Cells.uninit (length text.toList) : Cells UInt16).length =
      (encode text.toList).length := List.length_replicate
  unfold scalarStringNew
  rw [countOf_ok h]
  dsimp only
  rw [hcount]
  rcases branches text with ⟨hascii, hunits⟩ | ⟨hascii, hbmp, hunits⟩ | ⟨hascii, hbmp⟩
  · rw [if_pos hascii, hunits, writeZip_eq hcells, List.map_cons]
  · rw [if_neg hascii, if_pos hbmp, hunits, writeZip_eq hcells, List.map_cons]
  · rw [if_neg hascii, if_neg hbmp, writeAll_spec, if_pos (Nat.le_of_eq hcells), hcells,
      List.take_length, List.drop_length, List.map_cons]
    dsimp only
    rw [if_neg fun hlong => hlong.2 rfl]

theorem scalarStringNew_initialised {checked : Bool} {argument : String} {limit length : Nat}
    {cells : Cells UInt16}
    (h : scalarStringNew checked text argument limit length = some (.ok cells)) :
    cells.length = length + 1 ∧ ∃ units, Cells.assumeInit cells = some units := by
  have hinit (count : UInt16) (units : List UInt16) (hlength : units.length = length) :
      (some count :: units.map some).length = length + 1 ∧
        ∃ units', Cells.assumeInit (some count :: units.map some) = some units' := by
    refine ⟨by rw [List.length_cons, List.length_map, hlength], count :: units, ?_⟩
    rw [Cells.assumeInit, Cells.assumeInit_map_some]
    rfl
  unfold scalarStringNew countOf at h
  by_cases hlength : length ≤ 65535
  · have hcount : (UInt16.ofNat length).toNat = length := toNat_unit (by omega)
    rw [if_pos hlength] at h
    dsimp only at h
    rw [hcount] at h
    have hcells : (Cells.uninit length : Cells UInt16).length = length := List.length_replicate
    split at h
    next hbytes =>
      have hunits : ((asBytes text).map UInt8.toUInt16).length = length := by
        rw [List.length_map, hbytes]
      rw [writeZip_eq (hcells.trans hunits.symm)] at h
      cases h
      exact hinit _ _ hunits
    next =>
      split at h
      next hbytes =>
        have hunits : ((asChunks (asBytes text)).map bmpUnit).length = length := by
          rw [List.length_map, length_asChunks, hbytes]
          omega
        rw [writeZip_eq (hcells.trans hunits.symm)] at h
        cases h
        exact hinit _ _ hunits
      next =>
        rw [writeAll_spec, hcells] at h
        by_cases hroom : length ≤ (encode text.toList).length
        · rw [if_pos hroom] at h
          dsimp only at h
          split at h
          · cases h
          · cases h
            refine hinit _ _ ?_
            rw [List.length_take]
            omega
        · rw [if_neg hroom] at h
          cases h
  · rw [if_neg hlength] at h
    cases h

/-- **Returned strings are their UTF-16 form**: given the true count, whichever branch is taken;
and given any count, every unit of the scalar storage is initialised, and no other is written. -/
theorem returned_strings_exact (checked : Bool) (text argument : String) (limit : Nat) :
    (length text.toList ≤ 65535 →
      (UInt16.ofNat (length text.toList)).toNat = (encode text.toList).length ∧
      allocCountedUtf16WithLength checked text argument limit (length text.toList) =
        some (.ok (.ofNat (length text.toList) :: encode text.toList)) ∧
      scalarStringNew checked text argument limit (length text.toList) =
        some (.ok ((UInt16.ofNat (length text.toList) :: encode text.toList).map some))) ∧
    ∀ length cells, scalarStringNew checked text argument limit length = some (.ok cells) →
      cells.length = length + 1 ∧ ∃ units, Cells.assumeInit cells = some units :=
  ⟨fun h => ⟨toNat_unit (by omega), allocCountedUtf16WithLength_eq checked argument limit h,
    scalarStringNew_eq checked argument limit h⟩, fun _ _ => scalarStringNew_initialised⟩

end Xlfn.ReturnAbi
