import Xlfn.Lib.Buffer
import Xlfn.Lib.Utf16

/-!
# Xlfn — the UTF-16 decoder

`Utf16Decoder` plans the UTF-8 length of counted Excel text in one pass, and writes the bytes in
a second one into memory of that length, with two fast paths for units that all need one byte
or all need three. It writes through raw pointers, so the plan has to bound the second pass also
where that stops at a bad unit.

* `Utf16Decoder.new`, `decodeInto`, `decodeOwned` — the code; a fault is a write outside the
  memory or a read of memory never written.

Lengths are unbounded here: a slice has at most `isize::MAX` bytes, so no sum of lengths below
overflows.
-/

namespace Xlfn.Text

open Xlfn.Lib Xlfn.Lib.Utf16 List

-- ---- Errors.

inductive InputError where
  | invalidUtf16
  | tooLarge (limit actual : Nat)
deriving DecidableEq

/-- `XllError::Input`. -/
structure XllError where
  argument : String
  reason   : InputError
deriving DecidableEq

-- ---- The plan.

/-- A `u16` for a condition. -/
def ofBool (b : Bool) : UInt16 := if b then 1 else 0

/-- What one unit adds to the plan, in `u16`. -/
def unitCost (unit : UInt16) : UInt16 :=
  1 + ofBool (0x80 ≤ unit.toNat) + ofBool (0x800 ≤ unit.toNat) -
    ofBool (0xd800 ≤ unit.toNat && unit.toNat ≤ 0xdfff)

/-- A subtotal in `u16`. -/
def subtotal (chunk : List UInt16) : UInt16 := chunk.foldl (fun sum unit => sum + unitCost unit) 0

structure Utf16Decoder where
  units   : List UInt16
  utf8Len : Nat

def Utf16Decoder.new (units : List UInt16) : Utf16Decoder :=
  ⟨units, ((chunks 64 units).map fun chunk => (subtotal chunk).toNat).sum⟩

-- ---- The bytes.

/-- The narrowing of every unit. -/
def writeAscii : Cells UInt8 → List UInt16 → Cells UInt8
  | _ :: cells, unit :: units => some unit.toUInt8 :: writeAscii cells units
  | cells, _ => cells

/-- `decode_three_byte_bmp`. -/
def decodeThreeByteBmp : List UInt16 → Cells UInt8 → Cells UInt8
  | unit :: units, _ :: _ :: _ :: cells =>
    some (.ofNat (0xe0 ||| unit.toNat >>> 12)) ::
      some (.ofNat (0x80 ||| ((unit.toNat >>> 6) &&& 0x3f))) ::
      some (.ofNat (0x80 ||| (unit.toNat &&& 0x3f))) :: decodeThreeByteBmp units cells
  | _, cells => cells

/-- The bytes of one scalar. -/
def scalarBytes (scalar : Nat) : List UInt8 :=
  if scalar ≤ 0x7f then [.ofNat scalar]
  else if scalar ≤ 0x7ff then
    [.ofNat (0xc0 ||| scalar >>> 6), .ofNat (0x80 ||| (scalar &&& 0x3f))]
  else if scalar ≤ 0xffff then
    [.ofNat (0xe0 ||| scalar >>> 12), .ofNat (0x80 ||| ((scalar >>> 6) &&& 0x3f)),
      .ofNat (0x80 ||| (scalar &&& 0x3f))]
  else
    [.ofNat (0xf0 ||| scalar >>> 18), .ofNat (0x80 ||| ((scalar >>> 12) &&& 0x3f)),
      .ofNat (0x80 ||| ((scalar >>> 6) &&& 0x3f)), .ofNat (0x80 ||| (scalar &&& 0x3f))]

/-- What the write pass leaves: the memory, how many bytes were written, and whether the units
came to their end. -/
structure Written where
  output      : Cells UInt8
  initialized : Nat
  complete    : Bool

/-- The general loop. It stops at the first bad unit. -/
def writeScalars : List (Except UInt16 Char) → Cells UInt8 → Nat → Option Written
  | [], output, initialized => some ⟨output, initialized, true⟩
  | .error _ :: _, output, initialized => some ⟨output, initialized, false⟩
  | .ok character :: rest, output, initialized =>
    match output.store initialized (scalarBytes character.toNat) with
    | none => none
    | some output =>
      writeScalars rest output (initialized + (scalarBytes character.toNat).length)

/-- `checked_mul` below `usize::MAX`. -/
def checkedMul (usizeMax m n : Nat) : Option Nat := if m * n ≤ usizeMax then some (m * n) else none

/-- The write pass. -/
def Utf16Decoder.write (usizeMax : Nat) (d : Utf16Decoder) (output : Cells UInt8) :
    Option Written :=
  if d.utf8Len = d.units.length then some ⟨writeAscii output d.units, d.utf8Len, true⟩
  else if checkedMul usizeMax d.units.length 3 = some d.utf8Len then
    some ⟨decodeThreeByteBmp d.units output, d.utf8Len, true⟩
  else writeScalars (decode d.units) output 0

/-- What the caller gets, and how many bytes were written. -/
structure Decoded where
  written : Nat
  result  : Except XllError (List UInt8)

/-- `decode_into`. -/
def Utf16Decoder.decodeInto (usizeMax : Nat) (d : Utf16Decoder) (output : Cells UInt8)
    (argument : String) : Option Decoded :=
  if output.length < d.utf8Len then none
  else
    match d.write usizeMax (output.take d.utf8Len) with
    | none => none
    | some w =>
      if w.complete then
        (Cells.assumeInit (w.output.take w.initialized)).map fun bytes => ⟨w.initialized, .ok bytes⟩
      else some ⟨w.initialized, .error ⟨argument, .invalidUtf16⟩⟩

/-- `decode_owned`, into an allocation with `spare` bytes more than asked for. -/
def decodeOwned (usizeMax spare : Nat) (units : List UInt16) (argument : String) : Option Decoded :=
  (Utf16Decoder.new units).decodeInto usizeMax
    (Cells.uninit ((Utf16Decoder.new units).utf8Len + spare)) argument

-- ---- The plan is the sum of what the units need.

theorem toNat_unitCost (unit : UInt16) : (unitCost unit).toNat = unitBytes unit := by
  have hsurrogate : (0xd800 ≤ unit.toNat && unit.toNat ≤ 0xdfff) = isSurrogate unit := by
    refine Bool.eq_iff_iff.mpr ?_
    rw [isSurrogate_iff, Bool.and_eq_true, decide_eq_true_eq, decide_eq_true_eq]
    omega
  rw [unitCost, hsurrogate, unitBytes]
  by_cases hascii : 0x80 ≤ unit.toNat
  · by_cases hshort : 0x800 ≤ unit.toNat
    · cases isSurrogate unit <;> simp only [hascii, hshort, decide_true, if_true] <;> rfl
    · have hplain : isSurrogate unit = false := by
        rw [Bool.eq_false_iff, Ne, isSurrogate_iff]
        omega
      simp only [hascii, hshort, hplain, decide_true, decide_false, if_true, if_false]
      rfl
  · have hplain : isSurrogate unit = false := by
      rw [Bool.eq_false_iff, Ne, isSurrogate_iff]
      omega
    have hshort : ¬0x800 ≤ unit.toNat := by omega
    simp only [hascii, hshort, hplain, decide_false, if_false]
    rfl

theorem toNat_foldl_unitCost (chunk : List UInt16) (sum : UInt16)
    (h : sum.toNat + 3 * chunk.length < 2 ^ 16) :
    (chunk.foldl (fun sum unit => sum + unitCost unit) sum).toNat =
      sum.toNat + plannedBytes chunk := by
  induction chunk generalizing sum with
  | nil => rfl
  | cons unit chunk ih =>
    have hbytes := unitBytes_bounds unit
    rw [List.length_cons] at h
    have hsum : (sum + unitCost unit).toNat = sum.toNat + unitBytes unit := by
      rw [UInt16.toNat_add, toNat_unitCost, Nat.mod_eq_of_lt (by omega)]
    rw [foldl_cons, ih _ (by omega), hsum, plannedBytes_cons, Nat.add_assoc]

theorem toNat_subtotal {chunk : List UInt16} (h : chunk.length ≤ 64) :
    (subtotal chunk).toNat = plannedBytes chunk := by
  have hfold := toNat_foldl_unitCost chunk 0 (by rw [UInt16.toNat_zero]; omega)
  rwa [UInt16.toNat_zero, Nat.zero_add] at hfold

theorem utf8Len_new (units : List UInt16) :
    (Utf16Decoder.new units).utf8Len = plannedBytes units := by
  have hchunks : (chunks 64 units).map (fun chunk => (subtotal chunk).toNat) =
      (chunks 64 units).map fun chunk => (chunk.map unitBytes).sum :=
    map_congr_left fun chunk hchunk =>
      toNat_subtotal (length_le_of_mem_chunks (by decide) hchunk)
  rw [Utf16Decoder.new, hchunks, sum_chunks]
  rfl

-- ---- The bytes of a scalar.

theorem tag_or {n : Nat} (i a : Nat) (h : n < 2 ^ i) : 2 ^ i * a ||| n = n + 2 ^ i * a := by
  rw [← Nat.two_pow_add_eq_or_of_lt h, Nat.add_comm]

theorem continuation_eq (n : Nat) : 0x80 ||| (n &&& 0x3f) = n % 0x40 + 0x80 := by
  have hmask : n &&& 0x3f = n % 0x40 := Nat.and_two_pow_sub_one_eq_mod n 6
  rw [hmask]
  exact tag_or 6 2 (Nat.mod_lt n (by decide))

theorem lead2_eq {n : Nat} (h : n ≤ 0x7ff) : 0xc0 ||| n >>> 6 = n / 64 % 0x20 + 0xc0 := by
  have hshift : n >>> 6 = n / 64 := Nat.shiftRight_eq_div_pow n 6
  rw [hshift, Nat.mod_eq_of_lt (by omega)]
  exact tag_or 5 6 (by omega)

theorem lead3_eq {n : Nat} (h : n ≤ 0xffff) : 0xe0 ||| n >>> 12 = n / 4096 % 0x10 + 0xe0 := by
  have hshift : n >>> 12 = n / 4096 := Nat.shiftRight_eq_div_pow n 12
  rw [hshift, Nat.mod_eq_of_lt (by omega)]
  exact tag_or 4 14 (by omega)

theorem lead4_eq {n : Nat} (h : n < 0x110000) : 0xf0 ||| n >>> 18 = n / 262144 % 0x08 + 0xf0 := by
  have hshift : n >>> 18 = n / 262144 := Nat.shiftRight_eq_div_pow n 18
  rw [hshift, Nat.mod_eq_of_lt (by omega)]
  exact tag_or 3 30 (by omega)

theorem continuation6_eq (n : Nat) : 0x80 ||| ((n >>> 6) &&& 0x3f) = n / 64 % 0x40 + 0x80 := by
  have hshift : n >>> 6 = n / 64 := Nat.shiftRight_eq_div_pow n 6
  rw [hshift, continuation_eq]

theorem continuation12_eq (n : Nat) : 0x80 ||| ((n >>> 12) &&& 0x3f) = n / 4096 % 0x40 + 0x80 := by
  have hshift : n >>> 12 = n / 4096 := Nat.shiftRight_eq_div_pow n 12
  rw [hshift, continuation_eq]

/-- **The written bytes of a scalar are its UTF-8 form.** -/
theorem scalarBytes_eq (c : Char) : scalarBytes c.toNat = String.utf8EncodeChar c := by
  have hval : c.val.toNat = c.toNat := rfl
  have hvalid := char_valid c
  unfold scalarBytes String.utf8EncodeChar
  rw [hval]
  dsimp only
  split
  · rfl
  · split
    · next hshort => rw [lead2_eq hshort, continuation_eq]
    · split
      · next hbasic => rw [lead3_eq hbasic, continuation6_eq, continuation_eq]
      · rw [lead4_eq (by omega), continuation12_eq, continuation6_eq, continuation_eq]

-- ---- The fast paths.

theorem length_le_plannedBytes (units : List UInt16) : units.length ≤ plannedBytes units := by
  induction units with
  | nil => exact Nat.le_refl _
  | cons unit units ih =>
    have hbytes := unitBytes_bounds unit
    rw [plannedBytes_cons, List.length_cons]
    omega

variable {units : List UInt16}

theorem ascii_of_planned (h : plannedBytes units = units.length) : ∀ u ∈ units, u.toNat < 0x80 := by
  induction units with
  | nil => rintro u ⟨⟩
  | cons unit units ih =>
    have hbytes := unitBytes_bounds unit
    have hrest := length_le_plannedBytes units
    rw [plannedBytes_cons, List.length_cons] at h
    intro u hu
    rcases mem_cons.mp hu with rfl | hu
    · exact lt_of_unitBytes_eq_one (by omega)
    · exact ih (by omega) u hu

theorem bmp_of_planned (h : plannedBytes units = units.length * 3) :
    ∀ u ∈ units, 0x800 ≤ u.toNat ∧ isSurrogate u = false := by
  induction units with
  | nil => rintro u ⟨⟩
  | cons unit units ih =>
    have hbytes := unitBytes_bounds unit
    have hrest := plannedBytes_le units
    rw [plannedBytes_cons, List.length_cons] at h
    intro u hu
    rcases mem_cons.mp hu with rfl | hu
    · exact ge_of_unitBytes_eq_three (by omega)
    · exact ih (by omega) u hu

/-- The scalars of units without surrogates. -/
def plainChars (units : List UInt16) : List Char := units.map fun u => .ofNat u.toNat

theorem plainChars_cons (u : UInt16) (units : List UInt16) :
    plainChars (u :: units) = .ofNat u.toNat :: plainChars units := rfl

theorem decode_plain (h : ∀ u ∈ units, isSurrogate u = false) :
    decode units = (plainChars units).map .ok := by
  induction units with
  | nil => rfl
  | cons u units ih =>
    have hu := h u mem_cons_self
    rw [decode_cons (isLead_eq_false hu), decodeUnit_ok hu,
      ih fun v hv => h v (mem_cons_of_mem _ hv)]
    rfl

theorem not_surrogate_of_ascii {u : UInt16} (h : u.toNat < 0x80) : isSurrogate u = false := by
  rw [Bool.eq_false_iff, Ne, isSurrogate_iff]
  omega

theorem utf8EncodeChar_asciiUnit {u : UInt16} (h : u.toNat < 0x80) :
    String.utf8EncodeChar (.ofNat u.toNat) = [u.toUInt8] := by
  rw [← scalarBytes_eq, toNat_ofNat_of_not_surrogate (not_surrogate_of_ascii h), scalarBytes,
    if_pos (by omega), UInt8.ofNat_uInt16ToNat]

theorem writeAscii_eq (h : ∀ u ∈ units, u.toNat < 0x80) (output : Cells UInt8)
    (hlength : output.length = units.length) :
    writeAscii output units = (utf8 (plainChars units)).map some := by
  induction units generalizing output with
  | nil =>
    rw [length_eq_zero_iff.mp hlength]
    rfl
  | cons u units ih =>
    cases output with
    | nil => cases hlength
    | cons cell output =>
      have hu := h u mem_cons_self
      rw [writeAscii, ih (fun v hv => h v (mem_cons_of_mem _ hv)) output
        (Nat.succ.inj hlength), plainChars_cons, utf8_cons, utf8EncodeChar_asciiUnit hu]
      rfl

theorem decodeThreeByteBmp_eq (h : ∀ u ∈ units, 0x800 ≤ u.toNat ∧ isSurrogate u = false)
    (output : Cells UInt8) (hlength : output.length = units.length * 3) :
    decodeThreeByteBmp units output = (utf8 (plainChars units)).map some := by
  induction units generalizing output with
  | nil =>
    rw [List.length_nil, Nat.zero_mul] at hlength
    rw [List.length_eq_zero_iff.mp hlength]
    rfl
  | cons u units ih =>
    rw [List.length_cons] at hlength
    rcases output with _ | ⟨a, _ | ⟨b, _ | ⟨c, output⟩⟩⟩
    · rw [List.length_nil] at hlength
      omega
    · rw [List.length_singleton] at hlength
      omega
    · simp only [List.length_cons, List.length_nil] at hlength
      omega
    · obtain ⟨hu, hplain⟩ := h u List.mem_cons_self
      have hlt : u.toNat < 0x10000 := u.toNat_lt
      have hbytes : String.utf8EncodeChar (.ofNat u.toNat) =
          [.ofNat (0xe0 ||| u.toNat >>> 12), .ofNat (0x80 ||| ((u.toNat >>> 6) &&& 0x3f)),
            .ofNat (0x80 ||| (u.toNat &&& 0x3f))] := by
        rw [← scalarBytes_eq, toNat_ofNat_of_not_surrogate hplain, scalarBytes,
          if_neg (by omega), if_neg (by omega), if_pos (by omega)]
      have hrest : output.length = units.length * 3 := by
        simp only [List.length_cons] at hlength
        omega
      rw [decodeThreeByteBmp, ih (fun v hv => h v (List.mem_cons_of_mem _ hv)) output hrest,
        plainChars_cons, utf8_cons, hbytes]
      rfl

-- ---- The general loop.

/-- **The general loop** writes the UTF-8 form of what comes before the first bad unit. -/
theorem writeScalars_spec (ds : List (Except UInt16 Char)) (output : Cells UInt8)
    (xs : List UInt8) (hfilled : Cells.Filled output xs)
    (hroom : xs.length + (utf8 (beforeError ds)).length ≤ output.length) :
    ∃ w, writeScalars ds output xs.length = some w ∧
      w.initialized = xs.length + (utf8 (beforeError ds)).length ∧
      Cells.Filled w.output (xs ++ utf8 (beforeError ds)) ∧
      (w.complete = true ↔ ∀ u, .error u ∉ ds) := by
  induction ds generalizing output xs with
  | nil =>
    have hsame : xs ++ utf8 (beforeError []) = xs := append_nil xs
    refine ⟨_, rfl, rfl, ?_, ?_⟩
    · rwa [hsame]
    · exact ⟨fun _ u => not_mem_nil, fun _ => rfl⟩
  | cons d ds ih =>
    cases d with
    | error u =>
      have hsame : xs ++ utf8 (beforeError (.error u :: ds)) = xs := append_nil xs
      refine ⟨_, rfl, rfl, ?_, ?_⟩
      · rwa [hsame]
      · exact ⟨nofun, fun hgood => absurd mem_cons_self (hgood u)⟩
    | ok c =>
      rw [beforeError, utf8_cons, length_append] at hroom
      obtain ⟨output', hstore, hlength, hfilled'⟩ :=
        hfilled.store (String.utf8EncodeChar c) (by omega)
      have hafter : (xs ++ String.utf8EncodeChar c).length =
          xs.length + (String.utf8EncodeChar c).length := length_append
      obtain ⟨w, hw, hinitialized, hbytes, hcomplete⟩ :=
        ih output' (xs ++ String.utf8EncodeChar c) hfilled' (by rw [hafter, hlength]; omega)
      refine ⟨w, ?_, ?_, ?_, ?_⟩
      · rw [writeScalars, scalarBytes_eq, hstore]
        dsimp only
        rw [← hafter]
        exact hw
      · rw [hinitialized, hafter, beforeError, utf8_cons, length_append, Nat.add_assoc]
      · rwa [beforeError, utf8_cons, ← append_assoc]
      · rw [hcomplete]
        refine ⟨fun hgood u hu => ?_, fun hgood u hu => hgood u (mem_cons_of_mem _ hu)⟩
        rcases mem_cons.mp hu with heq | hu
        · cases heq
        · exact hgood u hu

-- ---- The decoder.

/-- What the write pass has to do: as many bytes as planned where the input is strict, and no
more where it is not. -/
structure Writes (units : List UInt16) (w : Written) : Prop where
  bounded  : w.initialized ≤ plannedBytes units
  strict   : ∀ cs, decode units = cs.map .ok →
    w.complete = true ∧ w.initialized = plannedBytes units ∧ Cells.Filled w.output (utf8 cs)
  unpaired : Unpaired units → w.complete = false

theorem Writes.plain {output : Cells UInt8} (hplain : ∀ u ∈ units, isSurrogate u = false)
    (houtput : output = (utf8 (plainChars units)).map some) :
    Writes units ⟨output, plannedBytes units, true⟩ := by
  have hdecode := decode_plain hplain
  refine ⟨Nat.le_refl _, fun cs hcs => ⟨rfl, rfl, [], ?_⟩, fun hbad => ?_⟩
  · have hmap : (plainChars units).map (Except.ok : Char → Except UInt16 Char) = cs.map .ok :=
      hdecode.symm.trans hcs
    have hsame : plainChars units = cs :=
      map_injective_iff.mpr (fun _ _ h => Except.ok.inj h) hmap
    rw [houtput, hsame, append_nil]
  · obtain ⟨u, hu⟩ := (bad_iff_unpaired units).mpr hbad
    rw [hdecode] at hu
    obtain ⟨c, -, hc⟩ := mem_map.mp hu
    cases hc

/-- **The write pass.** -/
theorem write_spec (usizeMax : Nat) (units : List UInt16) (output : Cells UInt8)
    (hlength : output.length = plannedBytes units) :
    ∃ w, (Utf16Decoder.new units).write usizeMax output = some w ∧ Writes units w := by
  have hplan := utf8Len_new units
  have hunits : (Utf16Decoder.new units).units = units := rfl
  unfold Utf16Decoder.write
  rw [hplan, hunits]
  split
  · next hascii =>
    have hall := ascii_of_planned hascii
    refine ⟨_, rfl, .plain (fun u hu => not_surrogate_of_ascii (hall u hu)) ?_⟩
    exact writeAscii_eq hall output (hlength.trans hascii)
  · split
    · next hthree =>
      unfold checkedMul at hthree
      split at hthree
      · have hthree : units.length * 3 = plannedBytes units := Option.some.inj hthree
        have hall := bmp_of_planned hthree.symm
        refine ⟨_, rfl, .plain (fun u hu => (hall u hu).2) ?_⟩
        exact decodeThreeByteBmp_eq hall output (hlength.trans hthree.symm)
      · cases hthree
    · have hbound := length_utf8_beforeError_le units
      have hnothing : Cells.Filled output [] := ⟨output, rfl⟩
      obtain ⟨w, hw, hinitialized, hbytes, hcomplete⟩ :=
        writeScalars_spec (decode units) output [] hnothing (by rw [hlength]; simpa using hbound)
      rw [length_nil, Nat.zero_add] at hinitialized
      refine ⟨w, hw, by omega, fun cs hcs => ?_, fun hbad => ?_⟩
      · have hgood : ∀ u, .error u ∉ decode units := by
          intro u hu
          rw [hcs] at hu
          obtain ⟨c, -, hc⟩ := mem_map.mp hu
          cases hc
        have hall : beforeError (decode units) = cs := by
          have hmap := (decode_eq_map_ok hgood).symm.trans hcs
          exact map_injective_iff.mpr (fun _ _ h => Except.ok.inj h) hmap
        rw [hall] at hinitialized hbytes
        exact ⟨hcomplete.mpr hgood, hinitialized.trans (length_utf8_of_decode hcs), hbytes⟩
      · obtain ⟨u, hu⟩ := (bad_iff_unpaired units).mpr hbad
        rw [Bool.eq_false_iff]
        exact fun hdone => hcomplete.mp hdone u hu

/-- What a decoding has to give. -/
structure Decodes (units : List UInt16) (argument : String) (d : Decoded) : Prop where
  bounded  : d.written ≤ (Utf16Decoder.new units).utf8Len
  strict   : ∀ cs, encode cs = units → d.result = .ok (utf8 cs) ∧
    d.written = (Utf16Decoder.new units).utf8Len ∧ d.written = (utf8 cs).length
  unpaired : Unpaired units → d.result = .error ⟨argument, .invalidUtf16⟩

theorem decodeInto_exact (usizeMax : Nat) (units : List UInt16) (output : Cells UInt8)
    (argument : String) (hroom : plannedBytes units ≤ output.length) :
    ∃ d, (Utf16Decoder.new units).decodeInto usizeMax output argument = some d ∧
      Decodes units argument d := by
  have hplan := utf8Len_new units
  obtain ⟨w, hw, hbounded, hstrict, hunpaired⟩ :=
    write_spec usizeMax units (output.take (plannedBytes units))
      (length_take_of_le hroom)
  unfold Utf16Decoder.decodeInto
  rw [hplan, if_neg (by omega), hw]
  dsimp only
  by_cases hbad : Unpaired units
  · rw [hunpaired hbad, if_neg Bool.false_ne_true]
    refine ⟨_, rfl, ?_, fun cs hcs => ?_, fun _ => rfl⟩
    · rw [hplan]
      exact hbounded
    · exact absurd hbad ((exists_encode_iff units).mp ⟨cs, hcs⟩)
  · obtain ⟨cs, rfl⟩ := (exists_encode_iff units).mpr hbad
    have hdecode := decode_encode cs
    obtain ⟨hcomplete, hinitialized, hfilled⟩ := hstrict cs hdecode
    have hlength := length_utf8_of_decode hdecode
    have hread : Cells.assumeInit (w.output.take w.initialized) = some (utf8 cs) := by
      rw [hinitialized, ← hlength]
      exact hfilled.assumeInit
    rw [hcomplete, if_pos rfl, hread]
    refine ⟨_, rfl, ?_, fun ds hds => ?_, fun h => absurd h hbad⟩
    · rw [hplan]
      exact hbounded
    · rw [encode_injective hds]
      exact ⟨rfl, hinitialized.trans hplan.symm, hinitialized.trans hlength.symm⟩

theorem decodeOwned_decodes (usizeMax spare : Nat) (units : List UInt16) (argument : String) :
    ∃ d, decodeOwned usizeMax spare units argument = some d ∧ Decodes units argument d := by
  have hroom : plannedBytes units ≤
      (Cells.uninit ((Utf16Decoder.new units).utf8Len + spare) : Cells UInt8).length := by
    rw [Cells.uninit, length_replicate, utf8Len_new]
    omega
  exact decodeInto_exact usizeMax units _ argument hroom

/-- **Strict UTF-16 decoding, without a fault.** Text that is strict becomes its UTF-8 bytes,
as many as planned; text with an unpaired surrogate is an error, and no more bytes than planned
were written when it is met. -/
theorem decode_owned_exact (usizeMax spare : Nat) (units : List UInt16) (argument : String) :
    ∃ d, decodeOwned usizeMax spare units argument = some d ∧ Decodes units argument d ∧
      ((∃ error, d.result = .error error) ↔ Unpaired units) ∧
      ((∃ cs, encode cs = units) ↔ ¬Unpaired units) := by
  obtain ⟨d, hd, hdecodes⟩ := decodeOwned_decodes usizeMax spare units argument
  refine ⟨d, hd, hdecodes, ⟨fun ⟨error, herror⟩ => ?_, fun hbad => ⟨_, hdecodes.unpaired hbad⟩⟩,
    exists_encode_iff units⟩
  by_contra hgood
  obtain ⟨cs, hcs⟩ := (exists_encode_iff units).mpr hgood
  rw [(hdecodes.strict cs hcs).1] at herror
  cases herror

end Xlfn.Text
