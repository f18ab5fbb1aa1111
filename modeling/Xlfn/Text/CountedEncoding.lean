import Xlfn.Lib.Ascii
import Xlfn.Text.Utf16Decoder

/-!
# Xlfn — counted UTF-16

Text for Excel is a count and that many UTF-16 units. The encoder checks the limit on the UTF-8
form where that is short enough to decide it, allocates once, and writes the units of text that
is not ASCII through a raw pointer.

* `checkedUtf16Len`, `validateUtf16Limit`, `encodeCounted` — the code.
-/

namespace Xlfn.Text

open Xlfn.Lib Xlfn.Lib.Utf16 Cells

-- ---- Counting.

/-- `as_bytes`. -/
def asBytes (text : String) : List UInt8 := utf8 text.toList

def isAscii (text : String) : Bool := (asBytes text).all fun byte => byte.toNat < 0x80

/-- What one byte adds to the number of units, in `u8`: one where a scalar begins, and one more
where it needs a pair. -/
def byteUnits (byte : UInt8) : UInt8 :=
  (if byte &&& 0xc0 ≠ 0x80 then 1 else 0) + (if 0xf0 ≤ byte.toNat then 1 else 0)

/-- A subtotal in `u8`. -/
def byteSubtotal (chunk : List UInt8) : UInt8 := chunk.foldl (fun sum byte => sum + byteUnits byte) 0

def nonAsciiUtf16Len (text : String) : Nat :=
  ((chunks 64 (asBytes text)).map fun chunk => (byteSubtotal chunk).toNat).sum

/-- The length that `checked_utf16_len` compares. -/
def utf16Len (text : String) : Nat :=
  if isAscii text then (asBytes text).length else nonAsciiUtf16Len text

def checkedUtf16Len (text argument : String) (limit : Nat) : Except XllError Nat :=
  if utf16Len text > limit then .error ⟨argument, .tooLarge limit (utf16Len text)⟩
  else .ok (utf16Len text)

def validateUtf16Limit (text argument : String) (limit : Nat) : Except XllError Unit :=
  if (asBytes text).length ≤ limit then .ok ()
  else (checkedUtf16Len text argument limit).map fun _ => ()

-- ---- Encoding.

/-- `INLINE_UTF16_CAPACITY`. -/
def inlineUtf16Capacity : Nat := 64

/-- The capacity `encode_counted` asks for, and whether it takes the text for ASCII. -/
def countedCapacity (text argument : String) (limit : Nat) : Except XllError (Nat × Bool) :=
  if (asBytes text).length < inlineUtf16Capacity ∧ (asBytes text).length ≤ limit then
    .ok ((asBytes text).length + 1, isAscii text)
  else
    (checkedUtf16Len text argument limit).map fun length =>
      (length + 1, (asBytes text).length == length)

/-- The loop over `encode_utf16`. -/
def writeUnits : List UInt16 → Cells UInt16 → Nat → Option (Cells UInt16 × Nat)
  | [], units, initialized => some (units, initialized)
  | unit :: rest, units, initialized =>
    match units.store initialized [unit] with
    | none => none
    | some units => writeUnits rest units (initialized + 1)

/-- The units of text that is not ASCII. The first cell is left for the count. -/
def writeCounted (text : String) (capacity : Nat) : Option (List UInt16) :=
  match writeUnits (encode text.toList) (Cells.uninit capacity) 1 with
  | none => none
  | some (units, initialized) =>
    match units.store 0 [.ofNat (initialized - 1)] with
    | none => none
    | some units => Cells.assumeInit (units.take initialized)

/-- `encode_counted`, into an allocation with room for `spare` units more than asked for. -/
def encodeCounted (spare : Nat) (text argument : String) (limit : Nat) :
    Option (Except XllError (List UInt16)) :=
  match countedCapacity text argument (min limit 65535) with
  | .error error => some (.error error)
  | .ok (_, true) =>
    some (.ok (.ofNat (asBytes text).length :: (asBytes text).map UInt8.toUInt16))
  | .ok (capacity, false) => (writeCounted text (capacity + spare)).map .ok

-- ---- The count by bytes.

variable {n : Nat}

theorem byteUnits_continuation : (byteUnits (.ofNat (n % 0x40 + 0x80))).toNat = 0 := by
  have hall : ∀ r < 0x40, (byteUnits (.ofNat (r + 0x80))).toNat = 0 := by decide
  exact hall _ (Nat.mod_lt n (by decide))

theorem byteUnits_lead2 : (byteUnits (.ofNat (n % 0x20 + 0xc0))).toNat = 1 := by
  have hall : ∀ r < 0x20, (byteUnits (.ofNat (r + 0xc0))).toNat = 1 := by decide
  exact hall _ (Nat.mod_lt n (by decide))

theorem byteUnits_lead3 : (byteUnits (.ofNat (n % 0x10 + 0xe0))).toNat = 1 := by
  have hall : ∀ r < 0x10, (byteUnits (.ofNat (r + 0xe0))).toNat = 1 := by decide
  exact hall _ (Nat.mod_lt n (by decide))

theorem byteUnits_lead4 : (byteUnits (.ofNat (n % 0x08 + 0xf0))).toNat = 2 := by
  have hall : ∀ r < 0x08, (byteUnits (.ofNat (r + 0xf0))).toNat = 2 := by decide
  exact hall _ (Nat.mod_lt n (by decide))

theorem byteUnits_ascii (h : n < 0x80) : (byteUnits (.ofNat n)).toNat = 1 := by
  have hall : ∀ r < 0x80, (byteUnits (.ofNat r)).toNat = 1 := by decide
  exact hall n h

/-- A sum over bytes, in `Nat`. -/
def unitsOfBytes (bytes : List UInt8) : Nat := (bytes.map fun byte => (byteUnits byte).toNat).sum

theorem unitsOfBytes_append (xs ys : List UInt8) :
    unitsOfBytes (xs ++ ys) = unitsOfBytes xs + unitsOfBytes ys := by
  rw [unitsOfBytes, List.map_append, List.sum_append]
  rfl

theorem unitsOfBytes_char (c : Char) :
    unitsOfBytes (String.utf8EncodeChar c) = (encodeChar c).length := by
  have hval : c.val.toNat = c.toNat := rfl
  rw [length_encodeChar]
  unfold String.utf8EncodeChar unitsOfBytes
  rw [hval]
  dsimp only
  split
  · rw [if_neg (by omega)]
    simp only [List.map_cons, List.map_nil, List.sum_cons, List.sum_nil]
    rw [byteUnits_ascii (by omega)]
  · split
    · rw [if_neg (by omega)]
      simp only [List.map_cons, List.map_nil, List.sum_cons, List.sum_nil]
      rw [byteUnits_lead2, byteUnits_continuation, Nat.add_zero]
    · split
      · rw [if_neg (by omega)]
        simp only [List.map_cons, List.map_nil, List.sum_cons, List.sum_nil]
        rw [byteUnits_lead3, byteUnits_continuation, byteUnits_continuation, Nat.add_zero]
      · rw [if_pos (by omega)]
        simp only [List.map_cons, List.map_nil, List.sum_cons, List.sum_nil]
        rw [byteUnits_lead4, byteUnits_continuation, byteUnits_continuation,
          byteUnits_continuation, Nat.add_zero]

theorem unitsOfBytes_utf8 (cs : List Char) : unitsOfBytes (utf8 cs) = length cs := by
  induction cs with
  | nil => rfl
  | cons c cs ih => rw [utf8_cons, unitsOfBytes_append, unitsOfBytes_char, ih, length_cons]

theorem toNat_byteUnits_le (byte : UInt8) : (byteUnits byte).toNat ≤ 2 := by
  unfold byteUnits
  split <;> split <;> decide

theorem toNat_foldl_byteUnits (chunk : List UInt8) (sum : UInt8)
    (h : sum.toNat + 2 * chunk.length < 2 ^ 8) :
    (chunk.foldl (fun sum byte => sum + byteUnits byte) sum).toNat =
      sum.toNat + unitsOfBytes chunk := by
  induction chunk generalizing sum with
  | nil => rfl
  | cons byte chunk ih =>
    have hbound := toNat_byteUnits_le byte
    rw [List.length_cons] at h
    have hsum : (sum + byteUnits byte).toNat = sum.toNat + (byteUnits byte).toNat := by
      rw [UInt8.toNat_add, Nat.mod_eq_of_lt (by omega)]
    rw [List.foldl_cons, ih _ (by omega), hsum, unitsOfBytes, unitsOfBytes, List.map_cons,
      List.sum_cons, Nat.add_assoc]

theorem nonAsciiUtf16Len_eq (text : String) : nonAsciiUtf16Len text = length text.toList := by
  have hchunks : (chunks 64 (asBytes text)).map (fun chunk => (byteSubtotal chunk).toNat) =
      (chunks 64 (asBytes text)).map fun chunk =>
        (chunk.map fun byte => (byteUnits byte).toNat).sum := by
    refine List.map_congr_left fun chunk hchunk => ?_
    have hlength := length_le_of_mem_chunks (by decide) hchunk
    have hfold := toNat_foldl_byteUnits chunk 0 (by rw [UInt8.toNat_zero]; omega)
    rwa [UInt8.toNat_zero, Nat.zero_add] at hfold
  rw [nonAsciiUtf16Len, hchunks, sum_chunks]
  exact unitsOfBytes_utf8 text.toList

-- ---- ASCII.

theorem isAscii_iff (text : String) : isAscii text = true ↔ ∀ c ∈ text.toList, c.toNat < 0x80 := by
  rw [isAscii, List.all_eq_true, ← utf8_ascii_iff]
  exact forall₂_congr fun byte _ => decide_eq_true_iff

/-- **The count by bytes is the number of units.** -/
theorem utf16Len_eq (text : String) : utf16Len text = length text.toList := by
  unfold utf16Len
  split
  · next hascii => exact length_utf8_ascii ((isAscii_iff text).mp hascii)
  · exact nonAsciiUtf16Len_eq text

-- ---- The limit.

theorem checkedUtf16Len_eq (text argument : String) (limit : Nat) :
    checkedUtf16Len text argument limit =
      if length text.toList ≤ limit then .ok (length text.toList)
      else .error ⟨argument, .tooLarge limit (length text.toList)⟩ := by
  unfold checkedUtf16Len
  rw [utf16Len_eq]
  by_cases hfits : length text.toList ≤ limit
  · rw [if_neg (by omega), if_pos hfits]
  · rw [if_pos (by omega), if_neg hfits]

/-- **The check on the byte length does not change the answer.** -/
theorem validateUtf16Limit_eq (text argument : String) (limit : Nat) :
    validateUtf16Limit text argument limit =
      if length text.toList ≤ limit then .ok ()
      else .error ⟨argument, .tooLarge limit (length text.toList)⟩ := by
  have hshorter : length text.toList ≤ (asBytes text).length := length_le_length_utf8 text.toList
  unfold validateUtf16Limit
  rw [checkedUtf16Len_eq]
  by_cases hfits : length text.toList ≤ limit
  · rw [if_pos hfits, if_pos hfits]
    split <;> rfl
  · rw [if_neg hfits, if_neg hfits, if_neg (by omega)]
    rfl

/-- The allocation has room for the count and the units, and the flag says ASCII where the text
is. -/
theorem countedCapacity_spec (text argument : String) (limit : Nat) :
    (¬length text.toList ≤ limit ∧ countedCapacity text argument limit =
      .error ⟨argument, .tooLarge limit (length text.toList)⟩) ∨
    (length text.toList ≤ limit ∧ ∃ capacity ascii,
      countedCapacity text argument limit = .ok (capacity, ascii) ∧
      length text.toList + 1 ≤ capacity ∧
      (ascii = true → ∀ c ∈ text.toList, c.toNat < 0x80)) := by
  have hshorter : length text.toList ≤ (asBytes text).length := length_le_length_utf8 text.toList
  unfold countedCapacity
  split
  · next hshort =>
    exact .inr ⟨by omega, _, _, rfl, by omega, (isAscii_iff text).mp⟩
  · rw [checkedUtf16Len_eq]
    by_cases hfits : length text.toList ≤ limit
    · rw [if_pos hfits]
      refine .inr ⟨hfits, _, _, rfl, Nat.le_refl _, fun hsame => ?_⟩
      exact ascii_of_length_utf8 (beq_iff_eq.mp hsame)
    · rw [if_neg hfits]
      exact .inl ⟨hfits, rfl⟩

-- ---- The units.

/-- **The loop** writes the units behind the cell of the count. -/
theorem writeUnits_spec (units : List UInt16) (count : Option UInt16) (cells : Cells UInt16)
    (xs : List UInt16) (hfilled : Filled cells xs)
    (hroom : xs.length + units.length ≤ cells.length) :
    ∃ cells', writeUnits units (count :: cells) (xs.length + 1) =
        some (count :: cells', xs.length + units.length + 1) ∧
      Filled cells' (xs ++ units) := by
  induction units generalizing cells xs with
  | nil =>
    refine ⟨cells, rfl, ?_⟩
    rwa [List.append_nil]
  | cons unit units ih =>
    rw [List.length_cons] at hroom
    obtain ⟨cells', hstore, hlength, hfilled'⟩ := hfilled.store [unit] (by simp; omega)
    have hafter : (xs ++ [unit]).length = xs.length + 1 := List.length_append
    obtain ⟨cells'', hrest, hall⟩ := ih cells' (xs ++ [unit]) hfilled' (by omega)
    refine ⟨cells'', ?_, ?_⟩
    · rw [writeUnits, store_cons, hstore, Option.map_some]
      dsimp only
      rw [← hafter, hrest, List.length_cons, hafter, Nat.add_right_comm xs.length 1,
        Nat.add_assoc xs.length]
    · rwa [List.append_assoc, List.singleton_append] at hall

/-- **The raw writes**: the count, then the units. -/
theorem writeCounted_eq {text : String} {capacity : Nat}
    (hroom : length text.toList + 1 ≤ capacity) :
    writeCounted text capacity = some (.ofNat (length text.toList) :: encode text.toList) := by
  obtain ⟨n, rfl⟩ : ∃ n, capacity = n + 1 := ⟨capacity - 1, by omega⟩
  have hnothing : Filled (uninit n : Cells UInt16) [] := ⟨_, rfl⟩
  obtain ⟨cells, hwritten, hfilled⟩ := writeUnits_spec (encode text.toList) none (uninit n)
    [] hnothing (by
      rw [uninit, List.length_replicate, List.length_nil, Nat.zero_add]
      exact Nat.le_of_succ_le_succ hroom)
  rw [List.nil_append] at hfilled
  rw [List.length_nil, Nat.zero_add, Nat.zero_add] at hwritten
  have hcells : (uninit (n + 1) : Cells UInt16) = none :: uninit n := rfl
  rw [writeCounted, hcells, hwritten]
  dsimp only
  rw [store_zero]
  dsimp only
  rw [List.take_succ_cons, assumeInit, hfilled.assumeInit, Nat.add_sub_cancel]
  rfl

/-- **What the encoder gives**, by the number of units. -/
theorem encodeCounted_eq (spare : Nat) (text argument : String) (limit : Nat) :
    encodeCounted spare text argument limit =
      if length text.toList ≤ min limit 65535 then
        some (.ok (.ofNat (length text.toList) :: encode text.toList))
      else some (.error ⟨argument, .tooLarge (min limit 65535) (length text.toList)⟩) := by
  unfold encodeCounted
  rcases countedCapacity_spec text argument (min limit 65535) with
    ⟨hlong, hcapacity⟩ | ⟨hfits, capacity, ascii, hcapacity, hroom, hascii⟩
  · rw [hcapacity, if_neg hlong]
  · rw [hcapacity, if_pos hfits]
    cases ascii with
    | true =>
      have hbytes := hascii rfl
      have hlength : (asBytes text).length = length text.toList := length_utf8_ascii hbytes
      rw [encode_ascii hbytes, ← hlength]
      rfl
    | false =>
      dsimp only
      rw [writeCounted_eq (by omega)]
      rfl

-- ---- The encoding.

/-- What the encoder has to give for text within the limit: the count and the units, in the
memory asked for, and from the units the bytes again. -/
structure Encodes (usizeMax spare : Nat) (text argument : String) (limit : Nat)
    (units : List UInt16) : Prop where
  counted   : ∃ count, units = count :: encode text.toList ∧
    count.toNat = (encode text.toList).length
  allocated : ∃ capacity ascii, countedCapacity text argument (min limit 65535) =
    .ok (capacity, ascii) ∧ units.length ≤ capacity
  decodes   : ∃ d, decodeOwned usizeMax spare units.tail argument = some d ∧
    d.result = .ok (asBytes text)

theorem encodes_of_fits (usizeMax spare : Nat) {text : String} (argument : String) {limit : Nat}
    (hfits : length text.toList ≤ min limit 65535) :
    Encodes usizeMax spare text argument limit
      (.ofNat (length text.toList) :: encode text.toList) := by
  have hbound : min limit 65535 ≤ 65535 := Nat.min_le_right _ _
  refine ⟨⟨_, rfl, toNat_unit (by omega)⟩, ?_, ?_⟩
  · rcases countedCapacity_spec text argument (min limit 65535) with
      ⟨hlong, -⟩ | ⟨-, capacity, ascii, hcapacity, hroom, -⟩
    · exact absurd hfits hlong
    · exact ⟨capacity, ascii, hcapacity, hroom⟩
  · have hroom : plannedBytes (encode text.toList) ≤
        (uninit ((Utf16Decoder.new (encode text.toList)).utf8Len + spare) :
          Cells UInt8).length := by
      rw [uninit, List.length_replicate, utf8Len_new]
      exact Nat.le_add_right _ _
    obtain ⟨d, hd, hdecodes⟩ := decodeInto_exact usizeMax (encode text.toList) _ argument hroom
    exact ⟨d, hd, (hdecodes.strict text.toList rfl).1⟩

/-- **Counted encoding.** Text is refused exactly where it has more units than the limit, or
than a count can say; any other text is written as its count and its units, and these decode to
it. Where a limit is only checked, the answer is the one of counting. -/
theorem encode_counted_exact (usizeMax spare spare' : Nat) (text argument : String) (limit : Nat) :
    ((∃ error, encodeCounted spare text argument limit = some (.error error)) ↔
      min limit 65535 < length text.toList) ∧
    (∀ error, encodeCounted spare text argument limit = some (.error error) →
      error = ⟨argument, .tooLarge (min limit 65535) (length text.toList)⟩) ∧
    ((∃ units, encodeCounted spare text argument limit = some (.ok units) ∧
        Encodes usizeMax spare' text argument limit units) ↔
      length text.toList ≤ min limit 65535) ∧
    validateUtf16Limit text argument limit =
      (checkedUtf16Len text argument limit).map (fun _ => ()) ∧
    (validateUtf16Limit text argument limit = .ok () ↔ length text.toList ≤ limit) := by
  rw [encodeCounted_eq, validateUtf16Limit_eq, checkedUtf16Len_eq]
  refine ⟨?_, ?_, ?_, ?_, ?_⟩
  · by_cases hfits : length text.toList ≤ min limit 65535
    · rw [if_pos hfits]
      exact ⟨by rintro ⟨error, ⟨⟩⟩, fun hlong => absurd hfits (Nat.not_le.mpr hlong)⟩
    · rw [if_neg hfits]
      exact ⟨fun _ => Nat.not_le.mp hfits, fun _ => ⟨_, rfl⟩⟩
  · intro error herror
    split at herror
    · cases herror
    · exact (Except.error.inj (Option.some.inj herror)).symm
  · by_cases hfits : length text.toList ≤ min limit 65535
    · rw [if_pos hfits]
      exact ⟨fun _ => hfits, fun _ => ⟨_, rfl, encodes_of_fits usizeMax spare' argument hfits⟩⟩
    · rw [if_neg hfits]
      exact ⟨by rintro ⟨units, ⟨⟩, -⟩, fun h => absurd h hfits⟩
  · split <;> rfl
  · split
    · next hfits => exact ⟨fun _ => hfits, fun _ => rfl⟩
    · next hlong => exact ⟨nofun, fun h => absurd h hlong⟩

theorem length_replicate_ascii (n : Nat) : length (List.replicate n 'x') = n := by
  induction n with
  | zero => rfl
  | succ n ih =>
    rw [List.replicate_succ, length_cons, ih, Nat.add_comm]
    rfl

theorem encode_counted_beyond_count : ¬∀ (text argument : String) (limit : Nat),
      (∃ error, encodeCounted 0 text argument limit = some (.error error)) ↔
        limit < length text.toList := by
  intro h
  have hlength : length (String.ofList (List.replicate 65536 'x')).toList = 65536 := by
    rw [String.toList_ofList, length_replicate_ascii]
  have hexact := h (String.ofList (List.replicate 65536 'x')) "text" 65536
  rw [encodeCounted_eq, hlength, if_neg (by decide)] at hexact
  exact absurd (hexact.mp ⟨_, rfl⟩) (Nat.lt_irrefl _)

end Xlfn.Text
