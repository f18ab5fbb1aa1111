import Mathlib.Data.List.TakeWhile
import Mathlib.Data.Nat.Digits.Defs
import Xlfn.Lib.Ascii

/-!
# Xlfn — function names

Registration creates a hidden defined name, so a function name has the grammar of one, and is
none of the names and references that a formula reads otherwise. The text is scanned by bytes
and cut at byte offsets; arithmetic that overflows and cuts inside a scalar have no result.

* `isA1Reference`, `isR1c1Reference`, `validateFunctionName` — the code.
* `FunctionName` — the names, as a grammar.
-/

namespace Xlfn.Text

open Xlfn.Lib Xlfn.Lib.Utf16 Char

-- ---- Characters and bytes.

inductive FunctionNameError where
  | empty
  | tooLong
  | invalidStart
  | invalidCharacter
  | reservedName
  | cellReference
deriving DecidableEq

def excelFunctionNameLimit : Nat := 255

/-- `char::is_whitespace`. -/
def isWhitespace (c : Char) : Bool :=
  (0x09 ≤ c.toNat && c.toNat ≤ 0x0d) || c.toNat == 0x20 || c.toNat == 0x85 || c.toNat == 0xa0 ||
    c.toNat == 0x1680 || (0x2000 ≤ c.toNat && c.toNat ≤ 0x200a) || c.toNat == 0x2028 ||
    c.toNat == 0x2029 || c.toNat == 0x202f || c.toNat == 0x205f || c.toNat == 0x3000

/-- `char::is_control`. -/
def isControl (c : Char) : Bool := c.toNat ≤ 0x1f || (0x7f ≤ c.toNat && c.toNat ≤ 0x9f)

def isAsciiChar (c : Char) : Bool := c.toNat < 0x80

/-- `u8::is_ascii_alphabetic`. -/
def isAsciiAlphabetic (byte : UInt8) : Bool :=
  (0x41 ≤ byte.toNat && byte.toNat ≤ 0x5a) || (0x61 ≤ byte.toNat && byte.toNat ≤ 0x7a)

def toAsciiUppercase (byte : UInt8) : UInt8 :=
  if 0x61 ≤ byte.toNat ∧ byte.toNat ≤ 0x7a then byte - 0x20 else byte

def toAsciiLowercase (byte : UInt8) : UInt8 :=
  if 0x41 ≤ byte.toNat ∧ byte.toNat ≤ 0x5a then byte + 0x20 else byte

/-- `str::eq_ignore_ascii_case`. -/
def eqIgnoreAsciiCase (left right : List Char) : Bool :=
  (utf8 left).map toAsciiLowercase == (utf8 right).map toAsciiLowercase

def isFunctionNameStart (character : Char) : Bool :=
  character.isAlpha || (character == '_' || character == '\\') ||
    (!isAsciiChar character && !isWhitespace character && !isControl character)

/-- Unicode 5.1 decimal digits: the zeroes of their blocks of ten. -/
def unicodeDecimalZeroes : List Nat :=
  [0x0030, 0x0660, 0x06F0, 0x07C0, 0x0966, 0x09E6, 0x0A66, 0x0AE6, 0x0B66, 0x0BE6, 0x0C66, 0x0CE6,
    0x0D66, 0x0E50, 0x0ED0, 0x0F20, 0x1040, 0x1090, 0x17E0, 0x1810, 0x1946, 0x19D0, 0x1B50, 0x1BB0,
    0x1C40, 0x1C50, 0xA620, 0xA8D0, 0xA900, 0xAA50, 0xFF10, 0x104A0, 0x1D7CE, 0x1D7D8, 0x1D7E2,
    0x1D7EC, 0x1D7F6]

/-- One block of `unicode_decimal_digit`. -/
def digitOfBlock (codepoint first : Nat) : Option Nat :=
  if first ≤ codepoint ∧ codepoint - first < 10 then some (codepoint - first) else none

def unicodeDecimalDigit (character : Char) : Option Nat :=
  unicodeDecimalZeroes.findSome? (digitOfBlock character.toNat)

-- ---- Arithmetic and cuts.

def u8Max : Nat := 2 ^ 8 - 1

def u32Max : Nat := 2 ^ 32 - 1

/-- A result in range. -/
def checked (max n : Nat) : Option Nat := if n ≤ max then some n else none

def checkedSub (m n : Nat) : Option Nat := if n ≤ m then some (m - n) else none

/-- `&text[from..]`. -/
def sliceFrom (text : List Char) (start : Nat) : Option (List Char) :=
  (splitAt text start).map (·.2)

/-- `&text[from..to]`. -/
def slice (text : List Char) (start stop : Nat) : Option (List Char) :=
  (splitAt text stop).bind fun cut => sliceFrom cut.1 start

-- ---- References.

def excelGridRows : Nat := 1048576

def excelGridColumns : Nat := 16384

/-- `checked_mul`, `checked_add` and the limit. -/
def gridStep (limit index digit : Nat) : Option Nat :=
  ((checked u32Max (index * 10)).bind fun index => checked u32Max (index + digit)).filter
    fun index => index ≤ limit

/-- The loop of `is_grid_index`. -/
def gridIndex (limit : Nat) : List Char → Nat → Option Nat
  | [], index => some index
  | character :: text, index =>
    match unicodeDecimalDigit character with
    | none => none
    | some digit =>
      match gridStep limit index digit with
      | none => none
      | some next => gridIndex limit text next

def isGridIndex (text : List Char) (limit : Nat) : Bool :=
  match gridIndex limit text 0 with
  | none => false
  | some index => index != 0

/-- One step of the fold over the column, in `u8` and `u32` without wrapping. -/
def columnStep (column : Nat) (character : UInt8) : Option Nat := do
  let shifted ← checked u32Max (column * 26)
  let offset ← checkedSub (toAsciiUppercase character).toNat 0x41
  let letter ← checked u8Max (offset + 1)
  checked u32Max (shifted + letter)

def isA1Reference (name : List Char) : Option Bool := do
  let columnEnd := ((utf8 name).takeWhile isAsciiAlphabetic).length
  if columnEnd = 0 ∨ columnEnd > 3 then return false
  let (columnText, rowText) ← splitAt name columnEnd
  let column ← (utf8 columnText).foldlM columnStep 0
  return column ≤ excelGridColumns && rowText.all isAsciiChar && isGridIndex rowText excelGridRows

/-- The limit of the first axis, and the letter and the limit of the second. -/
def axes (first : UInt8) : Option (Nat × UInt8 × Nat) :=
  if toAsciiUppercase first = 0x52 then some (excelGridRows, 0x43, excelGridColumns)
  else if toAsciiUppercase first = 0x43 then some (excelGridColumns, 0x52, excelGridRows)
  else none

def isDecimalDigit (character : Char) : Bool := (unicodeDecimalDigit character).isSome

/-- `is_r1c1_reference` behind its first byte. -/
def r1c1Tail (name : List Char) (first : UInt8) (firstLimit : Nat) (secondAxis : UInt8)
    (secondLimit : Nat) : Option Bool := do
  let tail ← sliceFrom name 1
  let firstEnd := 1 + (utf8 (tail.takeWhile isDecimalDigit)).length
  let firstText ← slice name 1 firstEnd
  if firstEnd = (utf8 name).length then return isGridIndex firstText firstLimit
  let byte ← (utf8 name)[firstEnd]?
  if toAsciiUppercase byte ≠ secondAxis then return false
  let secondText ← sliceFrom name (firstEnd + 1)
  let relativeAllowed := toAsciiLowercase first == 0x72
  return (isGridIndex firstText firstLimit || (relativeAllowed && firstText.isEmpty)) &&
    (isGridIndex secondText secondLimit || (relativeAllowed && secondText.isEmpty))

def isR1c1Reference (name : List Char) : Option Bool :=
  match (utf8 name).head? with
  | none => some false
  | some first =>
    match axes first with
    | none => some false
    | some (firstLimit, secondAxis, secondLimit) =>
      r1c1Tail name first firstLimit secondAxis secondLimit

-- ---- Names.

def reservedNames : List String := ["C", "R", "TRUE", "FALSE"]

/-- `is_a1_reference(name) || is_r1c1_reference(name)`. -/
def isCellReference (name : List Char) : Option Bool := do
  if ← isA1Reference name then return true
  isR1c1Reference name

def validateFunctionName (name : String) : Option (Except FunctionNameError Unit) :=
  match name.toList with
  | [] => some (.error .empty)
  | first :: characters =>
    if (encode name.toList).length > excelFunctionNameLimit then some (.error .tooLong)
    else if !isFunctionNameStart first then some (.error .invalidStart)
    else if !characters.all fun character =>
        isFunctionNameStart character || character.isDigit || (character == '.' || character == '?')
      then some (.error .invalidCharacter)
    else if reservedNames.any fun reserved => eqIgnoreAsciiCase name.toList reserved.toList then
      some (.error .reservedName)
    else
      (isCellReference name.toList).map fun reference =>
        if reference then .error .cellReference else .ok ()

-- ---- The grammar.

/-- `text` is digits, and they denote an index of the grid. -/
def Index (limit : Nat) (text : List Char) : Prop :=
  ∃ digits : List Nat, text.map unicodeDecimalDigit = digits.map some ∧
    1 ≤ Nat.ofDigits 10 digits.reverse ∧ Nat.ofDigits 10 digits.reverse ≤ limit

/-- The column that letters denote. -/
def columnNumber (letters : List Char) : Nat :=
  Nat.ofDigits 26 (letters.map fun c => c.toUpper.toNat - 64).reverse

/-- The row that ASCII digits denote. -/
def rowNumber (digits : List Char) : Nat :=
  Nat.ofDigits 10 (digits.map fun c => c.toNat - 48).reverse

/-- Letters for a column and ASCII digits for a row. -/
inductive A1Reference : List Char → Prop where
  | mk (letters row : List Char) (hletters : ∀ c ∈ letters, c.isAlpha)
      (hcount : 1 ≤ letters.length ∧ letters.length ≤ 3)
      (hcolumn : 1 ≤ columnNumber letters ∧ columnNumber letters ≤ 16384)
      (hdigits : ∀ c ∈ row, c.isDigit) (hrow : 1 ≤ rowNumber row ∧ rowNumber row ≤ 1048576) :
      A1Reference (letters ++ row)

/-- Rows and columns behind their letters. An index left out is the current one, where the row
comes first. -/
inductive R1C1Reference : List Char → Prop where
  | row (r : Char) (row : List Char) (hr : r.toUpper = 'R') (hrow : Index 1048576 row) :
      R1C1Reference (r :: row)
  | column (c : Char) (column : List Char) (hc : c.toUpper = 'C') (hcolumn : Index 16384 column) :
      R1C1Reference (c :: column)
  | rowColumn (r c : Char) (row column : List Char) (hr : r.toUpper = 'R') (hc : c.toUpper = 'C')
      (hrow : row = [] ∨ Index 1048576 row) (hcolumn : column = [] ∨ Index 16384 column) :
      R1C1Reference (r :: (row ++ c :: column))
  | columnRow (c r : Char) (column row : List Char) (hc : c.toUpper = 'C') (hr : r.toUpper = 'R')
      (hcolumn : Index 16384 column) (hrow : Index 1048576 row) :
      R1C1Reference (c :: (column ++ r :: row))

def StartCharacter (c : Char) : Prop :=
  c.isAlpha ∨ c = '_' ∨ c = '\\' ∨
    (0x80 ≤ c.toNat ∧ isWhitespace c = false ∧ isControl c = false)

def NameCharacter (c : Char) : Prop := StartCharacter c ∨ c.isDigit ∨ c = '.' ∨ c = '?'

/-- A function name. -/
structure FunctionName (name : List Char) : Prop where
  nonempty   : name ≠ []
  short      : (encode name).length ≤ 255
  start      : ∀ c, name.head? = some c → StartCharacter c
  characters : ∀ c ∈ name.tail, NameCharacter c
  unreserved : ∀ reserved ∈ ["C", "R", "TRUE", "FALSE"],
    name.map Char.toLower ≠ reserved.toList.map Char.toLower
  not_a1     : ¬A1Reference name
  not_r1c1   : ¬R1C1Reference name

-- ---- Characters.

variable {c : Char} {limit : Nat} {letters : List Char}

theorem of_ascii {P : Char → Prop} (h : ∀ n < 0x80, P (.ofNat n)) (hc : c.toNat < 0x80) : P c := by
  have hchar := h c.toNat hc
  rwa [Char.ofNat_toNat] at hchar

variable {d : Char}

theorem le_iff_toNat_le : c.val ≤ d.val ↔ c.toNat ≤ d.toNat := UInt32.le_iff_toNat_le

theorem isAlpha_iff (c : Char) : c.isAlpha = true ↔
    (0x41 ≤ c.toNat ∧ c.toNat ≤ 0x5a) ∨ (0x61 ≤ c.toNat ∧ c.toNat ≤ 0x7a) := by
  have hcases : c.isAlpha = (c.isUpper || c.isLower) := rfl
  have hupper : c.isUpper = decide (c.val ≥ 'A'.val ∧ c.val ≤ 'Z'.val) := rfl
  have hlower : c.isLower = (decide (c.val ≥ 'a'.val) && decide (c.val ≤ 'z'.val)) := rfl
  rw [hcases, hupper, hlower, Bool.or_eq_true, decide_eq_true_eq, Bool.and_eq_true,
    decide_eq_true_eq, decide_eq_true_eq, ge_iff_le, ge_iff_le,
    le_iff_toNat_le, le_iff_toNat_le, le_iff_toNat_le, le_iff_toNat_le]
  rfl

theorem isDigit_iff (c : Char) : c.isDigit = true ↔ 0x30 ≤ c.toNat ∧ c.toNat ≤ 0x39 := by
  rw [isDigit, Bool.and_eq_true, decide_eq_true_eq, decide_eq_true_eq, ge_iff_le,
    le_iff_toNat_le, le_iff_toNat_le]
  rfl

theorem isAsciiAlphabetic_asciiByte (h : c.toNat < 0x80) :
    isAsciiAlphabetic (asciiByte c) = c.isAlpha := by
  refine Bool.eq_iff_iff.mpr ?_
  rw [isAlpha_iff, isAsciiAlphabetic, toNat_asciiByte h, Bool.or_eq_true, Bool.and_eq_true,
    Bool.and_eq_true, decide_eq_true_eq, decide_eq_true_eq, decide_eq_true_eq, decide_eq_true_eq]

variable {byte : UInt8}

theorem isAsciiAlphabetic_of_ge (h : 0x80 ≤ byte.toNat) : isAsciiAlphabetic byte = false := by
  rw [Bool.eq_false_iff, isAsciiAlphabetic, Ne, Bool.or_eq_true, Bool.and_eq_true,
    Bool.and_eq_true, decide_eq_true_eq, decide_eq_true_eq, decide_eq_true_eq, decide_eq_true_eq]
  omega

theorem ascii_of_isAlpha (h : c.isAlpha = true) : c.toNat < 0x80 := by
  rw [isAlpha_iff] at h
  omega

theorem ascii_of_isDigit (h : c.isDigit = true) : c.toNat < 0x80 := by
  rw [isDigit_iff] at h
  omega

theorem toLower_other (h : ¬c.toNat < 0x80) : c.toLower = c := by
  refine dif_neg fun hupper => ?_
  have hle : c.toNat ≤ 'Z'.toNat := le_iff_toNat_le.mp hupper.2
  exact h (Nat.lt_of_le_of_lt hle (by decide))

theorem toUpper_other (h : ¬c.toNat < 0x80) : c.toUpper = c := by
  refine dif_neg fun hlower => ?_
  have hle : c.toNat ≤ 'z'.toNat := le_iff_toNat_le.mp hlower.2
  exact h (Nat.lt_of_le_of_lt hle (by decide))

theorem toAsciiLowercase_asciiByte (h : c.toNat < 0x80) :
    c.toLower.toNat < 0x80 ∧ toAsciiLowercase (asciiByte c) = asciiByte c.toLower :=
  of_ascii (P := fun c => c.toLower.toNat < 0x80 ∧
    toAsciiLowercase (asciiByte c) = asciiByte c.toLower) (by decide +kernel) h

theorem toAsciiLowercase_of_ge (h : 0x80 ≤ byte.toNat) : 0x80 ≤ (toAsciiLowercase byte).toNat := by
  rw [toAsciiLowercase, if_neg (by omega)]
  exact h

theorem toAsciiUppercase_asciiByte (h : c.toNat < 0x80) :
    (toAsciiUppercase (asciiByte c) = 0x52 ↔ c.toUpper = 'R') ∧
    (toAsciiUppercase (asciiByte c) = 0x43 ↔ c.toUpper = 'C') ∧
    (toAsciiLowercase (asciiByte c) = 0x72 ↔ c.toUpper = 'R') :=
  of_ascii (P := fun c => (toAsciiUppercase (asciiByte c) = 0x52 ↔ c.toUpper = 'R') ∧
    (toAsciiUppercase (asciiByte c) = 0x43 ↔ c.toUpper = 'C') ∧
    (toAsciiLowercase (asciiByte c) = 0x72 ↔ c.toUpper = 'R')) (by decide +kernel) h

theorem toAsciiUppercase_of_ge (h : 0x80 ≤ byte.toNat) :
    toAsciiUppercase byte = byte := if_neg (by omega)

theorem letter_range (h : c.isAlpha = true) :
    (toAsciiUppercase (asciiByte c)).toNat = c.toUpper.toNat ∧ 65 ≤ c.toUpper.toNat ∧
      c.toUpper.toNat ≤ 90 :=
  of_ascii (P := fun c => c.isAlpha = true →
    (toAsciiUppercase (asciiByte c)).toNat = c.toUpper.toNat ∧ 65 ≤ c.toUpper.toNat ∧
      c.toUpper.toNat ≤ 90) (by decide +kernel) (ascii_of_isAlpha h) h

/-- **Names are compared without case.** -/
theorem eqIgnoreAsciiCase_iff (name : List Char) {reserved : List Char}
    (hreserved : ∀ c ∈ reserved, c.toNat < 0x80) :
    eqIgnoreAsciiCase name reserved = true ↔
      name.map Char.toLower = reserved.map Char.toLower := by
  rw [eqIgnoreAsciiCase, beq_iff_eq]
  refine map_utf8_eq_iff (fun c hc => toAsciiLowercase_asciiByte hc)
    (fun byte hbyte => toAsciiLowercase_of_ge hbyte) (fun c hc => ?_) hreserved name
  rw [toLower_other hc]
  exact hc

theorem isFunctionNameStart_iff (c : Char) : isFunctionNameStart c = true ↔ StartCharacter c := by
  rw [isFunctionNameStart, isAsciiChar, StartCharacter]
  simp only [Bool.or_eq_true, Bool.and_eq_true, Bool.not_eq_true', beq_iff_eq,
    decide_eq_false_iff_not, Nat.not_lt, or_assoc, and_assoc]

-- ---- Indices.

/-- Digits, the most significant first. -/
def horner (base : Nat) (value : Nat) (digits : List Nat) : Nat :=
  digits.foldl (fun value digit => value * base + digit) value

theorem horner_eq (base value : Nat) (digits : List Nat) : horner base value digits =
      value * base ^ digits.length + Nat.ofDigits base digits.reverse := by
  induction digits generalizing value with
  | nil => rw [List.length_nil, pow_zero, Nat.mul_one]; rfl
  | cons digit digits ih =>
    have hstep : horner base value (digit :: digits) =
        horner base (value * base + digit) digits := rfl
    rw [hstep, ih, Nat.ofDigits_reverse_cons, List.length_cons, pow_succ]
    ring

theorem le_horner {base : Nat} (hbase : 1 ≤ base) (value : Nat) (digits : List Nat) :
    value ≤ horner base value digits := by
  rw [horner_eq]
  exact Nat.le_trans (Nat.le_mul_of_pos_right value (Nat.pow_pos hbase)) (Nat.le_add_right _ _)

theorem digit_lt {digit : Nat} (h : unicodeDecimalDigit c = some digit) : digit < 10 := by
  obtain ⟨first, -, hblock⟩ := List.exists_of_findSome?_eq_some h
  unfold digitOfBlock at hblock
  split at hblock
  · next hrange =>
    cases hblock
    exact hrange.2
  · cases hblock

/-- **No step of the loop overflows**, within a limit of the grid. -/
theorem gridStep_eq {index digit : Nat} (hlimit : limit ≤ excelGridRows) (hindex : index ≤ limit)
    (hdigit : digit < 10) :
    (checked u32Max (index * 10)).bind (fun index => checked u32Max (index + digit)) =
      some (index * 10 + digit) := by
  have hmax : u32Max = 4294967295 := rfl
  have hrows : excelGridRows = 1048576 := rfl
  rw [checked, if_pos (by omega), Option.bind_some, checked, if_pos (by omega)]

/-- **The loop** gives the index that the digits denote, where it stays within the limit. -/
theorem gridIndex_eq_some (hlimit : limit ≤ excelGridRows) (text : List Char) {index : Nat}
    (hindex : index ≤ limit) (value : Nat) : gridIndex limit text index = some value ↔
      value ≤ limit ∧ ∃ digits : List Nat, text.map unicodeDecimalDigit = digits.map some ∧
        value = horner 10 index digits := by
  induction text generalizing index with
  | nil =>
    rw [gridIndex]
    constructor
    · rintro ⟨⟩
      exact ⟨hindex, [], rfl, rfl⟩
    · rintro ⟨-, digits, hdigits, rfl⟩
      rw [List.map_eq_nil_iff.mp hdigits.symm]
      rfl
  | cons c text ih =>
    rw [gridIndex]
    cases hdigit : unicodeDecimalDigit c with
    | none =>
      refine ⟨nofun, ?_⟩
      rintro ⟨-, digits, hdigits, -⟩
      obtain ⟨d, rest, -, hd, -⟩ := List.map_eq_cons_iff.mp hdigits.symm
      rw [hdigit] at hd
      cases hd
    | some digit =>
      have hdigits_iff : (∃ digits : List Nat,
          (c :: text).map unicodeDecimalDigit = digits.map some ∧
            value = horner 10 index digits) ↔
          ∃ digits : List Nat, text.map unicodeDecimalDigit = digits.map some ∧
            value = horner 10 (index * 10 + digit) digits := by
        constructor
        · rintro ⟨digits, hdigits, rfl⟩
          obtain ⟨d, rest, rfl, hd, hrest⟩ := List.map_eq_cons_iff.mp hdigits.symm
          rw [hdigit] at hd
          cases hd
          exact ⟨rest, hrest.symm, rfl⟩
        · rintro ⟨digits, hdigits, rfl⟩
          refine ⟨digit :: digits, ?_, rfl⟩
          rw [List.map_cons, hdigit, hdigits]
          rfl
      dsimp only
      rw [hdigits_iff, gridStep, gridStep_eq hlimit hindex (digit_lt hdigit)]
      by_cases hnext : index * 10 + digit ≤ limit
      · rw [Option.filter_some, if_pos (decide_eq_true hnext)]
        exact ih hnext
      · rw [Option.filter_some, if_neg (by rw [decide_eq_true_eq]; exact hnext)]
        refine ⟨nofun, ?_⟩
        rintro ⟨hvalue, digits, -, rfl⟩
        exact absurd (Nat.le_trans (le_horner (by decide) _ digits) hvalue) hnext

/-- **`is_grid_index`** decides the indices. -/
theorem isGridIndex_iff (text : List Char) (hlimit : limit ≤ excelGridRows) :
    isGridIndex text limit = true ↔ Index limit text := by
  have hsome := gridIndex_eq_some hlimit text (Nat.zero_le limit)
  have hvalue (digits : List Nat) : horner 10 0 digits = Nat.ofDigits 10 digits.reverse := by
    rw [horner_eq, Nat.zero_mul, Nat.zero_add]
  unfold isGridIndex Index
  cases hindex : gridIndex limit text 0 with
  | none =>
    refine ⟨nofun, ?_⟩
    rintro ⟨digits, hdigits, -, hle⟩
    rw [← hvalue] at hle
    rw [(hsome _).mpr ⟨hle, digits, hdigits, rfl⟩] at hindex
    cases hindex
  | some index =>
    obtain ⟨hle, digits, hdigits, hindex⟩ := (hsome index).mp hindex
    rw [hvalue] at hindex
    rw [bne_iff_ne]
    constructor
    · intro hpos
      exact ⟨digits, hdigits, by omega, by omega⟩
    · rintro ⟨digits', hdigits', hpos, -⟩
      have hsame : digits = digits' :=
        List.map_injective_iff.mpr (Option.some_injective Nat) (hdigits.symm.trans hdigits')
      rw [hindex, hsame]
      omega

theorem isDecimalDigit_of_index {text : List Char} (h : Index limit text) :
    ∀ c ∈ text, isDecimalDigit c = true := by
  obtain ⟨digits, hdigits, -⟩ := h
  intro c hc
  have hmem : unicodeDecimalDigit c ∈ digits.map some := hdigits ▸ List.mem_map_of_mem hc
  obtain ⟨d, -, hd⟩ := List.mem_map.mp hmem
  rw [isDecimalDigit, ← hd]
  rfl

-- ---- A1 references.

/-- The value of a letter, from 1 to 26. -/
def letterValue (c : Char) : Nat := c.toUpper.toNat - 64

theorem columnStep_eq {column : Nat} (hc : c.isAlpha = true) (hroom : (column + 1) * 27 ≤ 2 ^ 32) :
    columnStep column (asciiByte c) = some (column * 26 + letterValue c) := by
  obtain ⟨hupper, hlow, hhigh⟩ := letter_range hc
  have hmax32 : u32Max = 4294967295 := rfl
  have hmax8 : u8Max = 255 := rfl
  have hletter : (toAsciiUppercase (asciiByte c)).toNat - 0x41 + 1 = letterValue c := by
    rw [hupper, letterValue]
    omega
  have hvalue : letterValue c ≤ 26 := by
    rw [letterValue]
    omega
  have hshifted : checked u32Max (column * 26) = some (column * 26) := if_pos (by omega)
  have hoffset : checkedSub (toAsciiUppercase (asciiByte c)).toNat 0x41 =
      some ((toAsciiUppercase (asciiByte c)).toNat - 0x41) := if_pos (by omega)
  have hbyte : checked u8Max (letterValue c) = some (letterValue c) := if_pos (by omega)
  rw [columnStep, hshifted, hoffset, Option.bind_eq_bind, Option.bind_some, Option.bind_some,
    hletter, hbyte]
  exact if_pos (by omega)

/-- **The fold over the column** does not overflow. -/
theorem foldlM_columnStep (hletters : ∀ c ∈ letters, c.isAlpha = true) (column : Nat)
    (hroom : (column + 1) * 27 ^ letters.length ≤ 2 ^ 32) :
    (letters.map asciiByte).foldlM columnStep column =
      some (horner 26 column (letters.map letterValue)) := by
  induction letters generalizing column with
  | nil => rfl
  | cons c letters ih =>
    have hc := hletters c List.mem_cons_self
    have hpow : 1 ≤ 27 ^ letters.length := Nat.pow_pos (by decide)
    rw [List.length_cons, pow_succ] at hroom
    have hvalue : letterValue c ≤ 26 := by
      have hrange := letter_range hc
      rw [letterValue]
      omega
    have hstep : (column * 26 + letterValue c + 1) * 27 ^ letters.length ≤ 2 ^ 32 := by
      have hle : column * 26 + letterValue c + 1 ≤ (column + 1) * 27 := by omega
      calc (column * 26 + letterValue c + 1) * 27 ^ letters.length
          ≤ (column + 1) * 27 * 27 ^ letters.length := Nat.mul_le_mul_right _ hle
        _ = (column + 1) * (27 ^ letters.length * 27) := by ring
        _ ≤ 2 ^ 32 := hroom
    have hfirst : (column + 1) * 27 ≤ 2 ^ 32 := by
      refine Nat.le_trans ?_ hroom
      exact Nat.mul_le_mul_left _ (by omega)
    rw [List.map_cons, List.foldlM_cons, columnStep_eq hc hfirst, Option.bind_eq_bind,
      Option.bind_some, ih (fun d hd => hletters d (List.mem_cons_of_mem _ hd)) _ hstep]
    rfl

theorem columnNumber_eq (letters : List Char) :
    columnNumber letters = horner 26 0 (letters.map letterValue) := by
  rw [horner_eq, Nat.zero_mul, Nat.zero_add]
  rfl

theorem columnNumber_pos (hletters : ∀ c ∈ letters, c.isAlpha = true)
    (hcount : 1 ≤ letters.length) : 1 ≤ columnNumber letters := by
  cases letters with
  | nil => cases hcount
  | cons c letters =>
    obtain ⟨-, hlow, -⟩ := letter_range (hletters c List.mem_cons_self)
    rw [columnNumber_eq]
    refine Nat.le_trans ?_ (le_horner (by decide) (0 * 26 + letterValue c) _)
    rw [letterValue]
    omega

theorem unicodeDecimalDigit_ascii (h : c.toNat < 0x80) :
    unicodeDecimalDigit c = if c.isDigit then some (c.toNat - 48) else none :=
  of_ascii (P := fun c => unicodeDecimalDigit c =
    if c.isDigit then some (c.toNat - 48) else none) (by decide +kernel) h

/-- **Rows** are ASCII digits. -/
theorem ascii_index_iff (limit : Nat) (row : List Char) :
    ((∀ c ∈ row, c.toNat < 0x80) ∧ Index limit row) ↔
      (∀ c ∈ row, c.isDigit = true) ∧ 1 ≤ rowNumber row ∧ rowNumber row ≤ limit := by
  have hmap (hdigits : ∀ c ∈ row, c.isDigit = true) :
      row.map unicodeDecimalDigit = (row.map fun c => c.toNat - 48).map some := by
    rw [List.map_map]
    refine List.map_congr_left fun c hc => ?_
    rw [unicodeDecimalDigit_ascii (ascii_of_isDigit (hdigits c hc)), if_pos (hdigits c hc)]
    rfl
  constructor
  · rintro ⟨hascii, hindex⟩
    have hdigits : ∀ c ∈ row, c.isDigit = true := by
      intro c hc
      have hdecimal := isDecimalDigit_of_index hindex c hc
      rw [isDecimalDigit, unicodeDecimalDigit_ascii (hascii c hc)] at hdecimal
      split at hdecimal
      · assumption
      · cases hdecimal
    obtain ⟨digits, hvalues, hpos, hle⟩ := hindex
    have hsame : digits = row.map fun c => c.toNat - 48 :=
      List.map_injective_iff.mpr (Option.some_injective Nat) (hvalues.symm.trans (hmap hdigits))
    rw [hsame] at hpos hle
    exact ⟨hdigits, hpos, hle⟩
  · rintro ⟨hdigits, hpos, hle⟩
    exact ⟨fun c hc => ascii_of_isDigit (hdigits c hc), _, hmap hdigits, hpos, hle⟩

theorem takeWhile_isAlpha {row : List Char} (hletters : ∀ c ∈ letters, c.isAlpha = true)
    (hrow : ∀ c ∈ row, c.isDigit = true) : (letters ++ row).takeWhile isAlpha = letters := by
  have hstop : row.takeWhile isAlpha = [] := by
    cases row with
    | nil => rfl
    | cons c row =>
      refine List.takeWhile_cons_of_neg ?_
      have hdigit := (isDigit_iff c).mp (hrow c List.mem_cons_self)
      rw [isAlpha_iff]
      omega
  rw [List.takeWhile_append_of_pos hletters, hstop, List.append_nil]

theorem a1Reference_iff (name : List Char) : A1Reference name ↔
      (1 ≤ (name.takeWhile isAlpha).length ∧ (name.takeWhile isAlpha).length ≤ 3) ∧
      columnNumber (name.takeWhile isAlpha) ≤ excelGridColumns ∧
      (∀ c ∈ name.dropWhile isAlpha, c.toNat < 0x80) ∧
      Index excelGridRows (name.dropWhile isAlpha) := by
  rw [ascii_index_iff]
  constructor
  · rintro ⟨letters, row, hletters, hcount, hcolumn, hdigits, hrow⟩
    have htake := takeWhile_isAlpha hletters hdigits
    have hdrop : (letters ++ row).dropWhile isAlpha = row := by
      have happend := List.takeWhile_append_dropWhile (p := isAlpha) (l := letters ++ row)
      rw [htake] at happend
      exact List.append_cancel_left happend
    rw [htake, hdrop]
    exact ⟨hcount, hcolumn.2, hdigits, hrow⟩
  · rintro ⟨hcount, hcolumn, hdigits, hrow⟩
    have hletters : ∀ c ∈ name.takeWhile isAlpha, c.isAlpha = true :=
      fun c hc => List.mem_takeWhile_imp hc
    rw [← List.takeWhile_append_dropWhile (p := isAlpha) (l := name)]
    exact .mk _ _ hletters hcount ⟨columnNumber_pos hletters hcount.1, hcolumn⟩ hdigits hrow

/-- **`is_a1_reference`** has a result, and decides the A1 references. -/
theorem isA1Reference_eq (name : List Char) :
    ∃ reference, isA1Reference name = some reference ∧ (reference = true ↔ A1Reference name) := by
  have hletters : ∀ c ∈ name.takeWhile isAlpha, c.isAlpha = true :=
    fun c hc => List.mem_takeWhile_imp hc
  have hascii : ∀ c ∈ name.takeWhile isAlpha, c.toNat < 0x80 :=
    fun c hc => ascii_of_isAlpha (hletters c hc)
  have hscan : (utf8 name).takeWhile isAsciiAlphabetic = utf8 (name.takeWhile isAlpha) :=
    takeWhile_utf8 (fun c hc => isAsciiAlphabetic_asciiByte hc)
      (fun byte hbyte => isAsciiAlphabetic_of_ge hbyte)
      (fun c hc => Bool.eq_false_iff.mpr fun halpha => hc (ascii_of_isAlpha halpha)) name
  have hlength : (utf8 (name.takeWhile isAlpha)).length =
      (name.takeWhile isAlpha).length := by
    rw [utf8_ascii hascii, List.length_map]
  have hcut : splitAt name (name.takeWhile isAlpha).length =
      some (name.takeWhile isAlpha, name.dropWhile isAlpha) := by
    have hsplit := splitAt_append (name.takeWhile isAlpha) (name.dropWhile isAlpha)
    rwa [List.takeWhile_append_dropWhile, hlength] at hsplit
  rw [a1Reference_iff, isA1Reference]
  dsimp only
  rw [hscan, hlength]
  by_cases hcount : (name.takeWhile isAlpha).length = 0 ∨
      (name.takeWhile isAlpha).length > 3
  · rw [if_pos hcount]
    refine ⟨false, rfl, nofun, ?_⟩
    rintro ⟨hrange, -⟩
    omega
  · rw [if_neg hcount]
    have hroom : (0 + 1) * 27 ^ (name.takeWhile isAlpha).length ≤ 2 ^ 32 := by
      have hpow : 27 ^ (name.takeWhile isAlpha).length ≤ 27 ^ 3 :=
        Nat.pow_le_pow_right (by decide) (by omega)
      omega
    have hcolumn := foldlM_columnStep hletters 0 hroom
    rw [← columnNumber_eq, ← utf8_ascii hascii] at hcolumn
    rw [hcut]
    dsimp only [Option.bind_eq_bind, Option.bind_some, Option.pure_def]
    rw [hcolumn]
    refine ⟨_, rfl, ?_⟩
    rw [Bool.and_eq_true, Bool.and_eq_true, decide_eq_true_eq,
      isGridIndex_iff _ (Nat.le_refl _), List.all_eq_true, and_assoc]
    have hrange : 1 ≤ (name.takeWhile isAlpha).length ∧
        (name.takeWhile isAlpha).length ≤ 3 := by omega
    refine ⟨fun ⟨hle, hall, hindex⟩ => ⟨hrange, hle, fun c hc => ?_, hindex⟩,
      fun ⟨_, hle, hall, hindex⟩ => ⟨hle, fun c hc => ?_, hindex⟩⟩
    · exact of_decide_eq_true (hall c hc)
    · exact decide_eq_true (hall c hc)

-- ---- R1C1 references.

theorem splitAt_utf8 (text front rest : List Char) (h : text = front ++ rest) :
    splitAt text (utf8 front).length = some (front, rest) := h ▸ splitAt_append front rest

theorem axis_iff (c : Char) : ∃ byte bytes, String.utf8EncodeChar c = byte :: bytes ∧
      (toAsciiUppercase byte = 0x52 ↔ c.toUpper = 'R') ∧
      (toAsciiUppercase byte = 0x43 ↔ c.toUpper = 'C') ∧
      (toAsciiLowercase byte = 0x72 ↔ c.toUpper = 'R') ∧
      (toAsciiUppercase byte = 0x52 ∨ toAsciiUppercase byte = 0x43 → bytes = []) := by
  by_cases hascii : c.toNat < 0x80
  · obtain ⟨hr, hc, hrelative⟩ := toAsciiUppercase_asciiByte hascii
    exact ⟨_, _, utf8EncodeChar_ascii hascii, hr, hc, hrelative, fun _ => rfl⟩
  · obtain ⟨byte, bytes, hencode, hge⟩ := utf8EncodeChar_other hascii
    have hlower := toAsciiLowercase_of_ge hge
    have hupper := toUpper_other hascii
    have hbyte {n : UInt8} (hn : n.toNat < 0x80) : toAsciiUppercase byte ≠ n := by
      rw [toAsciiUppercase_of_ge hge]
      rintro rfl
      omega
    have hchar {d : Char} (hd : d.toNat < 0x80) : c.toUpper ≠ d := by
      rw [hupper]
      rintro rfl
      exact hascii hd
    refine ⟨byte, bytes, hencode, iff_of_false (hbyte (by decide)) (hchar (by decide)),
      iff_of_false (hbyte (by decide)) (hchar (by decide)),
      iff_of_false (fun heq => ?_) (hchar (by decide)), ?_⟩
    · rw [heq] at hlower
      exact absurd hlower (by decide)
    · rintro (hr | hc)
      · exact absurd hr (hbyte (by decide))
      · exact absurd hc (hbyte (by decide))

theorem not_isDecimalDigit_axis (h : c.toUpper = 'R' ∨ c.toUpper = 'C') :
    isDecimalDigit c = false := by
  have hascii : c.toNat < 0x80 := by
    by_contra hlarge
    rw [toUpper_other hlarge] at h
    rcases h with rfl | rfl
    · exact hlarge (by decide)
    · exact hlarge (by decide)
  exact of_ascii (P := fun c => c.toUpper = 'R' ∨ c.toUpper = 'C' → isDecimalDigit c = false)
    (by decide +kernel) hascii h

/-- What stands behind the first axis: an index, or an index, the other axis and an index. -/
def AxisTail (firstLimit : Nat) (secondAxis : Char) (secondLimit : Nat) (relative : Bool)
    (tail : List Char) : Prop :=
  Index firstLimit tail ∨
    ∃ first c second, tail = first ++ c :: second ∧ c.toUpper = secondAxis ∧
      (Index firstLimit first ∨ (relative = true ∧ first = [])) ∧
      (Index secondLimit second ∨ (relative = true ∧ second = []))

theorem r1c1Reference_iff (c : Char) (tail : List Char) : R1C1Reference (c :: tail) ↔
      (c.toUpper = 'R' ∧ AxisTail excelGridRows 'C' excelGridColumns true tail) ∨
      (c.toUpper = 'C' ∧ AxisTail excelGridColumns 'R' excelGridRows false tail) := by
  constructor
  · intro h
    cases h with
    | row r row hr hrow => exact .inl ⟨hr, .inl hrow⟩
    | column c column hc hcolumn => exact .inr ⟨hc, .inl hcolumn⟩
    | rowColumn r c row column hr hc hrow hcolumn =>
      exact .inl ⟨hr, .inr ⟨row, c, column, rfl, hc, hrow.symm.imp id fun h => ⟨rfl, h⟩,
        hcolumn.symm.imp id fun h => ⟨rfl, h⟩⟩⟩
    | columnRow c r column row hc hr hcolumn hrow =>
      exact .inr ⟨hc, .inr ⟨column, r, row, rfl, hr, .inl hcolumn, .inl hrow⟩⟩
  · rintro (⟨hr, hrow | ⟨row, c', column, rfl, hc, hrow, hcolumn⟩⟩ |
      ⟨hc, hcolumn | ⟨column, r, row, rfl, hr, hcolumn, hrow⟩⟩)
    · exact .row c tail hr hrow
    · exact .rowColumn c c' row column hr hc (hrow.symm.imp (·.2) id) (hcolumn.symm.imp (·.2) id)
    · exact .column c tail hc hcolumn
    · have hcolumn := hcolumn.resolve_right fun h => Bool.false_ne_true h.1
      have hrow := hrow.resolve_right fun h => Bool.false_ne_true h.1
      exact .columnRow c r column row hc hr hcolumn hrow

theorem not_isDecimalDigit_of_axis {axis : Char} (haxis : axis = 'R' ∨ axis = 'C')
    (h : c.toUpper = axis) : isDecimalDigit c = false := by
  refine not_isDecimalDigit_axis (haxis.imp (fun hr => ?_) fun hc => ?_)
  · exact h.trans hr
  · exact h.trans hc

theorem digits_cut {first : List Char} (second : List Char)
    (hfirst : ∀ c ∈ first, isDecimalDigit c = true) (hd : isDecimalDigit d = false) :
    (first ++ d :: second).takeWhile isDecimalDigit = first := by
  rw [List.takeWhile_append_of_pos hfirst,
    List.takeWhile_cons_of_neg (Bool.eq_false_iff.mp hd), List.append_nil]

section

variable {firstLimit secondLimit : Nat} {axis : Char} {relative : Bool}

theorem axisTail_digits (haxis : axis = 'R' ∨ axis = 'C') {tail : List Char}
    (hdigits : ∀ c ∈ tail, isDecimalDigit c = true) :
    AxisTail firstLimit axis secondLimit relative tail ↔ Index firstLimit tail := by
  refine ⟨?_, .inl⟩
  rintro (hindex | ⟨first, c, second, rfl, hc, -⟩)
  · exact hindex
  · have hdigit := hdigits c (List.mem_append_right first List.mem_cons_self)
    rw [not_isDecimalDigit_of_axis haxis hc] at hdigit
    cases hdigit

theorem axisTail_cut (haxis : axis = 'R' ∨ axis = 'C') {first second : List Char}
    (hfirst : ∀ c ∈ first, isDecimalDigit c = true) (hd : isDecimalDigit d = false) :
    AxisTail firstLimit axis secondLimit relative (first ++ d :: second) ↔
      d.toUpper = axis ∧ (Index firstLimit first ∨ (relative = true ∧ first = [])) ∧
        (Index secondLimit second ∨ (relative = true ∧ second = [])) := by
  refine ⟨?_, fun h => .inr ⟨first, d, second, rfl, h⟩⟩
  rintro (hindex | ⟨first', c, second', heq, hc, hfirst', hsecond'⟩)
  · have hdigit :=
      isDecimalDigit_of_index hindex d (List.mem_append_right first List.mem_cons_self)
    rw [hd] at hdigit
    cases hdigit
  · have hdigits' : ∀ c ∈ first', isDecimalDigit c = true := by
      rcases hfirst' with hindex | ⟨-, rfl⟩
      · exact isDecimalDigit_of_index hindex
      · rintro c ⟨⟩
    have hsame : first = first' := by
      rw [← digits_cut second hfirst hd, heq,
        digits_cut _ hdigits' (not_isDecimalDigit_of_axis haxis hc)]
    subst hsame
    have hrest := List.append_cancel_left heq
    rw [List.cons.injEq] at hrest
    obtain ⟨rfl, rfl⟩ := hrest
    exact ⟨hc, hfirst', hsecond'⟩

end

theorem index_or_relative {text : List Char} (hlimit : limit ≤ excelGridRows) (relative : Bool) :
    (isGridIndex text limit || (relative && text.isEmpty)) = true ↔
      Index limit text ∨ (relative = true ∧ text = []) := by
  rw [Bool.or_eq_true, Bool.and_eq_true, isGridIndex_iff text hlimit, List.isEmpty_iff]

/-- **Behind the first letter**: the cuts fall between scalars, and the scan decides what stands
there. -/
theorem r1c1Tail_eq (tail : List Char) {first : UInt8} {firstLimit secondLimit : Nat}
    {secondAxis : UInt8} {axis : Char} {relative : Bool}
    (hfirst : String.utf8EncodeChar c = [first])
    (hrelative : (toAsciiLowercase first == 0x72) = relative)
    (hfirstLimit : firstLimit ≤ excelGridRows) (hsecondLimit : secondLimit ≤ excelGridRows)
    (haxis : secondAxis = 0x52 ∧ axis = 'R' ∨ secondAxis = 0x43 ∧ axis = 'C') :
    ∃ reference, r1c1Tail (c :: tail) first firstLimit secondAxis secondLimit = some reference ∧
      (reference = true ↔ AxisTail firstLimit axis secondLimit relative tail) := by
  have haxis' : axis = 'R' ∨ axis = 'C' := haxis.imp (·.2) (·.2)
  have hdigits : ∀ d ∈ tail.takeWhile isDecimalDigit, isDecimalDigit d = true :=
    fun d hd => List.mem_takeWhile_imp hd
  have hsplit : tail.takeWhile isDecimalDigit ++ tail.dropWhile isDecimalDigit = tail :=
    List.takeWhile_append_dropWhile
  have hone (text : List Char) : sliceFrom (c :: text) 1 = some text := by
    have hlength : (utf8 [c]).length = 1 := by
      rw [utf8_cons, hfirst]
      rfl
    have hcut := splitAt_utf8 (c :: text) [c] text rfl
    rw [hlength] at hcut
    rw [sliceFrom, hcut]
    rfl
  have hend (text : List Char) : 1 + (utf8 text).length = (utf8 (c :: text)).length := by
    rw [utf8_cons, hfirst, List.length_append, List.length_singleton]
  have hslice : slice (c :: tail) 1 (1 + (utf8 (tail.takeWhile isDecimalDigit)).length) =
      some (tail.takeWhile isDecimalDigit) := by
    have hcut := splitAt_utf8 (c :: tail) (c :: tail.takeWhile isDecimalDigit)
      (tail.dropWhile isDecimalDigit) (by rw [List.cons_append, hsplit])
    rw [slice, hend, hcut, Option.bind_some]
    exact hone _
  have hstop := List.head?_dropWhile_not isDecimalDigit tail
  rw [r1c1Tail, hone]
  dsimp only [Option.bind_eq_bind, Option.bind_some]
  rw [hslice, Option.bind_some, hend]
  cases hrest : tail.dropWhile isDecimalDigit with
  | nil =>
    rw [hrest, List.append_nil] at hsplit
    rw [hsplit, if_pos rfl]
    rw [hsplit] at hdigits
    refine ⟨_, rfl, ?_⟩
    rw [axisTail_digits haxis' hdigits, isGridIndex_iff tail hfirstLimit]
  | cons d second =>
    rw [hrest] at hsplit hstop
    have hd : isDecimalDigit d = false := hstop
    generalize tail.takeWhile isDecimalDigit = digits at hdigits hsplit hslice ⊢
    obtain ⟨byte, bytes, hencode, hr, hc, -, hlast⟩ := axis_iff d
    have hname : utf8 (c :: tail) = utf8 (c :: digits) ++ (byte :: bytes ++ utf8 second) := by
      rw [← hsplit, ← hencode, ← utf8_cons, ← utf8_append, List.cons_append]
    have hbyte : (utf8 (c :: tail))[(utf8 (c :: digits)).length]? = some byte := by
      rw [hname, List.getElem?_append_right (Nat.le_refl _), Nat.sub_self]
      rfl
    have hlonger : (utf8 (c :: digits)).length ≠ (utf8 (c :: tail)).length := by
      rw [hname, List.length_append, List.length_append, List.length_cons]
      omega
    have hmatches : toAsciiUppercase byte = secondAxis ↔ d.toUpper = axis := by
      rcases haxis with ⟨rfl, rfl⟩ | ⟨rfl, rfl⟩
      · exact hr
      · exact hc
    rw [if_neg hlonger, hbyte, Option.bind_some, ← hsplit, axisTail_cut haxis' hdigits hd,
      ← hmatches]
    by_cases hmatch : toAsciiUppercase byte = secondAxis
    · have hsecond : sliceFrom (c :: (digits ++ d :: second)) ((utf8 (c :: digits)).length + 1) =
          some second := by
        have hsingle : bytes = [] :=
          hlast (haxis.imp (fun h => hmatch.trans h.1) fun h => hmatch.trans h.1)
        have hlength : (utf8 (c :: digits ++ [d])).length = (utf8 (c :: digits)).length + 1 := by
          rw [utf8_append, List.length_append, utf8_cons d [], hencode, hsingle]
          rfl
        have hcut := splitAt_utf8 (c :: (digits ++ d :: second))
          (c :: digits ++ [d]) second (by simp)
        rw [← hlength, sliceFrom, hcut]
        rfl
      rw [if_neg (not_not_intro hmatch), hsecond, Option.bind_some, hrelative]
      refine ⟨_, rfl, ?_⟩
      rw [Bool.and_eq_true, index_or_relative hfirstLimit, index_or_relative hsecondLimit]
      exact ⟨fun h => ⟨hmatch, h⟩, (·.2)⟩
    · rw [if_pos hmatch]
      exact ⟨false, rfl, nofun, fun h => absurd h.1 hmatch⟩

/-- **`is_r1c1_reference`** has a result, and decides the R1C1 references. -/
theorem isR1c1Reference_eq (name : List Char) : ∃ reference, isR1c1Reference name = some reference ∧
      (reference = true ↔ R1C1Reference name) := by
  cases name with
  | nil => exact ⟨false, rfl, nofun, nofun⟩
  | cons c tail =>
    have hcolumns : excelGridColumns ≤ excelGridRows := by decide
    obtain ⟨first, bytes, hencode, hr, hc, hrelative, hlast⟩ := axis_iff c
    have hhead : (utf8 (c :: tail)).head? = some first := by
      rw [utf8_cons, hencode]
      rfl
    rw [isR1c1Reference, hhead, r1c1Reference_iff]
    dsimp only
    by_cases hrow : toAsciiUppercase first = 0x52
    · have hupper := hr.mp hrow
      have hrel : (toAsciiLowercase first == 0x72) = true := beq_iff_eq.mpr (hrelative.mpr hupper)
      have hfirst : String.utf8EncodeChar c = [first] := by rw [hencode, hlast (.inl hrow)]
      obtain ⟨reference, heq, hiff⟩ := r1c1Tail_eq tail hfirst hrel (Nat.le_refl _)
        hcolumns (.inr ⟨rfl, rfl⟩)
      rw [axes, if_pos hrow]
      refine ⟨reference, heq, hiff.trans ⟨fun h => .inl ⟨hupper, h⟩, ?_⟩⟩
      rintro (⟨-, h⟩ | ⟨hcolumn, -⟩)
      · exact h
      · rw [hupper] at hcolumn
        exact absurd hcolumn (by decide)
    · by_cases hcolumn : toAsciiUppercase first = 0x43
      · have hupper := hc.mp hcolumn
        have hrel : (toAsciiLowercase first == 0x72) = false :=
          Bool.eq_false_iff.mpr fun h => hrow (hr.mpr (hrelative.mp (beq_iff_eq.mp h)))
        have hfirst : String.utf8EncodeChar c = [first] := by rw [hencode, hlast (.inr hcolumn)]
        obtain ⟨reference, heq, hiff⟩ := r1c1Tail_eq tail hfirst hrel hcolumns
          (Nat.le_refl _) (.inl ⟨rfl, rfl⟩)
        rw [axes, if_neg hrow, if_pos hcolumn]
        refine ⟨reference, heq, hiff.trans ⟨fun h => .inr ⟨hupper, h⟩, ?_⟩⟩
        rintro (⟨hrow', -⟩ | ⟨-, h⟩)
        · exact absurd (hr.mpr hrow') hrow
        · exact h
      · rw [axes, if_neg hrow, if_neg hcolumn]
        refine ⟨false, rfl, nofun, ?_⟩
        rintro (⟨hrow', -⟩ | ⟨hcolumn', -⟩)
        · exact absurd (hr.mpr hrow') hrow
        · exact absurd (hc.mpr hcolumn') hcolumn

-- ---- Function names.

theorem isCellReference_eq (name : List Char) : ∃ reference, isCellReference name = some reference ∧
      (reference = true ↔ A1Reference name ∨ R1C1Reference name) := by
  obtain ⟨a1, ha1, ha1_iff⟩ := isA1Reference_eq name
  obtain ⟨r1c1, hr1c1, hr1c1_iff⟩ := isR1c1Reference_eq name
  rw [isCellReference, ha1, Option.bind_eq_bind, Option.bind_some]
  cases a1 with
  | true => exact ⟨true, rfl, fun _ => .inl (ha1_iff.mp rfl), fun _ => rfl⟩
  | false =>
    have hno : ¬A1Reference name := fun h => Bool.false_ne_true (ha1_iff.mpr h)
    refine ⟨r1c1, hr1c1, hr1c1_iff.trans ⟨.inr, fun h => h.resolve_left hno⟩⟩

theorem all_nameCharacter_iff (characters : List Char) : (characters.all fun character =>
        isFunctionNameStart character || character.isDigit ||
          (character == '.' || character == '?')) = true ↔
      ∀ c ∈ characters, NameCharacter c := by
  rw [List.all_eq_true]
  refine forall₂_congr fun c _ => ?_
  rw [NameCharacter, Bool.or_eq_true, Bool.or_eq_true, isFunctionNameStart_iff, Bool.or_eq_true,
    beq_iff_eq, beq_iff_eq, or_assoc]

theorem reserved_iff (name : List Char) :
    (reservedNames.any fun reserved => eqIgnoreAsciiCase name reserved.toList) = true ↔
      ∃ reserved ∈ ["C", "R", "TRUE", "FALSE"],
        name.map Char.toLower = reserved.toList.map Char.toLower := by
  have hascii : ∀ reserved ∈ reservedNames, ∀ c ∈ reserved.toList, c.toNat < 0x80 := by
    simp [reservedNames]
  rw [List.any_eq_true]
  refine exists_congr fun reserved => and_congr_right fun hreserved => ?_
  exact eqIgnoreAsciiCase_iff name (hascii reserved hreserved)

/-- **Function names.** Validation has a result for every text: no arithmetic overflows and no
cut falls inside a scalar. It accepts the names of the grammar and no others. -/
theorem validate_function_name_exact (name : String) :
    (∃ result, validateFunctionName name = some result ∧
      (result = .ok () ↔ FunctionName name.toList)) ∧
    (∀ limit ≤ excelGridRows, ∀ text index character digit,
      gridIndex limit text 0 = some index → unicodeDecimalDigit character = some digit →
      (checked u32Max (index * 10)).bind (fun index => checked u32Max (index + digit)) =
        some (index * 10 + digit)) := by
  refine ⟨?_, fun limit hlimit text index character digit hindex hdigit => ?_⟩
  · cases hname : name.toList with
    | nil =>
      rw [validateFunctionName, hname]
      exact ⟨_, rfl, nofun, fun h => absurd rfl h.nonempty⟩
    | cons first characters =>
      rw [validateFunctionName, hname]
      dsimp only
      by_cases hlong : (encode (first :: characters)).length > excelFunctionNameLimit
      · rw [if_pos hlong]
        exact ⟨_, rfl, nofun, fun h => absurd h.short (Nat.not_le.mpr hlong)⟩
      rw [if_neg hlong]
      cases hstart : isFunctionNameStart first with
      | false =>
        refine ⟨_, rfl, nofun, fun h => ?_⟩
        rw [(isFunctionNameStart_iff first).mpr (h.start first rfl)] at hstart
        cases hstart
      | true =>
        rw [Bool.not_true, if_neg Bool.false_ne_true]
        cases hcharacters : characters.all fun character =>
            isFunctionNameStart character || character.isDigit ||
              (character == '.' || character == '?') with
        | false =>
          refine ⟨_, rfl, nofun, fun h => ?_⟩
          rw [(all_nameCharacter_iff characters).mpr h.characters] at hcharacters
          cases hcharacters
        | true =>
          rw [Bool.not_true, if_neg Bool.false_ne_true]
          have hreserved_iff := reserved_iff (first :: characters)
          cases hreserved : reservedNames.any fun reserved =>
              eqIgnoreAsciiCase (first :: characters) reserved.toList with
          | true =>
            refine ⟨_, rfl, nofun, fun h => ?_⟩
            obtain ⟨reserved, hmem, hsame⟩ := hreserved_iff.mp hreserved
            exact absurd hsame (h.unreserved reserved hmem)
          | false =>
            rw [if_neg Bool.false_ne_true]
            obtain ⟨reference, heq, hiff⟩ := isCellReference_eq (first :: characters)
            rw [heq, Option.map_some]
            cases reference with
            | true =>
              refine ⟨_, rfl, nofun, fun h => ?_⟩
              exact absurd (hiff.mp rfl) (not_or.mpr ⟨h.not_a1, h.not_r1c1⟩)
            | false =>
              have hno := not_or.mp fun h => Bool.false_ne_true (hiff.mpr h)
              refine ⟨_, rfl, fun _ => ?_, fun _ => rfl⟩
              refine ⟨List.cons_ne_nil _ _, Nat.not_lt.mp hlong, ?_,
                (all_nameCharacter_iff characters).mp hcharacters,
                fun reserved hmem hsame => ?_, hno.1, hno.2⟩
              · rintro c ⟨⟩
                exact (isFunctionNameStart_iff first).mp hstart
              · rw [hreserved_iff.mpr ⟨reserved, hmem, hsame⟩] at hreserved
                cases hreserved
  · have hle := ((gridIndex_eq_some hlimit text (Nat.zero_le limit) index).mp hindex).1
    exact gridStep_eq hlimit hle (digit_lt hdigit)

end Xlfn.Text
