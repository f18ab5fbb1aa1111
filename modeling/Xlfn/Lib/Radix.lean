import Mathlib.Data.Nat.Digits.Defs
import Xlfn.Lib.Ascii

/-!
# Xlfn — numbers in a radix

The integer parser of the standard library on the bytes of a text, and the hexadecimal
digits of both cases as characters.

* `fromAsciiRadix` — a sign, digits, and an overflow that is found while they are read.
* `HexNumber` — hexadecimal digits and the number they denote.
-/

namespace Xlfn.Lib.Radix

open Utf16 Bool List

-- ---- The parser.

inductive IntErrorKind where
  | empty
  | invalidDigit
  | posOverflow

/-- `char::to_digit`: digits, then letters of either case. -/
def toDigit (radix : Nat) (byte : UInt8) : Option Nat :=
  let digit :=
    if 0x30 ≤ byte.toNat ∧ byte.toNat ≤ 0x39 then byte.toNat - 0x30
    else if 0x61 ≤ byte.toNat ∧ byte.toNat ≤ 0x7a then byte.toNat - 0x61 + 10
    else if 0x41 ≤ byte.toNat ∧ byte.toNat ≤ 0x5a then byte.toNat - 0x41 + 10
    else radix
  if digit < radix then some digit else none

/-- A result in range. -/
def checked (max n : Nat) : Option Nat := if n ≤ max then some n else none

/-- The loop over the digits. The product is formed before the digit is looked at, and its
overflow counts after it. -/
def accumulate (max radix : Nat) : Nat → List UInt8 → Except IntErrorKind Nat
  | result, [] => .ok result
  | result, byte :: bytes =>
    match toDigit radix byte with
    | none => .error .invalidDigit
    | some digit =>
      match (checked max (result * radix)).bind fun product => checked max (product + digit) with
      | none => .error .posOverflow
      | some result => accumulate max radix result bytes

/-- `from_str_radix` of an unsigned type with largest value `max`, without a result where the
radix is none. A plus is dropped, a minus is not a digit. -/
def fromAsciiRadix (max : Nat) (bytes : List UInt8) (radix : Nat) :
    Option (Except IntErrorKind Nat) :=
  if radix < 2 ∨ 36 < radix then none
  else some (
    if bytes = [] then .error .empty
    else if bytes = [0x2b] ∨ bytes = [0x2d] then .error .invalidDigit
    else if bytes.head? = some 0x2b then accumulate max radix 0 bytes.tail
    else accumulate max radix 0 bytes)

-- ---- What the digits denote.

variable {max : Nat}

theorem checked_eq_some {n m : Nat} : checked max n = some m ↔ n ≤ max ∧ n = m := by
  unfold checked
  split
  · simp [*]
  · simp [*]

variable {digit : Nat} {byte : UInt8}

theorem toDigit_lt {radix : Nat} (h : toDigit radix byte = some digit) : digit < radix := by
  obtain ⟨hlt, hdigit⟩ := Option.ite_none_right_eq_some.mp h
  cases hdigit
  exact hlt

/-- **The loop returns what the digits denote**, if that is in range. -/
theorem accumulate_ok_iff {radix : Nat} (hradix : 0 < radix) {result value : Nat}
    (hresult : result ≤ max) (bytes : List UInt8) : accumulate max radix result bytes = .ok value ↔
      ∃ digits : List Nat, bytes.map (toDigit radix) = digits.map some ∧
        value = result * radix ^ digits.length + Nat.ofDigits radix digits.reverse ∧
        value ≤ max := by
  induction bytes generalizing result with
  | nil =>
    constructor
    · intro h
      cases h
      exact ⟨[], rfl, by simp, hresult⟩
    · rintro ⟨digits, hdigits, rfl, -⟩
      rw [map_eq_nil_iff.mp hdigits.symm]
      simp [accumulate]
  | cons byte bytes ih =>
    -- What the digits behind the first add, whatever they are.
    have hvalue (digit : Nat) (digits : List Nat) :
        result * radix ^ (digit :: digits).length + Nat.ofDigits radix (digit :: digits).reverse =
          (result * radix + digit) * radix ^ digits.length +
            Nat.ofDigits radix digits.reverse := by
      rw [Nat.ofDigits_reverse_cons, List.length_cons, pow_succ]
      ring
    unfold accumulate
    cases hdigit : toDigit radix byte with
    | none =>
      refine ⟨nofun, ?_⟩
      rintro ⟨digits, hdigits, -, -⟩
      cases digits with
      | nil => cases hdigits
      | cons digit digits =>
        rw [map_cons, map_cons, hdigit] at hdigits
        cases hdigits
    | some digit =>
      have hrest : (∃ digits : List Nat, (byte :: bytes).map (toDigit radix) = digits.map some ∧
            value = result * radix ^ digits.length + Nat.ofDigits radix digits.reverse ∧
            value ≤ max) ↔
          ∃ digits : List Nat, bytes.map (toDigit radix) = digits.map some ∧
            value = (result * radix + digit) * radix ^ digits.length +
              Nat.ofDigits radix digits.reverse ∧ value ≤ max := by
        constructor
        · rintro ⟨digits, hdigits, hv, hle⟩
          cases digits with
          | nil => cases hdigits
          | cons d digits =>
            rw [map_cons, map_cons, hdigit] at hdigits
            injection hdigits with hd hdigits
            cases hd
            exact ⟨digits, hdigits, by rw [hv, hvalue], hle⟩
        · rintro ⟨digits, hdigits, hv, hle⟩
          exact ⟨digit :: digits, by rw [map_cons, map_cons, hdigit, hdigits],
            by rw [hv, hvalue], hle⟩
      rw [hrest]
      dsimp only
      by_cases hstep : result * radix + digit ≤ max
      · have hproduct : result * radix ≤ max := Nat.le_trans (Nat.le_add_right _ _) hstep
        rw [checked, if_pos hproduct, Option.bind_some, checked, if_pos hstep]
        exact ih hstep
      · have hover : (checked max (result * radix)).bind
            (fun product => checked max (product + digit)) = none := by
          rw [Option.bind_eq_none_iff]
          intro product hproduct
          obtain ⟨-, rfl⟩ := checked_eq_some.mp hproduct
          rw [checked, if_neg hstep]
        rw [hover]
        refine ⟨nofun, ?_⟩
        rintro ⟨digits, -, hv, hle⟩
        have hpow : 1 ≤ radix ^ digits.length := Nat.pow_pos hradix
        have hmul := Nat.le_mul_of_pos_right (result * radix + digit) hpow
        omega

-- ---- Hexadecimal digits.

/-- `u8::is_ascii_hexdigit`. -/
def isAsciiHexdigit (byte : UInt8) : Bool :=
  (0x30 ≤ byte.toNat && byte.toNat ≤ 0x39) || (0x41 ≤ byte.toNat && byte.toNat ≤ 0x46) ||
    (0x61 ≤ byte.toNat && byte.toNat ≤ 0x66)

/-- The value of a hexadecimal digit of either case. -/
def hexValue (c : Char) : Option Nat :=
  if '0' ≤ c ∧ c ≤ '9' then some (c.toNat - '0'.toNat)
  else if 'a' ≤ c ∧ c ≤ 'f' then some (c.toNat - 'a'.toNat + 10)
  else if 'A' ≤ c ∧ c ≤ 'F' then some (c.toNat - 'A'.toNat + 10)
  else none

/-- `width` hexadecimal digits that denote `value`. -/
def HexNumber (width : Nat) (text : List Char) (value : Nat) : Prop :=
  ∃ digits : List Nat, digits.length = width ∧ text.map hexValue = digits.map some ∧
    Nat.ofDigits 16 digits.reverse = value

variable {c : Char} {text : List Char}

theorem hexValue_eq (h : c.toNat < 0x80) :
    hexValue c = if isAsciiHexdigit (asciiByte c) then toDigit 16 (asciiByte c) else none := by
  have hle (a b : Char) : a ≤ b ↔ a.toNat ≤ b.toNat := Iff.rfl
  simp only [hexValue, isAsciiHexdigit, toDigit, toNat_asciiByte h, hle, or_eq_true,
    and_eq_true, decide_eq_true_eq]
  change (if 48 ≤ c.toNat ∧ c.toNat ≤ 57 then some (c.toNat - 48)
    else if 97 ≤ c.toNat ∧ c.toNat ≤ 102 then some (c.toNat - 97 + 10)
    else if 65 ≤ c.toNat ∧ c.toNat ≤ 70 then some (c.toNat - 65 + 10) else none) = _
  split_ifs <;> first | rfl | omega

theorem hexValue_other (h : ¬c.toNat < 0x80) : hexValue c = none := by
  have hle (a b : Char) : a ≤ b ↔ a.toNat ≤ b.toNat := Iff.rfl
  simp only [hexValue, hle]
  rw [if_neg (by intro hc; exact h (Nat.lt_of_le_of_lt hc.2 (by decide))),
    if_neg (by intro hc; exact h (Nat.lt_of_le_of_lt hc.2 (by decide))),
    if_neg (by intro hc; exact h (Nat.lt_of_le_of_lt hc.2 (by decide)))]

theorem hexValue_ascii (h : hexValue c = some digit) : c.toNat < 0x80 := by
  by_contra hlarge
  rw [hexValue_other hlarge] at h
  cases h

theorem isAsciiHexdigit_of_hexValue (h : hexValue c = some digit) :
    isAsciiHexdigit (asciiByte c) = true ∧ toDigit 16 (asciiByte c) = some digit := by
  rw [hexValue_eq (hexValue_ascii h)] at h
  split at h
  · exact ⟨by assumption, h⟩
  · cases h

theorem toDigit_of_isAsciiHexdigit (h : isAsciiHexdigit byte = true) :
    ∃ digit, toDigit 16 byte = some digit := by
  simp only [isAsciiHexdigit, or_eq_true, and_eq_true, decide_eq_true_eq] at h
  refine ⟨_, if_pos ?_⟩
  split_ifs <;> omega

theorem isAsciiHexdigit_lt (h : isAsciiHexdigit byte = true) :
    byte.toNat < 0x80 ∧ byte ≠ 0x2b ∧ byte ≠ 0x2d := by
  simp only [isAsciiHexdigit, or_eq_true, and_eq_true, decide_eq_true_eq] at h
  refine ⟨by omega, ?_, ?_⟩
  · rintro rfl
    revert h
    decide
  · rintro rfl
    revert h
    decide

theorem hexDigit_of_mem {digits : List Nat} (hdigits : text.map hexValue = digits.map some)
    (hc : c ∈ text) : ∃ digit, hexValue c = some digit := by
  have hmem : hexValue c ∈ digits.map some := hdigits ▸ List.mem_map_of_mem hc
  obtain ⟨digit, -, hdigit⟩ := List.mem_map.mp hmem
  exact ⟨digit, hdigit.symm⟩

/-- **A text whose bytes are hexadecimal digits** is one of hexadecimal digits. -/
theorem hexDigits_iff (text : List Char) : (utf8 text).all isAsciiHexdigit = true ↔
      ∃ digits : List Nat, text.map hexValue = digits.map some := by
  rw [List.all_eq_true]
  constructor
  · intro hbytes
    have hascii : ∀ c ∈ text, c.toNat < 0x80 :=
      (utf8_ascii_iff text).mp fun byte hmem => (isAsciiHexdigit_lt (hbytes byte hmem)).1
    rw [utf8_ascii hascii] at hbytes
    induction text with
    | nil => exact ⟨[], rfl⟩
    | cons c text ih =>
      obtain ⟨digits, hdigits⟩ := ih
        (fun byte hmem => hbytes byte (mem_cons_of_mem _ hmem))
        (fun d hd => hascii d (mem_cons_of_mem _ hd))
      have hhead : isAsciiHexdigit (asciiByte c) = true := hbytes _ mem_cons_self
      obtain ⟨digit, hdigit⟩ := toDigit_of_isAsciiHexdigit hhead
      refine ⟨digit :: digits, ?_⟩
      rw [map_cons, map_cons, hdigits, hexValue_eq (hascii c mem_cons_self), if_pos hhead, hdigit]
  · rintro ⟨digits, hdigits⟩ byte hbyte
    rw [utf8_ascii fun c hc => hexValue_ascii (hexDigit_of_mem hdigits hc).choose_spec] at hbyte
    obtain ⟨c, hc, rfl⟩ := List.mem_map.mp hbyte
    obtain ⟨digit, hdigit⟩ := hexDigit_of_mem hdigits hc
    exact (isAsciiHexdigit_of_hexValue hdigit).1

theorem HexNumber.length_utf8 {width value : Nat} (h : HexNumber width text value) :
    (utf8 text).length = width := by
  obtain ⟨digits, rfl, hdigits, -⟩ := h
  have hcount := congrArg List.length hdigits
  rw [length_map, length_map] at hcount
  rw [utf8_ascii fun c hc => hexValue_ascii (hexDigit_of_mem hdigits hc).choose_spec,
    length_map, hcount]

theorem HexNumber.lt {width value : Nat} (h : HexNumber width text value) : value < 16 ^ width := by
  obtain ⟨digits, rfl, hdigits, rfl⟩ := h
  have hsmall : ∀ digit ∈ digits.reverse, digit < 16 := by
    intro digit hmem
    have hmem : some digit ∈ digits.map some := List.mem_map_of_mem (mem_reverse.mp hmem)
    rw [← hdigits] at hmem
    obtain ⟨c, -, hc⟩ := List.mem_map.mp hmem
    exact toDigit_lt (isAsciiHexdigit_of_hexValue hc).2
  have hlt := Nat.ofDigits_lt_base_pow_length (by decide : 1 < 16) hsmall
  rwa [length_reverse] at hlt

/-- **The parser on hexadecimal digits** returns what they denote, if that is in range. -/
theorem fromAsciiRadix_hex {digits : List Nat} (hne : text ≠ [])
    (hdigits : text.map hexValue = digits.map some) (hmax : Nat.ofDigits 16 digits.reverse ≤ max) :
    fromAsciiRadix max (utf8 text) 16 = some (.ok (Nat.ofDigits 16 digits.reverse)) := by
  have hbytes : utf8 text = text.map asciiByte :=
    utf8_ascii fun c hc => hexValue_ascii (hexDigit_of_mem hdigits hc).choose_spec
  have hvalues : (text.map asciiByte).map (toDigit 16) = digits.map some := by
    rw [← hdigits, List.map_map]
    refine map_congr_left fun c hc => ?_
    obtain ⟨digit, hdigit⟩ := hexDigit_of_mem hdigits hc
    rw [Function.comp_apply, hdigit]
    exact (isAsciiHexdigit_of_hexValue hdigit).2
  cases text with
  | nil => exact absurd rfl hne
  | cons c text =>
    obtain ⟨digit, hdigit⟩ := hexDigit_of_mem hdigits mem_cons_self
    obtain ⟨-, hplus, hminus⟩ := isAsciiHexdigit_lt (isAsciiHexdigit_of_hexValue hdigit).1
    rw [fromAsciiRadix, if_neg (by decide), hbytes, if_neg (by simp),
      if_neg (by simp [hplus, hminus]), if_neg (by simp [hplus])]
    congr 1
    refine (accumulate_ok_iff (by decide) (Nat.zero_le _) _).mpr ⟨digits, hvalues, ?_, hmax⟩
    rw [Nat.zero_mul, Nat.zero_add]

end Xlfn.Lib.Radix
