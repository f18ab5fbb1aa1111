import Xlfn.Lib.Utf16

/-!
# Xlfn — text by its bytes

A UTF-8 form read byte by byte and cut at byte offsets.

* `splitAt` — a cut at a byte offset, without a result inside a scalar or behind the end.
-/

namespace Xlfn.Lib.Utf16

open List String

-- ---- Bytes of a scalar.

/-- The byte of an ASCII scalar. -/
def asciiByte (c : Char) : UInt8 := .ofNat c.toNat

variable {c : Char}

theorem utf8EncodeChar_ascii (h : c.toNat < 0x80) : utf8EncodeChar c = [asciiByte c] := by
  have hval : c.val.toNat = c.toNat := rfl
  unfold utf8EncodeChar
  rw [hval]
  dsimp only
  rw [if_pos (by omega)]
  rfl

theorem toNat_byte {n : Nat} (h : n < 0x100) : (UInt8.ofNat n).toNat = n := by
  rw [UInt8.toNat_ofNat']
  exact Nat.mod_eq_of_lt h

theorem toNat_asciiByte (h : c.toNat < 0x80) : (asciiByte c).toNat = c.toNat :=
  toNat_byte (by omega)

theorem utf8EncodeChar_other (h : ¬c.toNat < 0x80) :
    ∃ byte bytes, utf8EncodeChar c = byte :: bytes ∧ 0x80 ≤ byte.toNat := by
  have hval : c.val.toNat = c.toNat := rfl
  unfold utf8EncodeChar
  rw [hval]
  dsimp only
  rw [if_neg (by omega)]
  split
  · refine ⟨_, _, rfl, ?_⟩
    rw [toNat_byte (by omega)]
    omega
  · split
    · refine ⟨_, _, rfl, ?_⟩
      rw [toNat_byte (by omega)]
      omega
    · refine ⟨_, _, rfl, ?_⟩
      rw [toNat_byte (by omega)]
      omega

/-- **The bytes are ASCII where the scalars are.** -/
theorem utf8_ascii_iff (cs : List Char) :
    (∀ byte ∈ utf8 cs, byte.toNat < 0x80) ↔ ∀ c ∈ cs, c.toNat < 0x80 := by
  constructor
  · intro hbytes c hc
    by_contra hlarge
    obtain ⟨byte, bytes, hencode, hge⟩ := utf8EncodeChar_other hlarge
    have hmem : byte ∈ utf8 cs :=
      mem_flatMap.mpr ⟨c, hc, by rw [hencode]; exact mem_cons_self⟩
    have hlt := hbytes byte hmem
    omega
  · intro hchars byte hbyte
    obtain ⟨c, hc, hbyte⟩ := mem_flatMap.mp hbyte
    have hsmall := hchars c hc
    rw [utf8EncodeChar_ascii hsmall, mem_singleton] at hbyte
    rw [hbyte, toNat_asciiByte hsmall]
    exact hsmall

variable {cs : List Char}

theorem utf8_ascii (h : ∀ c ∈ cs, c.toNat < 0x80) : utf8 cs = cs.map asciiByte := by
  induction cs with
  | nil => rfl
  | cons c cs ih =>
    rw [utf8_cons, utf8EncodeChar_ascii (h c mem_cons_self),
      ih fun d hd => h d (mem_cons_of_mem _ hd)]
    rfl

theorem map_asciiByte_injOn {ds : List Char} (hcs : ∀ c ∈ cs, c.toNat < 0x80)
    (hds : ∀ c ∈ ds, c.toNat < 0x80) (h : cs.map asciiByte = ds.map asciiByte) : cs = ds := by
  have hback {es : List Char} (hes : ∀ c ∈ es, c.toNat < 0x80) :
      (es.map asciiByte).map (fun byte => Char.ofNat byte.toNat) = es := by
    rw [List.map_map]
    refine (map_congr_left fun c hc => ?_).trans (List.map_id es)
    rw [Function.comp_apply, toNat_asciiByte (hes c hc), Char.ofNat_toNat, id]
  rw [← hback hcs, ← hback hds, h]

theorem encodeChar_ascii (h : c.toNat < 0x80) : encodeChar c = [(asciiByte c).toUInt16] := by
  have hbyte : (asciiByte c).toUInt16 = .ofNat c.toNat := by
    refine UInt16.toNat_inj.mp ?_
    rw [UInt8.toNat_toUInt16, toNat_asciiByte h, toNat_unit (by omega)]
  rw [encodeChar, if_pos (by omega), hbyte]

theorem encode_ascii (h : ∀ c ∈ cs, c.toNat < 0x80) : encode cs = (utf8 cs).map UInt8.toUInt16 := by
  rw [utf8_ascii h]
  induction cs with
  | nil => rfl
  | cons c cs ih =>
    rw [encode_cons, encodeChar_ascii (h c mem_cons_self),
      ih fun d hd => h d (mem_cons_of_mem _ hd)]
    rfl

theorem length_utf8_ascii (h : ∀ c ∈ cs, c.toNat < 0x80) : (utf8 cs).length = length cs := by
  rw [length, encode_ascii h, List.length_map]

theorem ascii_of_length_utf8 (h : (utf8 cs).length = length cs) : ∀ c ∈ cs, c.toNat < 0x80 := by
  induction cs with
  | nil => rintro c ⟨⟩
  | cons c cs ih =>
    have hrest := length_le_length_utf8 cs
    rw [length_cons, utf8_cons, List.length_append, length_encodeChar, length_utf8EncodeChar] at h
    intro d hd
    rcases mem_cons.mp hd with rfl | hd
    · split at h <;> split at h <;> split at h <;> omega
    · refine ih ?_ d hd
      split at h <;> split at h <;> split at h <;> omega

-- ---- Scanning and comparing.

/-- **Scanning ASCII bytes**: a class of bytes `p` without any that is not ASCII, and the class
of scalars `q` with the same members. -/
theorem takeWhile_utf8 {p : UInt8 → Bool} {q : Char → Bool}
    (hsame : ∀ c : Char, c.toNat < 0x80 → p (asciiByte c) = q c)
    (hbyte : ∀ byte : UInt8, 0x80 ≤ byte.toNat → p byte = false)
    (hchar : ∀ c : Char, ¬c.toNat < 0x80 → q c = false) (cs : List Char) :
    (utf8 cs).takeWhile p = utf8 (cs.takeWhile q) := by
  induction cs with
  | nil => rfl
  | cons c cs ih =>
    rw [utf8_cons]
    by_cases hsmall : c.toNat < 0x80
    · have hp := hsame c hsmall
      rw [utf8EncodeChar_ascii hsmall, singleton_append]
      cases hq : q c with
      | true =>
        rw [hq] at hp
        rw [takeWhile_cons_of_pos hp, takeWhile_cons_of_pos hq, utf8_cons,
          utf8EncodeChar_ascii hsmall, ih, singleton_append]
      | false =>
        rw [hq] at hp
        rw [takeWhile_cons_of_neg (Bool.eq_false_iff.mp hp),
          takeWhile_cons_of_neg (Bool.eq_false_iff.mp hq)]
        rfl
    · obtain ⟨byte, bytes, hencode, hge⟩ := utf8EncodeChar_other hsmall
      rw [hencode, cons_append, takeWhile_cons_of_neg (Bool.eq_false_iff.mp (hbyte byte hge)),
        takeWhile_cons_of_neg (Bool.eq_false_iff.mp (hchar c hsmall))]
      rfl

/-- **Comparing ASCII bytes**, folded by `f`, where `g` folds scalars the same way. -/
theorem map_utf8_eq_iff {f : UInt8 → UInt8} {g : Char → Char}
    (hsame : ∀ c : Char, c.toNat < 0x80 → (g c).toNat < 0x80 ∧ f (asciiByte c) = asciiByte (g c))
    (hbyte : ∀ byte : UInt8, 0x80 ≤ byte.toNat → 0x80 ≤ (f byte).toNat)
    (hchar : ∀ c : Char, ¬c.toNat < 0x80 → ¬(g c).toNat < 0x80)
    {target : List Char} (htarget : ∀ c ∈ target, c.toNat < 0x80) (cs : List Char) :
    (utf8 cs).map f = (utf8 target).map f ↔ cs.map g = target.map g := by
  have hfolded {ds : List Char} (hds : ∀ c ∈ ds, c.toNat < 0x80) :
      (utf8 ds).map f = (ds.map g).map asciiByte := by
    rw [utf8_ascii hds, List.map_map, List.map_map]
    exact map_congr_left fun c hc => (hsame c (hds c hc)).2
  have hsmall {ds : List Char} (hds : ∀ c ∈ ds, c.toNat < 0x80) :
      ∀ c ∈ ds.map g, c.toNat < 0x80 := by
    intro d hd
    obtain ⟨c, hc, rfl⟩ := mem_map.mp hd
    exact (hsame c (hds c hc)).1
  constructor
  · intro heq
    have hascii : ∀ c ∈ cs, c.toNat < 0x80 := by
      refine (utf8_ascii_iff cs).mp fun byte hmem => ?_
      by_contra hlarge
      have hfold : f byte ∈ (utf8 target).map f := heq ▸ mem_map_of_mem hmem
      rw [hfolded htarget] at hfold
      obtain ⟨d, hd, hbytes⟩ := mem_map.mp hfold
      have hlt := hsmall htarget d hd
      have hge := hbyte byte (by omega)
      rw [← hbytes, toNat_asciiByte hlt] at hge
      omega
    rw [hfolded hascii, hfolded htarget] at heq
    exact map_asciiByte_injOn (hsmall hascii) (hsmall htarget) heq
  · intro heq
    have hascii : ∀ c ∈ cs, c.toNat < 0x80 := by
      intro c hc
      by_contra hlarge
      have hfold : g c ∈ target.map g := heq ▸ mem_map_of_mem hc
      exact hchar c hlarge (hsmall htarget _ hfold)
    rw [hfolded hascii, hfolded htarget, heq]

-- ---- Cuts.

/-- Cut at a byte offset. -/
def splitAt : List Char → Nat → Option (List Char × List Char)
  | cs, 0 => some ([], cs)
  | [], _ + 1 => none
  | c :: cs, n + 1 =>
    if (String.utf8EncodeChar c).length ≤ n + 1 then
      (splitAt cs (n + 1 - (String.utf8EncodeChar c).length)).map fun cut => (c :: cut.1, cut.2)
    else none

theorem splitAt_append (xs ys : List Char) : splitAt (xs ++ ys)
    (utf8 xs).length = some (xs, ys) := by
  induction xs with
  | nil =>
    rw [nil_append]
    exact splitAt.eq_1 ys
  | cons c xs ih =>
    have hpos : 0 < (utf8EncodeChar c).length := by
      rw [length_utf8EncodeChar]
      omega
    obtain ⟨n, hn⟩ : ∃ n, (utf8 (c :: xs)).length = n + 1 :=
      ⟨(utf8 (c :: xs)).length - 1, by rw [utf8_cons, List.length_append]; omega⟩
    have hrest : n + 1 - (utf8EncodeChar c).length = (utf8 xs).length := by
      rw [← hn, utf8_cons, List.length_append, Nat.add_sub_cancel_left]
    rw [hn, cons_append, splitAt, hrest, ih, if_pos]
    · rfl
    · rw [← hn, utf8_cons, List.length_append]
      exact Nat.le_add_right _ _

end Xlfn.Lib.Utf16
