import Xlfn.Lib.Ascii

/-!
# Xlfn — cuts of text

Text as a list of scalars whose length counts UTF-8 bytes, as Rust's `str` has it: an index is a
byte offset, and only some are boundaries.

* `floorCharBoundary`, `sliceTo` — the functions of `str`.
* `Longest` — the longest prefix within a number of bytes.
-/

namespace Xlfn.Lib.Utf16

open List

/-- `str::len`. -/
def len (text : List Char) : Nat := (utf8 text).length

/-- `str::is_char_boundary`. -/
def isCharBoundary (text : List Char) (index : Nat) : Bool := (splitAt text index).isSome

/-- `&text[..index]`, `none` where that panics. -/
def sliceTo (text : List Char) (index : Nat) : Option (List Char) :=
  (splitAt text index).map Prod.fst

/-- The last boundary up to an index. -/
def boundaryBefore (text : List Char) : Nat → Nat
  | 0 => 0
  | index + 1 => if isCharBoundary text (index + 1) then index + 1 else boundaryBefore text index

/-- `str::floor_char_boundary`. -/
def floorCharBoundary (text : List Char) (index : Nat) : Nat :=
  if len text ≤ index then len text else boundaryBefore text index

variable {text p q : List Char} {n : Nat}

@[simp] theorem len_append (p q : List Char) : len (p ++ q) = len p + len q := by
  rw [len, utf8_append, length_append, len, len]

theorem len_pos {c : Char} : 0 < len (c :: p) := by
  rw [len, utf8_cons, length_append, length_utf8EncodeChar]
  omega

theorem eq_nil_of_len (h : len p = 0) : p = [] := by
  cases p with
  | nil => rfl
  | cons c p => exact absurd h (Nat.ne_of_gt len_pos)

theorem prefix_of_len_le (hq : q <+: text) (hp : p <+: text) (h : len q ≤ len p) : q <+: p := by
  rcases prefix_or_prefix_of_prefix hq hp with hqp | ⟨r, rfl⟩
  · exact hqp
  · rw [len_append] at h
    simp [eq_nil_of_len (by omega : len r = 0)]

theorem len_le_of_prefix (h : p <+: text) : len p ≤ len text := by
  obtain ⟨r, rfl⟩ := h
  rw [len_append]
  exact Nat.le_add_right _ _

theorem splitAt_some {cut : List Char × List Char} (h : splitAt text n = some cut) :
    text = cut.1 ++ cut.2 ∧ len cut.1 = n := by
  induction text generalizing n cut with
  | nil =>
    cases n with
    | zero =>
      cases h
      exact ⟨rfl, rfl⟩
    | succ n => cases h
  | cons c text ih =>
    cases n with
    | zero =>
      rw [splitAt.eq_1] at h
      cases h
      exact ⟨rfl, rfl⟩
    | succ n =>
      rw [splitAt] at h
      split at h
      · next hfits =>
        obtain ⟨rest, hrest, rfl⟩ := Option.map_eq_some_iff.mp h
        obtain ⟨rfl, hlen⟩ := ih hrest
        refine ⟨rfl, ?_⟩
        rw [len, utf8_cons, length_append, ← len, hlen]
        omega
      · cases h

theorem splitAt_prefix (h : p <+: text) : ∃ rest, splitAt text (len p) = some (p, rest) := by
  obtain ⟨rest, rfl⟩ := h
  exact ⟨rest, splitAt_append p rest⟩

-- ---- The longest prefix.

/-- The prefix within `n` bytes that every other one is a prefix of. -/
structure Longest (n : Nat) (text p : List Char) : Prop where
  isPrefix : p <+: text
  within   : len p ≤ n
  longest  : ∀ q, q <+: text → len q ≤ n → q <+: p

theorem Longest.unique (hp : Longest n text p) (hq : Longest n text q) : p = q :=
  (hq.longest p hp.isPrefix hp.within).eq_of_length_le
    (hp.longest q hq.isPrefix hq.within).length_le

theorem longest_of_len_le (h : len text ≤ n) : Longest n text text where
  isPrefix := prefix_rfl
  within   := h
  longest _ hq _ := hq

/-- The longest prefix within fewer bytes is found in the longest one within more. -/
theorem Longest.trans {m : Nat} (hp : Longest n text p) (hmn : m ≤ n) (hq : Longest m p q) :
    Longest m text q where
  isPrefix := hq.isPrefix.trans hp.isPrefix
  within   := hq.within
  longest r hr hlen := hq.longest r (hp.longest r hr (Nat.le_trans hlen hmn)) hlen

/-- **The longest prefix of a text is found in its first chunks**, where these do not fit. -/
theorem Longest.extend {chunk : List Char} (first rest : List Char)
    (hp : Longest n chunk p) (hlong : n < len chunk) :
    Longest (len first + n) (first ++ (chunk ++ rest)) (first ++ p) where
  isPrefix := by
    obtain ⟨r, rfl⟩ := hp.isPrefix
    exact ⟨r ++ rest, by simp only [append_assoc]⟩
  within := by
    have := hp.within
    rw [len_append]
    omega
  longest q hq hlen := by
    rcases prefix_or_prefix_of_prefix hq (prefix_append first _) with hfirst | ⟨q, rfl⟩
    · exact hfirst.trans (prefix_append _ _)
    · rw [len_append] at hlen
      have hq := (prefix_append_right_inj first).mp hq
      have hchunk : q <+: chunk :=
        prefix_of_len_le hq (prefix_append chunk rest) (by omega)
      exact (prefix_append_right_inj first).mpr (hp.longest q hchunk (by omega))

theorem boundaryBefore_spec (text : List Char) (n : Nat) :
    ∃ p, sliceTo text (boundaryBefore text n) = some p ∧ Longest n text p := by
  induction n with
  | zero =>
    refine ⟨[], by rw [sliceTo, boundaryBefore, splitAt.eq_1]; rfl, nil_prefix, Nat.le_refl _,
      fun q _ hq => ?_⟩
    simp [eq_nil_of_len (Nat.le_zero.mp hq)]
  | succ n ih =>
    rw [boundaryBefore]
    split
    · next hboundary =>
      obtain ⟨⟨p, rest⟩, hcut⟩ := Option.isSome_iff_exists.mp hboundary
      obtain ⟨htext, hlen⟩ := splitAt_some hcut
      have hp : p <+: text := ⟨rest, htext.symm⟩
      exact ⟨p, by rw [sliceTo, hcut]; rfl, hp, Nat.le_of_eq hlen,
        fun q hq hle => prefix_of_len_le hq hp (hlen ▸ hle)⟩
    · next hboundary =>
      obtain ⟨p, hslice, hp⟩ := ih
      refine ⟨p, hslice, hp.isPrefix, Nat.le_succ_of_le hp.within, fun q hq hle => ?_⟩
      refine hp.longest q hq (Nat.le_of_lt_succ (Nat.lt_of_le_of_ne hle fun heq => hboundary ?_))
      obtain ⟨rest, hcut⟩ := splitAt_prefix hq
      rw [isCharBoundary, show n + 1 = len q from heq.symm, hcut]
      rfl

/-- **A slice up to a floored index is the longest prefix.** -/
theorem floorCharBoundary_spec (text : List Char) (n : Nat) :
    ∃ p, sliceTo text (floorCharBoundary text n) = some p ∧ Longest n text p := by
  unfold floorCharBoundary
  split
  · next hfits =>
    obtain ⟨rest, hcut⟩ := splitAt_prefix (prefix_rfl (l := text))
    exact ⟨text, by rw [sliceTo, hcut]; rfl, longest_of_len_le hfits⟩
  · exact boundaryBefore_spec text n

end Xlfn.Lib.Utf16
