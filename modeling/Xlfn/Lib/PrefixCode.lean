import Mathlib.Data.List.Induction
import Mathlib.Tactic.Ring

/-!
# Xlfn — prefix-free encodings

An encoding is prefix-free when a value and what follows it can be read back from the
front of any longer text. Encodings of that kind compose: a code after a code, a tag that
selects one of several codes, a count followed by that many items.
-/

namespace Xlfn.Lib

open List

variable {α β γ : Type}

/-- On the values that satisfy `P`, a value and what follows it are determined by the
text. -/
def PrefixFreeOn (P : α → Prop) (encode : α → List β) : Prop :=
  ∀ ⦃a b : α⦄ ⦃s t : List β⦄, P a → P b → encode a ++ s = encode b ++ t → a = b ∧ s = t

/-- On every value. -/
def PrefixFree (encode : α → List β) : Prop :=
  ∀ ⦃a b : α⦄ ⦃s t : List β⦄, encode a ++ s = encode b ++ t → a = b ∧ s = t

namespace PrefixFreeOn

variable {P : α → Prop} {encode : α → List β}

/-- A fixed width and injectivity are enough. -/
theorem of_length (width : Nat) (hwidth : ∀ a, (encode a).length = width)
    (hinj : ∀ ⦃a b⦄, P a → P b → encode a = encode b → a = b) : PrefixFreeOn P encode := by
  intro a b s t ha hb h
  obtain ⟨hcode, hrest⟩ := append_inj h ((hwidth a).trans (hwidth b).symm)
  exact ⟨hinj ha hb hcode, hrest⟩

/-- Sequences of a known length, and sequences after their length. -/
theorem flatMap (h : PrefixFreeOn P encode) {xs ys : List α} {s t : List β}
    (hlength : xs.length = ys.length) (hxs : ∀ x ∈ xs, P x) (hys : ∀ y ∈ ys, P y)
    (htext : xs.flatMap encode ++ s = ys.flatMap encode ++ t) : xs = ys ∧ s = t := by
  induction xs generalizing ys with
  | nil =>
    obtain rfl := length_eq_zero_iff.mp hlength.symm
    exact ⟨rfl, htext⟩
  | cons x xs ih =>
    cases ys with
    | nil => cases hlength
    | cons y ys =>
      simp only [flatMap_cons, append_assoc] at htext
      obtain ⟨rfl, htail⟩ := h (hxs x mem_cons_self) (hys y mem_cons_self) htext
      obtain ⟨rfl, hrest⟩ := ih (Nat.succ.inj hlength)
        (fun z hz => hxs z (mem_cons_of_mem _ hz))
        (fun z hz => hys z (mem_cons_of_mem _ hz)) htail
      exact ⟨rfl, hrest⟩

theorem counted (h : PrefixFreeOn P encode) {Q : Nat → Prop} {count : Nat → List β}
    (hcount : PrefixFreeOn Q count) :
    PrefixFreeOn (fun xs : List α => Q xs.length ∧ ∀ x ∈ xs, P x)
      fun xs => count xs.length ++ xs.flatMap encode := by
  intro xs ys s t hxs hys htext
  simp only [append_assoc] at htext
  obtain ⟨hlength, htail⟩ := hcount hxs.1 hys.1 htext
  exact h.flatMap hlength hxs.2 hys.2 htail

end PrefixFreeOn

namespace PrefixFree

variable {encode : α → List β}

theorem on (h : PrefixFree encode) (P : α → Prop) : PrefixFreeOn P encode :=
  fun _ _ _ _ _ _ htext => h htext

theorem eq_of_isPrefix (h : PrefixFree encode) {a b : α} (hpre : encode a <+: encode b) :
    a = b := by
  obtain ⟨rest, hrest⟩ := hpre
  have htext : encode a ++ rest = encode b ++ [] := by rw [hrest, append_nil]
  exact (h htext).1

end PrefixFree

-- ---- Little-endian numbers.

/-- The `width` low bytes of a number, the lowest first. -/
def leBytes : Nat → Nat → List UInt8
  | 0, _ => []
  | width + 1, value => UInt8.ofNat value :: leBytes width (value / 256)

@[simp] theorem length_leBytes (width value : Nat) : (leBytes width value).length = width := by
  induction width generalizing value with
  | zero => rfl
  | succ width ih => rw [leBytes, length_cons, ih]

theorem leBytes_injOn {width a b : Nat} (ha : a < 256 ^ width) (hb : b < 256 ^ width)
    (h : leBytes width a = leBytes width b) : a = b := by
  induction width generalizing a b with
  | zero =>
    rw [pow_zero] at ha hb
    omega
  | succ width ih =>
    rw [pow_succ] at ha hb
    obtain ⟨hlow, hhigh⟩ := List.cons.inj h
    have hlow : a % 256 = b % 256 := by
      have hnat := congrArg UInt8.toNat hlow
      simpa only [UInt8.toNat_ofNat'] using hnat
    have hhigh : a / 256 = b / 256 :=
      ih (Nat.div_lt_of_lt_mul (by rwa [Nat.mul_comm])) (Nat.div_lt_of_lt_mul (by rwa [Nat.mul_comm]))
        hhigh
    omega

/-- Little-endian numbers of a fixed width. -/
theorem prefixFreeOn_leBytes (width : Nat) : PrefixFreeOn (· < 256 ^ width) (leBytes width) :=
  PrefixFreeOn.of_length width (length_leBytes width) fun _ _ => leBytes_injOn

end Xlfn.Lib
