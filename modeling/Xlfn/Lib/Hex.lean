import Mathlib.Data.List.Induction
import Mathlib.Tactic.Ring

/-!
# Xlfn — fixed-width hexadecimal

Lower-case hexadecimal digits as bytes, and numbers written with a given count of them.
A number that fits has exactly one spelling.
-/

namespace Xlfn.Lib.Hex

open List

-- ---- One digit.

/-- The digit of a value below 16. -/
def digit (d : Nat) : UInt8 := UInt8.ofNat (if d < 10 then 48 + d else 87 + d)

/-- The value of a digit; capitals are not digits. -/
def value? (b : UInt8) : Option Nat :=
  if 48 ≤ b.toNat ∧ b.toNat ≤ 57 then some (b.toNat - 48)
  else if 97 ≤ b.toNat ∧ b.toNat ≤ 102 then some (b.toNat - 87)
  else none

theorem toNat_digit {d : Nat} (h : d < 16) :
    (digit d).toNat = if d < 10 then 48 + d else 87 + d := by
  rw [digit, UInt8.toNat_ofNat']
  split <;> omega

/-- A digit is read back as its value. -/
theorem value?_digit {d : Nat} (h : d < 16) : value? (digit d) = some d := by
  rw [value?, toNat_digit h]
  by_cases hd : d < 10
  · rw [if_pos hd, if_pos (by omega)]
    congr 1
    omega
  · rw [if_neg hd, if_neg (by omega), if_pos (by omega)]
    congr 1
    omega

theorem digit_of_value? {b : UInt8} {d : Nat} (h : value? b = some d) : d < 16 ∧ digit d = b := by
  rw [value?] at h
  have hlt : d < 16 ∧ (if d < 10 then 48 + d else 87 + d) = b.toNat := by
    split at h
    · cases h
      constructor
      · omega
      · rw [if_pos (by omega)]
        omega
    · split at h
      · cases h
        constructor
        · omega
        · rw [if_neg (by omega)]
          omega
      · cases h
  refine ⟨hlt.1, ?_⟩
  rw [← UInt8.toNat_inj, toNat_digit hlt.1]
  exact hlt.2

theorem digit_lt (d : Nat) (h : d < 16) : (digit d).toNat < 128 := by
  rw [toNat_digit h]
  split <;> omega

-- ---- Numbers.

/-- The last `n` digits of a number. -/
def encode : Nat → Nat → List UInt8
  | 0, _ => []
  | n + 1, v => encode n (v / 16) ++ [digit (v % 16)]

def decode (bytes : List UInt8) : Option Nat :=
  bytes.foldlM (fun v b => (value? b).map (v * 16 + ·)) 0

@[simp] theorem length_encode (n v : Nat) : (encode n v).length = n := by
  induction n generalizing v with
  | zero => rfl
  | succ n ih => simp [encode, ih]

theorem decode_append_singleton (bytes : List UInt8) (b : UInt8) :
    decode (bytes ++ [b]) = (decode bytes).bind fun v => (value? b).map (v * 16 + ·) := by
  simp [decode, foldlM_append]

/-- **Reading what was written.** -/
theorem decode_encode {n v : Nat} (h : v < 16 ^ n) : decode (encode n v) = some v := by
  induction n generalizing v with
  | zero =>
    have : v = 0 := by simpa using h
    rw [this]
    rfl
  | succ n ih =>
    have hdiv : v / 16 < 16 ^ n := by
      rw [Nat.div_lt_iff_lt_mul (by decide)]
      rwa [pow_succ] at h
    rw [encode, decode_append_singleton, ih hdiv, value?_digit (Nat.mod_lt _ (by decide))]
    simp only [Option.bind_some, Option.map_some]
    congr 1
    omega

/-- **What is read has one spelling.** -/
theorem encode_decode {bytes : List UInt8} {v : Nat} (h : decode bytes = some v) :
    encode bytes.length v = bytes ∧ v < 16 ^ bytes.length := by
  induction bytes using reverseRecOn generalizing v with
  | nil =>
    cases h
    exact ⟨rfl, by decide⟩
  | append_singleton bytes b ih =>
    rw [decode_append_singleton, Option.bind_eq_some_iff] at h
    obtain ⟨w, hw, h⟩ := h
    obtain ⟨d, hd, rfl⟩ := Option.map_eq_some_iff.mp h
    obtain ⟨hlt, hdigit⟩ := digit_of_value? hd
    obtain ⟨hbytes, hbound⟩ := ih hw
    rw [List.length_append, List.length_singleton, encode]
    constructor
    · rw [show (w * 16 + d) / 16 = w by omega, show (w * 16 + d) % 16 = d by omega, hbytes, hdigit]
    · rw [pow_succ]
      omega

theorem encode_ascii (n v : Nat) : ∀ b ∈ encode n v, b.toNat < 128 := by
  induction n generalizing v with
  | zero =>
    intro b hb
    cases hb
  | succ n ih =>
    intro b hb
    rcases mem_append.mp hb with hb | hb
    · exact ih _ b hb
    · rw [mem_singleton.mp hb]
      exact digit_lt _ (Nat.mod_lt _ (by decide))

-- ---- Text.

/-- Bytes below 128 are the text of a string. -/
theorem isValidUTF8_of_ascii {bytes : List UInt8} (h : ∀ b ∈ bytes, b.toNat < 128) :
    bytes.toByteArray.IsValidUTF8 := by
  refine ⟨bytes.map Char.ofUInt8, ?_⟩
  have hbytes : (bytes.map Char.ofUInt8).flatMap String.utf8EncodeChar = bytes := by
    induction bytes with
    | nil => rfl
    | cons b bytes ih =>
      have hb : b.toNat < 128 := h b mem_cons_self
      have hsize : (Char.ofUInt8 b).utf8Size = 1 := by
        rw [Char.utf8Size_eq_one_iff, UInt32.le_iff_toNat_le]
        change b.toUInt32.toNat ≤ 127
        rw [UInt8.toNat_toUInt32]
        omega
      rw [map_cons, flatMap_cons, ih fun x hx => h x (mem_cons_of_mem _ hx),
        String.utf8EncodeChar_eq_singleton hsize]
      change b.toUInt32.toUInt8 :: bytes = b :: bytes
      rw [UInt8.toUInt8_toUInt32]
  rw [utf8Encode, hbytes]

end Xlfn.Lib.Hex
