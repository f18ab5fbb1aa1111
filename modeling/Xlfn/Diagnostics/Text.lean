import Xlfn.Lib.TextCut

/-!
# Xlfn — bounded diagnostic text

`diagnostics/file.rs`: text of a log record is bounded by a number of bytes, with a suffix where
it was cut. A whole text is cut once; text that is being formatted comes in chunks, and is cut at
the bound when a chunk goes over it and again for the suffix.

* `boundedDiagnosticText`, `BoundedDiagnosticText` — the code; `none` is a panic.
-/

namespace Xlfn.Diagnostics

open Xlfn.Lib.Utf16

/-- `DIAGNOSTIC_TEXT_MAX_BYTES`. -/
def diagnosticTextMaxBytes : Nat := 16 * 1024

/-- `"…[truncated]"`. -/
def diagnosticTruncationSuffix : List Char :=
  ['…', '[', 't', 'r', 'u', 'n', 'c', 'a', 't', 'e', 'd', ']']

/-- Subtraction of a `usize`. -/
def checkedSub (a b : Nat) : Option Nat := if b ≤ a then some (a - b) else none

/-- `bounded_diagnostic_text`. -/
def boundedDiagnosticText (value : List Char) : Option (List Char) :=
  if len value ≤ diagnosticTextMaxBytes then some value
  else
    let prefixLimit := diagnosticTextMaxBytes - len diagnosticTruncationSuffix
    let prefixEnd := boundaryBefore value (min prefixLimit (len value))
    (sliceTo value prefixEnd).map (· ++ diagnosticTruncationSuffix)

structure BoundedDiagnosticText where
  text      : List Char
  truncated : Bool

namespace BoundedDiagnosticText

/-- The `Default` value. -/
def default : BoundedDiagnosticText := ⟨[], false⟩

/-- `write_str`, with whether it succeeded. -/
def writeStr (output : BoundedDiagnosticText) (value : List Char) :
    Option (Bool × BoundedDiagnosticText) := do
  if output.truncated then
    return (false, output)
  let remaining ← checkedSub diagnosticTextMaxBytes (len output.text)
  if len value ≤ remaining then
    return (true, { output with text := output.text ++ value })
  let chunk ← sliceTo value (floorCharBoundary value (min remaining (len value)))
  return (false, ⟨output.text ++ chunk, true⟩)

/-- A formatter that writes its text in chunks, up to the first error. -/
def format : BoundedDiagnosticText → List (List Char) → Option BoundedDiagnosticText
  | output, [] => some output
  | output, chunk :: chunks => do
    let (written, output) ← output.writeStr chunk
    if written then format output chunks else return output

def finish (output : BoundedDiagnosticText) : Option (List Char) := do
  if ¬output.truncated then
    return output.text
  let limit ← checkedSub diagnosticTextMaxBytes (len diagnosticTruncationSuffix)
  let text ← sliceTo output.text
    (floorCharBoundary output.text (min limit (len output.text)))
  return text ++ diagnosticTruncationSuffix

end BoundedDiagnosticText

-- ---- Both cuts.

theorem len_suffix : len diagnosticTruncationSuffix = 14 := by decide

/-- The text as it should be: whole, or its longest prefix that leaves room for the suffix. -/
inductive Bounded (value : List Char) : List Char → Prop
  | whole (h : len value ≤ diagnosticTextMaxBytes) : Bounded value value
  | cut {text : List Char} (h : diagnosticTextMaxBytes < len value)
      (hcut : Longest (diagnosticTextMaxBytes - len diagnosticTruncationSuffix) value text) :
      Bounded value (text ++ diagnosticTruncationSuffix)

theorem Bounded.len_le {value result : List Char} (h : Bounded value result) :
    len result ≤ diagnosticTextMaxBytes := by
  cases h with
  | whole h => exact h
  | cut _ hcut =>
    have hwithin := hcut.within
    rw [len_suffix, diagnosticTextMaxBytes] at hwithin
    rw [len_append, len_suffix, diagnosticTextMaxBytes]
    omega

theorem Bounded.unique {value a b : List Char} (ha : Bounded value a) (hb : Bounded value b) :
    a = b := by
  cases ha with
  | whole h =>
    cases hb with
    | whole => rfl
    | cut h' => exact absurd h (Nat.not_le_of_lt h')
  | cut h hcut =>
    cases hb with
    | whole h' => exact absurd h' (Nat.not_le_of_lt h)
    | cut _ hcut' => rw [hcut.unique hcut']

theorem boundedDiagnosticText_spec (value : List Char) :
    ∃ result, boundedDiagnosticText value = some result ∧ Bounded value result := by
  unfold boundedDiagnosticText
  by_cases hfits : len value ≤ diagnosticTextMaxBytes
  · exact ⟨value, if_pos hfits, .whole hfits⟩
  · have hlong := Nat.lt_of_not_le hfits
    rw [if_neg hfits]
    dsimp only
    rw [Nat.min_eq_left (Nat.le_trans (Nat.sub_le _ _) (Nat.le_of_lt hlong))]
    obtain ⟨text, hslice, hcut⟩ := boundaryBefore_spec value
      (diagnosticTextMaxBytes - len diagnosticTruncationSuffix)
    exact ⟨text ++ diagnosticTruncationSuffix, by rw [hslice]; rfl, .cut hlong hcut⟩

namespace BoundedDiagnosticText

/-- What was written so far: all of it, or the longest prefix of whatever is to come. -/
inductive Written : List Char → BoundedDiagnosticText → Prop
  | all {text : List Char} (h : len text ≤ diagnosticTextMaxBytes) : Written text ⟨text, false⟩
  | cut {value text : List Char} (h : diagnosticTextMaxBytes < len value)
      (hcut : Longest diagnosticTextMaxBytes value text) : Written value ⟨text, true⟩

theorem finish_spec {value : List Char} {output : BoundedDiagnosticText}
    (h : Written value output) : ∃ result, output.finish = some result ∧ Bounded value result := by
  cases h with
  | all h => exact ⟨value, rfl, .whole h⟩
  | @cut text h hcut =>
    have hlimit : checkedSub diagnosticTextMaxBytes (len diagnosticTruncationSuffix) =
        some (diagnosticTextMaxBytes - len diagnosticTruncationSuffix) :=
      if_pos (by rw [len_suffix]; decide)
    obtain ⟨kept, hslice, hkept⟩ := floorCharBoundary_spec text
      (min (diagnosticTextMaxBytes - len diagnosticTruncationSuffix) (len text))
    refine ⟨kept ++ diagnosticTruncationSuffix, ?_, .cut h ?_⟩
    · simp [finish, hlimit, hslice]
    · refine hcut.trans (Nat.sub_le _ _) ⟨hkept.isPrefix, ?_, fun q hq hle => ?_⟩
      · exact Nat.le_trans hkept.within (Nat.min_le_left _ _)
      · exact hkept.longest q hq (Nat.le_min.mpr ⟨hle, len_le_of_prefix hq⟩)

/-- **A formatter leaves what it should**, whatever chunks it writes. -/
theorem format_spec (chunks : List (List Char)) : ∀ text, len text ≤ diagnosticTextMaxBytes →
      ∃ output, format ⟨text, false⟩ chunks = some output ∧
        Written (text ++ chunks.flatten) output := by
  induction chunks with
  | nil =>
    intro text h
    exact ⟨⟨text, false⟩, rfl, by rw [List.flatten_nil, List.append_nil]; exact .all h⟩
  | cons chunk chunks ih =>
    intro text h
    have hremaining : checkedSub diagnosticTextMaxBytes (len text) =
        some (diagnosticTextMaxBytes - len text) := if_pos h
    by_cases hfits : len chunk ≤ diagnosticTextMaxBytes - len text
    · have htext : len (text ++ chunk) ≤ diagnosticTextMaxBytes := by
        rw [len_append]
        omega
      obtain ⟨output, hformat, hwritten⟩ := ih _ htext
      rw [List.append_assoc] at hwritten
      exact ⟨output, by simp [format, writeStr, hremaining, hfits, hformat], hwritten⟩
    · have hlong := Nat.lt_of_not_le hfits
      obtain ⟨kept, hslice, hkept⟩ := floorCharBoundary_spec chunk
        (min (diagnosticTextMaxBytes - len text) (len chunk))
      rw [Nat.min_eq_left (Nat.le_of_lt hlong)] at hslice hkept
      refine ⟨⟨text ++ kept, true⟩, ?_, .cut ?_ ?_⟩
      · simp [format, writeStr, hremaining, hfits, hslice, Nat.min_eq_left (Nat.le_of_lt hlong)]
      · rw [List.flatten_cons, len_append, len_append]
        omega
      · have hcut := hkept.extend text chunks.flatten hlong
        rwa [Nat.add_sub_cancel' h] at hcut

end BoundedDiagnosticText

open BoundedDiagnosticText in
/-- **Bounded text does not depend on the chunks.** However a text is split into writes, what is
formatted is what bounding the whole text gives, without a panic: the text if it is within the
bound, and otherwise its longest prefix that leaves room for the suffix, and the suffix. -/
theorem bounded_text_of_chunks (chunks : List (List Char)) :
    ∃ result, (format .default chunks).bind finish = some result ∧
      boundedDiagnosticText chunks.flatten = some result ∧
      len result ≤ diagnosticTextMaxBytes ∧
      (len chunks.flatten ≤ diagnosticTextMaxBytes → result = chunks.flatten) ∧
      (diagnosticTextMaxBytes < len chunks.flatten → ∃ text,
        result = text ++ diagnosticTruncationSuffix ∧ Longest
          (diagnosticTextMaxBytes - len diagnosticTruncationSuffix) chunks.flatten text) := by
  obtain ⟨output, hformat, hwritten⟩ := format_spec chunks [] (Nat.zero_le _)
  obtain ⟨result, hfinish, hresult⟩ := finish_spec hwritten
  obtain ⟨whole, hwhole, hbounded⟩ := boundedDiagnosticText_spec chunks.flatten
  obtain rfl := hbounded.unique hresult
  refine ⟨whole, ?_, hwhole, hbounded.len_le, ?_, ?_⟩
  · show (format ⟨[], false⟩ chunks).bind finish = some whole
    rw [hformat]
    exact hfinish
  · exact fun h => hbounded.unique (.whole h)
  · intro h
    cases hbounded with
    | whole h' => exact absurd h' (Nat.not_le_of_lt h)
    | cut _ hcut => exact ⟨_, rfl, hcut⟩

end Xlfn.Diagnostics
