import Xlfn.Lib.Ascii

/-!
# Xlfn — the parts of a topic

A topic is a list of texts. It is owned, from any sequence of texts, or borrowed, from texts
that stay where they are; both are validated, measured and hashed, and the catalog looks a
borrowed one up among the owned ones. The hash function is a parameter, as is the largest value
of the machine's word.

* `RtdTopic.new`, `BorrowedTopicParts.new` — the code.
* `verdict` — which limit a list violates first, every text counted in full.
-/

namespace Xlfn.Subscription.TopicParts

open Xlfn.Lib Xlfn.Lib.Utf16 List

-- ---- Errors, limits and hashes.

inductive InputError where
  | tooLarge (limit actual : Nat)
  | malformed (reason : String)
deriving DecidableEq

inductive XllError where
  | input (argument : String) (reason : InputError)
deriving DecidableEq

/-- `MAX_RTD_TOPIC_PARTS`. -/
def maxRtdTopicParts : Nat := 253

/-- `MAX_RTD_TOPIC_BYTES`. -/
def maxRtdTopicBytes : Nat := 1024 * 1024

/-- `EXCEL_STRING_LIMIT`. -/
def excelStringLimit : Nat := 32767

/-- A topic that violates a limit. -/
def tooLarge (limit actual : Nat) : XllError := .input "RTD topic" (.tooLarge limit actual)

/-- A topic with an empty part or without any. -/
def emptyPart : XllError := .input "RTD topic" (.malformed "RTD topics require non-empty parts")

/-- The parts of `Hasher` that are used. -/
structure Hasher (H : Type) where
  default    : H
  hashLength : Nat → H → H
  hashStr    : List Char → H → H
  finish     : H → UInt64

structure TopicMetadata where
  byteLen : Nat
  hash    : UInt64
deriving DecidableEq

structure RtdTopic where
  parts   : List (List Char)
  byteLen : Nat
  hash    : UInt64
deriving DecidableEq

structure BorrowedTopicParts where
  parts    : List (List Char)
  metadata : TopicMetadata
deriving DecidableEq

/-- `str::len`. -/
def byteLen (part : List Char) : Nat := (utf8 part).length

variable {H : Type} (hasher : Hasher H) (usizeMax : Nat)

def saturatingAdd (a b : Nat) : Nat := min (a + b) usizeMax

-- ---- The code.

/-- The first pass over the parts, which are counted from `index`. -/
def checkParts : Nat → List (List Char) → Except XllError Unit
  | _, [] => .ok ()
  | index, part :: parts =>
    if maxRtdTopicParts ≤ index then
      .error (tooLarge maxRtdTopicParts (saturatingAdd usizeMax index 1))
    else if byteLen part = 0 then .error emptyPart
    else checkParts (index + 1) parts

/-- The second pass: the sum of the lengths and the hash. -/
def measure : Nat → H → List (List Char) → Except XllError (Nat × H)
  | totalBytes, state, [] => .ok (totalBytes, state)
  | totalBytes, state, part :: parts =>
    if totalBytes + byteLen part ≤ usizeMax then
      measure (totalBytes + byteLen part) (hasher.hashStr part state) parts
    else .error (tooLarge maxRtdTopicBytes usizeMax)

/-- The third pass: the units of a part with few bytes are not counted. -/
def checkUnits : List (List Char) → Except XllError Unit
  | [] => .ok ()
  | part :: parts =>
    if byteLen part ≤ excelStringLimit then checkUnits parts
    else if excelStringLimit < (encode part).length then
      .error (tooLarge excelStringLimit (encode part).length)
    else checkUnits parts

/-- `validate_topic_parts`. -/
def validateTopicParts (parts : List (List Char)) : Except XllError TopicMetadata := do
  if parts.length = 0 then
    .error emptyPart
  else
    checkParts usizeMax 0 parts
    let (totalBytes, state) ←
      measure hasher usizeMax 0 (hasher.hashLength parts.length hasher.default) parts
    if maxRtdTopicBytes < totalBytes then
      .error (tooLarge maxRtdTopicBytes totalBytes)
    else
      checkUnits parts
      .ok ⟨totalBytes, hasher.finish state⟩

/-- The loop of `RtdTopic::new`, which keeps the parts it has taken. -/
def collectParts : List (List Char) → List (List Char) → Except XllError (List (List Char))
  | normalized, [] => .ok normalized
  | normalized, part :: parts =>
    if maxRtdTopicParts ≤ normalized.length then
      .error (tooLarge maxRtdTopicParts (saturatingAdd usizeMax normalized.length 1))
    else if byteLen part = 0 then .error emptyPart
    else collectParts (normalized ++ [part]) parts

/-- `RtdTopic::new`. -/
def RtdTopic.new (parts : List (List Char)) : Except XllError RtdTopic := do
  let normalized ← collectParts usizeMax [] parts
  if normalized.length = 0 then
    .error emptyPart
  else
    let ⟨byteLen, hash⟩ ← validateTopicParts hasher usizeMax normalized
    .ok ⟨normalized, byteLen, hash⟩

/-- `RtdTopic::borrowed`. -/
def RtdTopic.borrowed (topic : RtdTopic) : BorrowedTopicParts :=
  ⟨topic.parts, ⟨topic.byteLen, topic.hash⟩⟩

namespace BorrowedTopicParts

/-- `BorrowedTopicParts::new`. -/
def new (parts : List (List Char)) : Except XllError BorrowedTopicParts := do
  let metadata ← validateTopicParts hasher usizeMax parts
  .ok ⟨parts, metadata⟩

/-- `matches`. -/
def matchesCanonical (borrowed : BorrowedTopicParts) (canonical : RtdTopic) : Bool :=
  borrowed.metadata.hash == canonical.hash && borrowed.parts.length == canonical.parts.length &&
    canonical.parts == borrowed.parts

/-- `into_owned`. -/
def intoOwned (borrowed : BorrowedTopicParts) : RtdTopic :=
  ⟨borrowed.parts, borrowed.metadata.byteLen, borrowed.metadata.hash⟩

end BorrowedTopicParts

-- ---- The verdict.

def totalBytes (parts : List (List Char)) : Nat := (parts.map byteLen).sum

/-- The number of parts and then the parts. -/
def digest (parts : List (List Char)) : UInt64 :=
  hasher.finish (parts.foldl (fun state part => hasher.hashStr part state)
    (hasher.hashLength parts.length hasher.default))

/-- The first limit that a list violates: an empty part among the first 253, the number of
parts, the number of bytes, and the units of the first part that has too many. -/
def verdict (parts : List (List Char)) : Except XllError TopicMetadata :=
  if parts = [] ∨ [] ∈ parts.take maxRtdTopicParts then .error emptyPart
  else if maxRtdTopicParts < parts.length then
    .error (tooLarge maxRtdTopicParts (saturatingAdd usizeMax maxRtdTopicParts 1))
  else if usizeMax < totalBytes parts then .error (tooLarge maxRtdTopicBytes usizeMax)
  else if maxRtdTopicBytes < totalBytes parts then
    .error (tooLarge maxRtdTopicBytes (totalBytes parts))
  else
    match parts.find? fun part => excelStringLimit < Utf16.length part with
    | some part => .error (tooLarge excelStringLimit (Utf16.length part))
    | none => .ok ⟨totalBytes parts, digest hasher parts⟩

-- ---- The passes.

theorem byteLen_eq_zero {part : List Char} : byteLen part = 0 ↔ part = [] := by
  cases part with
  | nil => simp [byteLen, utf8]
  | cons c part =>
    have hpos : 0 < (String.utf8EncodeChar c).length := by
      rw [length_utf8EncodeChar]
      omega
    refine ⟨fun h => ?_, nofun⟩
    rw [byteLen, utf8_cons, length_append] at h
    omega

/-- **The first pass**: an empty part that is looked at wins over the number of parts. -/
theorem checkParts_eq {index : Nat} (hindex : index ≤ maxRtdTopicParts) (parts : List (List Char)) :
    checkParts usizeMax index parts =
      if [] ∈ parts.take (maxRtdTopicParts - index) then .error emptyPart
      else if maxRtdTopicParts < index + parts.length then
        .error (tooLarge maxRtdTopicParts (saturatingAdd usizeMax maxRtdTopicParts 1))
      else .ok () := by
  induction parts generalizing index with
  | nil =>
    rw [checkParts, take_nil, if_neg not_mem_nil, if_neg]
    simpa using hindex
  | cons part parts ih =>
    unfold checkParts
    by_cases hfull : maxRtdTopicParts ≤ index
    · have heq : index = maxRtdTopicParts := Nat.le_antisymm hindex hfull
      rw [if_pos hfull, heq, Nat.sub_self, take_zero, if_neg not_mem_nil, if_pos (by simp)]
    · have hsucc : maxRtdTopicParts - index = (maxRtdTopicParts - (index + 1)) + 1 := by omega
      rw [if_neg hfull, hsucc, take_succ_cons]
      by_cases hempty : part = []
      · rw [if_pos (byteLen_eq_zero.mpr hempty), hempty, if_pos mem_cons_self]
      · rw [if_neg (mt byteLen_eq_zero.mp hempty), ih (by omega), List.length_cons]
        simp only [mem_cons, Ne.symm hempty, false_or, Nat.add_assoc, Nat.add_comm 1]

/-- **The loop of the owned topic** is the first pass. -/
theorem collectParts_eq (normalized parts : List (List Char)) :
    collectParts usizeMax normalized parts =
      (checkParts usizeMax normalized.length parts).map fun _ => normalized ++ parts := by
  induction parts generalizing normalized with
  | nil =>
    rw [append_nil]
    rfl
  | cons part parts ih =>
    unfold collectParts checkParts
    split
    · rfl
    · split
      · rfl
      · rw [ih, length_append, length_singleton, append_assoc, singleton_append]

/-- **The second pass**: it overflows exactly if the sum does. -/
theorem measure_eq {total : Nat} (htotal : total ≤ usizeMax) (state : H)
    (parts : List (List Char)) :
    measure hasher usizeMax total state parts =
      if usizeMax < total + totalBytes parts then .error (tooLarge maxRtdTopicBytes usizeMax)
      else .ok (total + totalBytes parts,
        parts.foldl (fun state part => hasher.hashStr part state) state) := by
  induction parts generalizing total state with
  | nil =>
    rw [measure, totalBytes, map_nil, sum_nil, Nat.add_zero, if_neg (Nat.not_lt.mpr htotal)]
    rfl
  | cons part parts ih =>
    have hsum : totalBytes (part :: parts) = byteLen part + totalBytes parts := by
      rw [totalBytes, map_cons, sum_cons]
      rfl
    unfold measure
    rw [hsum, ← Nat.add_assoc]
    by_cases hfits : total + byteLen part ≤ usizeMax
    · rw [if_pos hfits, ih hfits, foldl_cons]
    · rw [if_neg hfits, if_pos (by omega)]

/-- **The third pass**: a part whose units are not counted has no more of them than bytes. -/
theorem checkUnits_eq (parts : List (List Char)) : checkUnits parts =
      match parts.find? fun part => excelStringLimit < Utf16.length part with
      | some part => .error (tooLarge excelStringLimit (Utf16.length part))
      | none => .ok () := by
  induction parts with
  | nil => rfl
  | cons part parts ih =>
    have hunits : Utf16.length part ≤ byteLen part := length_le_length_utf8 part
    unfold checkUnits
    change (if byteLen part ≤ excelStringLimit then checkUnits parts
      else if excelStringLimit < Utf16.length part then
        .error (tooLarge excelStringLimit (Utf16.length part))
      else checkUnits parts) = _
    by_cases hover : excelStringLimit < Utf16.length part
    · rw [if_neg (by omega), if_pos hover, find?_cons_of_pos (by simpa using hover)]
    · rw [find?_cons_of_neg (by simpa using hover), ← ih, if_neg hover, ite_self]

-- ---- Both topics.

/-- **Validation returns the verdict.** -/
theorem validateTopicParts_eq (parts : List (List Char)) :
    validateTopicParts hasher usizeMax parts = verdict hasher usizeMax parts := by
  unfold validateTopicParts verdict
  by_cases hnil : parts = []
  · rw [hnil]
    rfl
  · have hlength : parts.length ≠ 0 := by
      rwa [Ne, length_eq_zero_iff]
    rw [if_neg hlength, checkParts_eq usizeMax (Nat.zero_le _),
      measure_eq hasher usizeMax (Nat.zero_le _), checkUnits_eq]
    simp only [hnil, false_or, Nat.sub_zero, Nat.zero_add]
    by_cases hempty : [] ∈ parts.take maxRtdTopicParts
    · rw [if_pos hempty, if_pos hempty]
      rfl
    rw [if_neg hempty, if_neg hempty]
    by_cases hcount : maxRtdTopicParts < parts.length
    · rw [if_pos hcount, if_pos hcount]
      rfl
    rw [if_neg hcount, if_neg hcount]
    by_cases hoverflow : usizeMax < totalBytes parts
    · rw [if_pos hoverflow, if_pos hoverflow]
      rfl
    rw [if_neg hoverflow, if_neg hoverflow]
    simp only [bind, Except.bind]
    by_cases hbytes : maxRtdTopicBytes < totalBytes parts
    · rw [if_pos hbytes, if_pos hbytes]
    rw [if_neg hbytes, if_neg hbytes]
    cases parts.find? fun part => excelStringLimit < Utf16.length part <;> rfl

/-- **The owned topic is the borrowed one converted**, or both are refused for one reason. -/
theorem new_eq (parts : List (List Char)) : RtdTopic.new hasher usizeMax parts =
      (BorrowedTopicParts.new hasher usizeMax parts).map BorrowedTopicParts.intoOwned := by
  unfold RtdTopic.new BorrowedTopicParts.new
  rw [collectParts_eq, nil_append, length_nil]
  cases hcheck : checkParts usizeMax 0 parts with
  | error e =>
    -- The list has a part, and validation makes the same pass first.
    have hlength : parts.length ≠ 0 := by
      intro hzero
      rw [length_eq_zero_iff.mp hzero] at hcheck
      cases hcheck
    rw [validateTopicParts, if_neg hlength, hcheck]
    rfl
  | ok _ =>
    change (if parts.length = 0 then _ else _) = _
    by_cases hlength : parts.length = 0
    · rw [if_pos hlength, validateTopicParts, if_pos hlength]
      rfl
    · rw [if_neg hlength]
      cases validateTopicParts hasher usizeMax parts <;> rfl

theorem matchesCanonical_iff {borrowed : BorrowedTopicParts} {canonical : RtdTopic} :
    borrowed.matchesCanonical canonical = true ↔
      borrowed.metadata.hash = canonical.hash ∧ borrowed.parts = canonical.parts := by
  rw [BorrowedTopicParts.matchesCanonical, Bool.and_eq_true, Bool.and_eq_true, beq_iff_eq,
    beq_iff_eq, beq_iff_eq]
  constructor
  · rintro ⟨⟨hhash, -⟩, hparts⟩
    exact ⟨hhash, hparts.symm⟩
  · rintro ⟨hhash, hparts⟩
    exact ⟨⟨hhash, congrArg List.length hparts⟩, hparts.symm⟩

/-- **Owned and borrowed topics agree.** Every list gives the verdict either way, for which every
text is counted in full. A borrowed topic matches an owned one exactly if the lists are equal;
then it has its length and its hash, and is converted into it. -/
theorem topics_agree (hasher : Hasher H) (usizeMax : Nat) :
    (∀ parts, (BorrowedTopicParts.new hasher usizeMax parts).map (·.metadata) =
      verdict hasher usizeMax parts) ∧
    (∀ parts, RtdTopic.new hasher usizeMax parts =
      (BorrowedTopicParts.new hasher usizeMax parts).map BorrowedTopicParts.intoOwned) ∧
    ∀ parts others borrowed owned, BorrowedTopicParts.new hasher usizeMax parts = .ok borrowed →
      RtdTopic.new hasher usizeMax others = .ok owned →
      borrowed.parts = parts ∧ owned.parts = others ∧
      (borrowed.matchesCanonical owned = true ↔ parts = others) ∧
      (parts = others → borrowed.metadata.byteLen = owned.byteLen ∧
        borrowed.metadata.hash = owned.hash ∧ borrowed.intoOwned = owned ∧
        owned.borrowed = borrowed) := by
  refine ⟨fun parts => ?_, new_eq hasher usizeMax, ?_⟩
  · rw [← validateTopicParts_eq, BorrowedTopicParts.new]
    cases validateTopicParts hasher usizeMax parts <;> rfl
  · intro parts others borrowed owned hborrowed howned
    have hparts {list : List (List Char)} {topic : BorrowedTopicParts}
        (h : BorrowedTopicParts.new hasher usizeMax list = .ok topic) : topic.parts = list := by
      unfold BorrowedTopicParts.new at h
      cases hvalid : validateTopicParts hasher usizeMax list with
      | error e =>
        rw [hvalid] at h
        cases h
      | ok metadata =>
        rw [hvalid] at h
        cases h
        rfl
    rw [new_eq] at howned
    cases hother : BorrowedTopicParts.new hasher usizeMax others with
    | error e =>
      rw [hother] at howned
      cases howned
    | ok other =>
      rw [hother] at howned
      cases howned
      have hsame : parts = others → borrowed = other := by
        rintro rfl
        rw [hborrowed] at hother
        cases hother
        rfl
      refine ⟨hparts hborrowed, hparts hother, ?_, ?_⟩
      · rw [matchesCanonical_iff]
        constructor
        · rintro ⟨-, heq⟩
          rw [← hparts hborrowed, ← hparts hother]
          exact heq
        · intro heq
          rw [hsame heq]
          exact ⟨rfl, rfl⟩
      · intro heq
        rw [hsame heq]
        exact ⟨rfl, rfl, rfl, rfl⟩

end Xlfn.Subscription.TopicParts
