import Mathlib.Algebra.GroupWithZero.Nat
import Mathlib.Data.Finset.Card
import Mathlib.Order.Interval.Finset.Nat

/-!
# Xlfn — the diagnostic history

A history numbers the attempts to record a failure and keeps some of them in a ring. A reader asks
for pages: a page has records and the count of the numbers that were passed over.

* `Retained` — what holds of the ring.
* `Reader.Exact` — a reader has each number once, as a record or as missed.
-/

namespace Xlfn.Diagnostics

open List

-- ---- The code.

structure HistoryLimits where
  maxRecords : Nat
  maxBytes   : Nat
  /-- `size_of::<StoredRecord>()`, a record of several fields. -/
  recordSize : Nat
  recordPos  : 0 < recordSize

/-- A record that `make_record` returns, with the capacity of its text. -/
structure Prepared (α : Type) where
  payload      : α
  dynamicBytes : Nat

structure StoredRecord (α : Type) where
  sequence : Nat
  prepared : Prepared α

structure HistoryState (α : Type) where
  records       : List (StoredRecord α)
  capacity      : Nat
  nextSequence  : Nat
  dynamicBytes  : Nat
  droppedEvents : Nat

structure DiagnosticPage (α : Type) where
  errors           : List (StoredRecord α)
  nextCursor       : Nat
  missedEvents     : Nat
  allocationFailed : Bool

variable {α : Type} {limits : HistoryLimits}

def maxSequence : Nat := 2 ^ 64 - 1

/-- `u64::saturating_add`. -/
def saturatingAdd (a b : Nat) : Nat := min (a + b) maxSequence

namespace HistoryState

/-- `HistoryState::new`. -/
def new : HistoryState α := ⟨[], 0, 1, 0, 0⟩

section

variable (state : HistoryState α)

def retainedBytes (limits : HistoryLimits) : Nat :=
  state.capacity * limits.recordSize + state.dynamicBytes

def drop : HistoryState α :=
  { state with droppedEvents := saturatingAdd state.droppedEvents 1 }

/-- What `evict_oldest` does beside taking the oldest record off. -/
def evictOldest (oldest : StoredRecord α) : HistoryState α :=
  { state.drop with dynamicBytes := state.dynamicBytes - oldest.prepared.dynamicBytes }

def withRecords (records : List (StoredRecord α)) : HistoryState α :=
  { state with records := records }

/-- The condition of the eviction loop. -/
def Full (limits : HistoryLimits) (bytes : Nat) : Prop :=
  limits.maxRecords ≤ state.records.length ∨ state.capacity ≤ state.records.length ∨
    limits.maxBytes - state.retainedBytes limits < bytes

end

instance (state : HistoryState α) (bytes : Nat) : Decidable (state.Full limits bytes) :=
  inferInstanceAs (Decidable (_ ∨ _ ∨ _))

/-- The eviction loop, by what is left in the ring: `none` where it does not end, or takes off more
bytes than there are. -/
def makeRoom (limits : HistoryLimits) (bytes : Nat) :
    List (StoredRecord α) → HistoryState α → Option (HistoryState α)
  | [], state =>
    if (state.withRecords []).Full limits bytes then none else some (state.withRecords [])
  | oldest :: records, state =>
    if (state.withRecords (oldest :: records)).Full limits bytes then
      if state.dynamicBytes < oldest.prepared.dynamicBytes then none
      else makeRoom limits bytes records (state.evictOldest oldest)
    else some (state.withRecords (oldest :: records))

/-- The ring is allocated once; `reserve` is what the allocator gives beyond the slots asked for,
or `none` where it fails. -/
def allocateRing (state : HistoryState α) (limits : HistoryLimits) (reserve : Option Nat) :
    Option (HistoryState α) :=
  if state.capacity = 0 then
    let slots := min limits.maxRecords (limits.maxBytes / limits.recordSize)
    if slots = 0 then none else reserve.map fun excess => { state with capacity := slots + excess }
  else some state

/-- `DiagnosticHistory::record`, of what `make_record` returned. -/
def record (state : HistoryState α) (limits : HistoryLimits) (prepared : Option (Prepared α))
    (reserve : Option Nat) : Option (HistoryState α) :=
  let sequence := state.nextSequence
  let state := { state with nextSequence := saturatingAdd sequence 1 }
  match prepared with
  | none => some state.drop
  | some prepared =>
    match state.allocateRing limits reserve with
    | none => some state.drop
    | some state =>
      let fixedBytes := state.capacity * limits.recordSize
      if limits.maxBytes < fixedBytes then some { state.drop with records := [], capacity := 0 }
      else if limits.maxBytes - fixedBytes < prepared.dynamicBytes then some state.drop
      else
        (makeRoom limits prepared.dynamicBytes state.records state).map fun state =>
          { state with
            dynamicBytes := state.dynamicBytes + prepared.dynamicBytes
            records := state.records ++ [⟨sequence, prepared⟩] }

/-- The loop of `errors_since`; `copies` says which records can be copied. -/
def collect (latest limit : Nat) (copies : StoredRecord α → Bool) :
    List (StoredRecord α) → DiagnosticPage α → DiagnosticPage α
  | [], page =>
    { page with
      missedEvents := saturatingAdd page.missedEvents (latest - page.nextCursor)
      nextCursor := max latest page.nextCursor }
  | stored :: records, page =>
    if page.errors.length = limit then page
    else if copies stored then
      collect latest limit copies records
        { page with
          missedEvents := saturatingAdd page.missedEvents (stored.sequence - page.nextCursor - 1)
          nextCursor := stored.sequence
          errors := page.errors ++ [stored] }
    else { page with allocationFailed := true }

/-- `DiagnosticHistory::errors_since`. -/
def errorsSince (state : HistoryState α) (cursor limit : Nat) (copies : StoredRecord α → Bool) :
    DiagnosticPage α :=
  let page := ⟨[], cursor, 0, false⟩
  if limit = 0 then page
  else collect (state.nextSequence - 1) limit copies
    (state.records.filter fun stored => cursor < stored.sequence) page

end HistoryState

-- ---- The ring.

def charged (records : List (StoredRecord α)) : Nat :=
  (records.map fun stored => stored.prepared.dynamicBytes).sum

/-- **The ring.** Its records are attempts in their order, within the limits, and all bytes of them
are charged. -/
structure Retained (limits : HistoryLimits) (attempts : List (Option (Prepared α)))
    (state : HistoryState α) : Prop where
  counted   : state.nextSequence = attempts.length + 1
  bounded   : state.nextSequence ≤ maxSequence
  ascending : state.records.Pairwise fun a b => a.sequence < b.sequence
  recorded  : ∀ stored ∈ state.records, 0 < stored.sequence ∧
    attempts[stored.sequence - 1]? = some (some stored.prepared)
  records   : state.records.length ≤ limits.maxRecords
  bytes     : state.retainedBytes limits ≤ limits.maxBytes
  charged   : state.dynamicBytes = charged state.records
  empty     : state.capacity = 0 → state.records = []
  allocated : 0 < state.capacity → 0 < limits.maxRecords

section Ring

variable {attempts : List (Option (Prepared α))} {state next : HistoryState α}

theorem Retained.sequence_le (h : Retained limits attempts state) :
    ∀ stored ∈ state.records, stored.sequence < state.nextSequence := by
  intro stored hstored
  obtain ⟨hpos, hattempt⟩ := h.recorded stored hstored
  have hlt := (List.getElem?_eq_some_iff.1 hattempt).1
  have := h.counted
  omega

/-- The loop drops some of the oldest records with their bytes, and ends at the latest when the
ring is empty. -/
theorem makeRoom_some {bytes : Nat} (hrecords : 0 < limits.maxRecords)
    {records : List (StoredRecord α)} (hcapacity : 0 < state.capacity)
    (hbytes : bytes ≤ limits.maxBytes - state.capacity * limits.recordSize)
    (hcharged : state.dynamicBytes = charged records) :
    ∃ next, HistoryState.makeRoom limits bytes records state = some next ∧
      ¬next.Full limits bytes ∧ next.records <:+ records ∧
      next.dynamicBytes = charged next.records ∧ next.dynamicBytes ≤ state.dynamicBytes ∧
      next.capacity = state.capacity ∧ next.nextSequence = state.nextSequence := by
  induction records generalizing state with
  | nil =>
    have hroom : ¬(state.withRecords []).Full limits bytes := by
      simp only [charged, map_nil, sum_nil] at hcharged
      simp only [HistoryState.Full, HistoryState.retainedBytes, HistoryState.withRecords,
        length_nil, hcharged]
      omega
    exact ⟨_, if_neg hroom, hroom, suffix_rfl, hcharged, Nat.le_refl _, rfl, rfl⟩
  | cons oldest records ih =>
    rw [HistoryState.makeRoom]
    split
    · next hfull =>
      simp only [charged, List.map_cons, List.sum_cons] at hcharged
      rw [if_neg (by omega)]
      have hpos : 0 < (state.evictOldest oldest).capacity := hcapacity
      have hrest : (state.evictOldest oldest).dynamicBytes = charged records := by
        simp only [HistoryState.evictOldest, charged]
        omega
      obtain ⟨next, hnext, hroom, hsuffix, hsum, hless, hkept⟩ := ih hpos hbytes hrest
      exact ⟨next, hnext, hroom, hsuffix.trans (suffix_cons _ _), hsum,
        hless.trans (Nat.sub_le _ _), hkept⟩
    · next hroom => exact ⟨_, rfl, hroom, suffix_rfl, hcharged, Nat.le_refl _, rfl, rfl⟩

theorem allocateRing_some {reserve : Option Nat} {ring : HistoryState α}
    (h : state.allocateRing limits reserve = some ring) :
    state.capacity ≠ 0 ∧ ring = state ∨
      state.capacity = 0 ∧ 0 < limits.maxRecords ∧
        ∃ capacity, 0 < capacity ∧ ring = { state with capacity := capacity } := by
  unfold HistoryState.allocateRing at h
  split at h
  · next hzero =>
    dsimp only at h
    split at h
    · cases h
    · next hslots =>
      obtain ⟨excess, -, rfl⟩ := Option.map_eq_some_iff.1 h
      have hpos := Nat.pos_of_ne_zero hslots
      exact .inr ⟨hzero, (lt_min_iff.1 hpos).1, _, Nat.add_pos_left hpos _, rfl⟩
  · next hne => exact .inl ⟨hne, (Option.some.inj h).symm⟩

/-- Nothing new in the ring; some of the oldest may be gone. -/
theorem Retained.attempt (h : Retained limits attempts state) (o : Option (Prepared α))
    (hbound : state.nextSequence < maxSequence) (hseq : next.nextSequence = state.nextSequence + 1)
    (hrecords : next.records <:+ state.records)
    (hbytes : next.retainedBytes limits ≤ limits.maxBytes)
    (hcharged : next.dynamicBytes = Diagnostics.charged next.records)
    (hempty : next.capacity = 0 → next.records = [])
    (hallocated : 0 < next.capacity → 0 < limits.maxRecords) :
    Retained limits (attempts ++ [o]) next where
  counted   := by rw [hseq, h.counted, length_append]; rfl
  bounded   := by omega
  ascending := h.ascending.sublist hrecords.sublist
  recorded stored hstored := by
    obtain ⟨hpos, hat⟩ := h.recorded stored (hrecords.subset hstored)
    exact ⟨hpos, by rw [getElem?_append_left (List.getElem?_eq_some_iff.1 hat).1, hat]⟩
  records   := hrecords.length_le.trans h.records
  bytes     := hbytes
  charged   := hcharged
  empty     := hempty
  allocated := hallocated

/-- **One attempt.** The loop ends, and the ring is as it should be again. -/
theorem Retained.record (h : Retained limits attempts state)
    (hbound : state.nextSequence < maxSequence) (prepared : Option (Prepared α))
    (reserve : Option Nat) :
    ∃ next, state.record limits prepared reserve = some next ∧
      Retained limits (attempts ++ [prepared]) next := by
  have hsat : saturatingAdd state.nextSequence 1 = state.nextSequence + 1 := by
    rw [saturatingAdd]
    omega
  have hdropped : ∀ o, Retained limits (attempts ++ [o])
      ({ state with nextSequence := saturatingAdd state.nextSequence 1 } : HistoryState α).drop :=
    fun o => h.attempt o hbound hsat suffix_rfl h.bytes h.charged h.empty h.allocated
  unfold HistoryState.record
  cases prepared with
  | none => exact ⟨_, rfl, hdropped none⟩
  | some prepared =>
    dsimp only
    split
    · exact ⟨_, rfl, hdropped _⟩
    next ring hring =>
    -- The ring that was there and fits, or one that has just been allocated and is empty.
    obtain ⟨hseq, hrecords, hbytes, hpos, hmax, hkind⟩ :
        ring.nextSequence = state.nextSequence + 1 ∧ ring.records = state.records ∧
        ring.dynamicBytes = state.dynamicBytes ∧ 0 < ring.capacity ∧ 0 < limits.maxRecords ∧
        (ring.retainedBytes limits ≤ limits.maxBytes ∨ state.records = []) := by
      obtain ⟨hne, rfl⟩ | ⟨hzero, hmax, capacity, hpos, rfl⟩ := allocateRing_some hring
      · have hpos := Nat.pos_of_ne_zero hne
        exact ⟨hsat, rfl, rfl, hpos, h.allocated hpos, .inl h.bytes⟩
      · exact ⟨hsat, rfl, rfl, hpos, hmax, .inr (h.empty hzero)⟩
    have hcharged : ring.dynamicBytes = Diagnostics.charged ring.records := by
      rw [hbytes, h.charged, hrecords]
    have hnone : state.records = [] → ring.dynamicBytes = 0 := by
      intro hnil
      rw [hcharged, hrecords, hnil]
      rfl
    split
    · next hfixed =>
      -- Only a ring that has just been allocated is too large.
      have hnil : state.records = [] := by
        refine hkind.resolve_left ?_
        simp only [HistoryState.retainedBytes]
        omega
      refine ⟨_, rfl, h.attempt _ hbound hseq (nil_suffix) ?_ (hnone hnil) (fun _ => rfl) ?_⟩
      · simp [HistoryState.retainedBytes, HistoryState.drop, hnone hnil]
      · exact fun hlt => absurd hlt (Nat.lt_irrefl 0)
    next hfixed =>
    have hfits : ring.retainedBytes limits ≤ limits.maxBytes := by
      refine hkind.elim id fun hnil => ?_
      rw [HistoryState.retainedBytes, hnone hnil]
      omega
    split
    · exact ⟨_, rfl, h.attempt _ hbound hseq (hrecords ▸ suffix_rfl) hfits hcharged
        (fun hzero => absurd hzero (by simp only [HistoryState.drop]; omega)) (fun _ => hmax)⟩
    next hroom =>
    obtain ⟨room, hmade, hopen, hsuffix, hsum, hless, hcapacity, hnext⟩ :=
      makeRoom_some hmax hpos (Nat.le_of_not_lt hroom) hcharged
    rw [hmade]
    have hkept : Retained limits (attempts ++ [some prepared]) room := by
      refine h.attempt _ hbound (hnext.trans hseq) (hrecords ▸ hsuffix) ?_ hsum
        (fun hzero => absurd hzero (by omega)) (fun _ => hmax)
      simp only [HistoryState.retainedBytes, hcapacity] at hfits ⊢
      omega
    simp only [HistoryState.Full, not_or, not_le, not_lt] at hopen
    refine ⟨_, rfl, hkept.counted, hkept.bounded, ?_, ?_, ?_, ?_, ?_,
      fun hzero => absurd hzero (by simp only; omega), fun _ => hmax⟩
    · refine pairwise_append.2 ⟨hkept.ascending, pairwise_singleton _ _, ?_⟩
      intro a ha b hb
      rw [List.mem_singleton.1 hb]
      exact h.sequence_le a (hrecords ▸ hsuffix.subset ha)
    · intro stored hstored
      obtain hold | hstored := mem_append.1 hstored
      · exact hkept.recorded stored hold
      · rw [List.mem_singleton.1 hstored]
        have := h.counted
        refine ⟨by simp only; omega, ?_⟩
        rw [getElem?_append_right (by simp only; omega)]
        simp [this]
    · simp only [length_append, length_singleton]
      omega
    · have := hkept.bytes
      simp only [HistoryState.retainedBytes] at this hopen ⊢
      omega
    · simp [Diagnostics.charged, hsum]

end Ring

-- ---- The readers.

/-- One who follows the cursors of the pages, with all that was in them. -/
structure Reader (α : Type) where
  start    : Nat
  cursor   : Nat
  returned : List (StoredRecord α)
  missed   : Nat

def Reader.advance (reader : Reader α) (page : DiagnosticPage α) : Reader α :=
  { reader with
    cursor   := page.nextCursor
    returned := reader.returned ++ page.errors
    missed   := reader.missed + page.missedEvents }

/-- **A reader.** Between its start and its cursor it was given attempts as they were recorded, each
once and in order, and the count of the others. -/
structure Reader.Exact (attempts : List (Option (Prepared α))) (reader : Reader α) : Prop where
  within    : reader.start ≤ reader.cursor ∧ reader.cursor ≤ attempts.length
  ascending : reader.returned.Pairwise fun a b => a.sequence < b.sequence
  recorded  : ∀ stored ∈ reader.returned,
    reader.start < stored.sequence ∧ stored.sequence ≤ reader.cursor ∧
      attempts[stored.sequence - 1]? = some (some stored.prepared)
  count     : reader.returned.length + reader.missed = reader.cursor - reader.start

/-- A reader of one page. -/
def DiagnosticPage.reader (cursor : Nat) (page : DiagnosticPage α) : Reader α :=
  ⟨cursor, page.nextCursor, page.errors, page.missedEvents⟩

section Readers

variable {attempts : List (Option (Prepared α))} {reader : Reader α} {state : HistoryState α}

/-- What is counted as missed are the numbers passed over that were not returned. -/
theorem Reader.Exact.missed_eq (h : reader.Exact attempts) :
    reader.missed = (Finset.Ioc reader.start reader.cursor \
      (reader.returned.map StoredRecord.sequence).toFinset).card := by
  have hsub : (reader.returned.map StoredRecord.sequence).toFinset ⊆
      Finset.Ioc reader.start reader.cursor := by
    intro n hn
    obtain ⟨stored, hstored, rfl⟩ := List.mem_map.1 (mem_toFinset.1 hn)
    obtain ⟨hstart, hcursor, -⟩ := h.recorded stored hstored
    exact Finset.mem_Ioc.2 ⟨hstart, hcursor⟩
  have hnodup : (reader.returned.map StoredRecord.sequence).Nodup :=
    (pairwise_map.2 h.ascending).imp Nat.ne_of_lt
  have hsum := Finset.card_sdiff_add_card_eq_card hsub
  rw [toFinset_card_of_nodup hnodup, length_map, Nat.card_Ioc] at hsum
  have := h.count
  omega

theorem Reader.Exact.attempt (h : reader.Exact attempts) (o : Option (Prepared α)) :
    reader.Exact (attempts ++ [o]) where
  within    := ⟨h.within.1, by have := h.within.2; rw [length_append]; omega⟩
  ascending := h.ascending
  recorded stored hstored := by
    obtain ⟨hstart, hcursor, hat⟩ := h.recorded stored hstored
    refine ⟨hstart, hcursor, ?_⟩
    rw [getElem?_append_left (List.getElem?_eq_some_iff.1 hat).1, hat]
  count     := h.count

theorem Reader.Exact.advance (h : reader.Exact attempts) {page : DiagnosticPage α}
    (hpage : (page.reader reader.cursor).Exact attempts) :
    (reader.advance page).Exact attempts where
  within    := ⟨h.within.1.trans hpage.within.1, hpage.within.2⟩
  ascending := by
    refine pairwise_append.2 ⟨h.ascending, hpage.ascending, fun a ha b hb => ?_⟩
    exact (h.recorded a ha).2.1.trans_lt (hpage.recorded b hb).1
  recorded stored hstored := by
    obtain hold | hnew := mem_append.1 hstored
    · obtain ⟨hstart, hcursor, hat⟩ := h.recorded stored hold
      exact ⟨hstart, hcursor.trans hpage.within.1, hat⟩
    · obtain ⟨hstart, hcursor, hat⟩ := hpage.recorded stored hnew
      exact ⟨h.within.1.trans_lt hstart, hcursor, hat⟩
  count     := by
    have hold := h.count
    have hnew := hpage.count
    have := h.within.1
    have := hpage.within.1
    simp only [DiagnosticPage.reader, Reader.advance, length_append] at *
    omega

/-- The loop over records that come after the page: what it leaves out comes after its cursor. -/
theorem collect_exact (limit : Nat) (copies : StoredRecord α → Bool) {cursor : Nat}
    (hbound : attempts.length ≤ maxSequence) {records : List (StoredRecord α)}
    {page : DiagnosticPage α} (hascending : records.Pairwise fun a b => a.sequence < b.sequence)
    (hafter : ∀ stored ∈ records, page.nextCursor < stored.sequence ∧
      attempts[stored.sequence - 1]? = some (some stored.prepared))
    (hpage : (page.reader cursor).Exact attempts) :
    ((HistoryState.collect attempts.length limit copies records page).reader cursor).Exact
      attempts ∧
    ∀ stored, stored ∈ page.errors ∨ stored ∈ records ∧ stored.sequence ≤
        (HistoryState.collect attempts.length limit copies records page).nextCursor →
      stored ∈ (HistoryState.collect attempts.length limit copies records page).errors := by
  have hwithin := hpage.within
  have hcount := hpage.count
  simp only [DiagnosticPage.reader] at hwithin hcount
  induction records generalizing page with
  | nil =>
    have hsat : saturatingAdd page.missedEvents (attempts.length - page.nextCursor) =
        page.missedEvents + (attempts.length - page.nextCursor) := by
      rw [saturatingAdd]
      omega
    have hlatest : max attempts.length page.nextCursor = attempts.length := by omega
    rw [HistoryState.collect, hsat, hlatest]
    refine ⟨⟨⟨hwithin.1.trans hwithin.2, Nat.le_refl _⟩, hpage.ascending, fun stored hstored => ?_,
      ?_⟩, fun stored hstored => ?_⟩
    · obtain ⟨hstart, hcursor, hat⟩ := hpage.recorded stored hstored
      exact ⟨hstart, hcursor.trans hwithin.2, hat⟩
    · simp only [DiagnosticPage.reader]
      omega
    · exact hstored.elim id fun h => absurd h.1 not_mem_nil
  | cons stored records ih =>
    obtain ⟨hfirst, hrest⟩ := List.pairwise_cons.1 hascending
    obtain ⟨hlater, hat⟩ := hafter stored List.mem_cons_self
    have hcut : ∀ other, other ∈ page.errors ∨ other ∈ stored :: records ∧
        other.sequence ≤ page.nextCursor → other ∈ page.errors := by
      rintro other (hold | ⟨hnew, hle⟩)
      · exact hold
      · exact absurd (hafter other hnew).1 (Nat.not_lt.2 hle)
    rw [HistoryState.collect]
    split
    · exact ⟨hpage, hcut⟩
    split
    · have hlt := (List.getElem?_eq_some_iff.1 hat).1
      have hsat : saturatingAdd page.missedEvents (stored.sequence - page.nextCursor - 1) =
          page.missedEvents + (stored.sequence - page.nextCursor - 1) := by
        rw [saturatingAdd]
        omega
      have hnext : (DiagnosticPage.reader cursor
          { page with
            missedEvents := saturatingAdd page.missedEvents (stored.sequence - page.nextCursor - 1)
            nextCursor := stored.sequence
            errors := page.errors ++ [stored] }).Exact attempts := by
        refine ⟨?_, ?_, ?_, ?_⟩ <;> simp only [DiagnosticPage.reader]
        · omega
        · refine pairwise_append.2 ⟨hpage.ascending, pairwise_singleton _ _, ?_⟩
          intro a ha b hb
          rw [List.mem_singleton.1 hb]
          exact (hpage.recorded a ha).2.1.trans_lt hlater
        · intro other hother
          obtain hold | hother := mem_append.1 hother
          · obtain ⟨hstart, hcursor, hold⟩ := hpage.recorded other hold
            exact ⟨hstart, hcursor.trans hlater.le, hold⟩
          · rw [List.mem_singleton.1 hother]
            exact ⟨hwithin.1.trans_lt hlater, Nat.le_refl _, hat⟩
        · rw [hsat, length_append, length_singleton]
          omega
      obtain ⟨hexact, hall⟩ := ih hrest
        (fun other hother => ⟨hfirst other hother, (hafter other (.tail _ hother)).2⟩) hnext
        hnext.within hnext.count
      refine ⟨hexact, fun other hother => hall other ?_⟩
      obtain hold | ⟨hnew, hle⟩ := hother
      · exact .inl (mem_append_left _ hold)
      · obtain rfl | hnew := List.mem_cons.1 hnew
        · exact .inl (mem_append_right _ List.mem_cons_self)
        · exact .inr ⟨hnew, hle⟩
    · exact ⟨hpage, hcut⟩

/-- **One page.** It is exact, and misses nothing that is in the ring. -/
theorem Retained.errorsSince (h : Retained limits attempts state) {cursor : Nat}
    (hcursor : cursor ≤ attempts.length) (limit : Nat) (copies : StoredRecord α → Bool) :
    ((state.errorsSince cursor limit copies).reader cursor).Exact attempts ∧
    ∀ stored ∈ state.records, cursor < stored.sequence →
      stored.sequence ≤ (state.errorsSince cursor limit copies).nextCursor →
      stored ∈ (state.errorsSince cursor limit copies).errors := by
  have hempty : (DiagnosticPage.reader (α := α) cursor ⟨[], cursor, 0, false⟩).Exact attempts :=
    ⟨⟨Nat.le_refl _, hcursor⟩, List.Pairwise.nil, by simp [DiagnosticPage.reader],
      by simp [DiagnosticPage.reader]⟩
  have hbound := h.bounded
  have hlatest : state.nextSequence - 1 = attempts.length := by rw [h.counted]; rfl
  unfold HistoryState.errorsSince
  dsimp only
  split
  · exact ⟨hempty, fun stored _ hlt hle => absurd hle (Nat.not_le.2 hlt)⟩
  rw [hlatest]
  obtain ⟨hexact, hall⟩ := collect_exact limit copies (by omega)
    (h.ascending.sublist filter_sublist) (fun stored hstored => by
      obtain ⟨hmem, hlt⟩ := List.mem_filter.1 hstored
      exact ⟨of_decide_eq_true hlt, (h.recorded stored hmem).2⟩) hempty
  exact ⟨hexact, fun stored hmem hlt hle =>
    hall stored (.inr ⟨List.mem_filter.2 ⟨hmem, decide_eq_true hlt⟩, hle⟩)⟩

end Readers

-- ---- The runs.

/-- A history with what was tried, its readers, and the cursors it gave out. -/
structure Run (α : Type) where
  state    : HistoryState α
  attempts : List (Option (Prepared α))
  readers  : List (Reader α)
  issued   : List Nat

def Run.start : Run α := ⟨.new, [], [], [0]⟩

inductive Step (limits : HistoryLimits) (run : Run α) : Run α → Prop where
  /-- An attempt, while there are numbers left. -/
  | record (prepared : Option (Prepared α)) (reserve : Option Nat) (next : HistoryState α)
      (hbound : run.state.nextSequence < maxSequence)
      (hrecord : run.state.record limits prepared reserve = some next) :
      Step limits run { run with state := next, attempts := run.attempts ++ [prepared] }
  | follow (cursor : Nat) (hissued : cursor ∈ run.issued) :
      Step limits run { run with readers := run.readers ++ [⟨cursor, cursor, [], 0⟩] }
  | nextPage (i : Nat) (reader : Reader α) (hreader : run.readers[i]? = some reader) (limit : Nat)
      (copies : StoredRecord α → Bool) :
      Step limits run
        { run with
          readers := run.readers.set i
            (reader.advance (run.state.errorsSince reader.cursor limit copies))
          issued := (run.state.errorsSince reader.cursor limit copies).nextCursor :: run.issued }

inductive Reachable (limits : HistoryLimits) : Run α → Prop where
  | start : Reachable limits .start
  | step {run next : Run α} (h : Reachable limits run) (hstep : Step limits run next) :
      Reachable limits next

structure Run.Inv (limits : HistoryLimits) (run : Run α) : Prop where
  retained : Retained limits run.attempts run.state
  readers  : ∀ reader ∈ run.readers, reader.Exact run.attempts
  issued   : ∀ cursor ∈ run.issued, cursor ≤ run.attempts.length

variable {run next : Run α}

theorem Run.Inv.step (h : run.Inv limits) (hstep : Step limits run next) : next.Inv limits := by
  cases hstep with
  | record prepared reserve state hbound hrecord =>
    obtain ⟨state', hstate, hretained⟩ := h.retained.record hbound prepared reserve
    cases hrecord.symm.trans hstate
    exact ⟨hretained, fun reader hreader => (h.readers reader hreader).attempt _,
      fun cursor hcursor => (h.issued cursor hcursor).trans (by simp)⟩
  | follow cursor hissued =>
    refine ⟨h.retained, fun reader hreader => ?_, h.issued⟩
    obtain hold | hnew := mem_append.1 hreader
    · exact h.readers reader hold
    · rw [List.mem_singleton.1 hnew]
      exact ⟨⟨Nat.le_refl _, h.issued cursor hissued⟩, List.Pairwise.nil, by simp, by simp⟩
  | nextPage i reader hreader limit copies =>
    have hexact := h.readers reader (mem_of_getElem? hreader)
    have hpage := (h.retained.errorsSince hexact.within.2 limit copies).1
    refine ⟨h.retained, fun other hother => ?_, List.forall_mem_cons.2 ⟨hpage.within.2, h.issued⟩⟩
    obtain hold | rfl := mem_or_eq_of_mem_set hother
    · exact h.readers other hold
    · exact hexact.advance hpage

theorem Reachable.inv (h : Reachable limits run) : run.Inv limits := by
  induction h with
  | start =>
    refine ⟨⟨rfl, ?_, List.Pairwise.nil, ?_, Nat.zero_le _, ?_, rfl, fun _ => rfl, ?_⟩, ?_, ?_⟩ <;>
      simp [Run.start, HistoryState.new, HistoryState.retainedBytes, maxSequence]
  | step _ hstep ih => exact ih.step hstep

/-- **Paging the history.** In every run the ring keeps its limits and charges all it holds, and an
attempt comes to an end. A reader has each number behind it once, as a record or as missed, and a
page passes over nothing that is in the ring. -/
theorem history_paging (h : Reachable limits run) : Retained limits run.attempts run.state ∧
    (run.state.nextSequence < maxSequence → ∀ prepared reserve,
      ∃ next, run.state.record limits prepared reserve = some next) ∧
    (∀ reader ∈ run.readers, reader.Exact run.attempts ∧
      reader.missed = (Finset.Ioc reader.start reader.cursor \
        (reader.returned.map StoredRecord.sequence).toFinset).card) ∧
    ∀ cursor ∈ run.issued, ∀ limit copies,
      ((run.state.errorsSince cursor limit copies).reader cursor).Exact run.attempts ∧
      ∀ stored ∈ run.state.records, cursor < stored.sequence →
        stored.sequence ≤ (run.state.errorsSince cursor limit copies).nextCursor →
        stored ∈ (run.state.errorsSince cursor limit copies).errors := by
  have hinv := h.inv
  refine ⟨hinv.retained, fun hbound prepared reserve => ?_, fun reader hreader => ?_,
    fun cursor hcursor limit copies => hinv.retained.errorsSince (hinv.issued cursor hcursor) _ _⟩
  · obtain ⟨next, hnext, -⟩ := hinv.retained.record hbound prepared reserve
    exact ⟨next, hnext⟩
  · exact ⟨hinv.readers reader hreader, (hinv.readers reader hreader).missed_eq⟩

/-- A failure is recorded, the next one is not prepared, and a reader asks for a page. -/
theorem history_paging_page : ∃ run : Run Unit, Reachable ⟨1, 8, 4, by decide⟩ run ∧
      (run.readers.map fun reader => (reader.cursor, reader.returned.length, reader.missed)) =
        [(2, 1, 1)] ∧
      ∀ reader ∈ run.readers, reader.Exact run.attempts := by
  have h : Reachable ⟨1, 8, 4, by decide⟩ (Run.start (α := Unit)) := .start
  have h := h.step (.record (some ⟨(), 4⟩) (some 0) _ (by decide) rfl)
  have h := h.step (.record none none _ (by decide) rfl)
  have h := h.step (.follow 0 (by decide))
  have h := h.step (.nextPage 0 _ rfl 1 fun _ => true)
  exact ⟨_, h, rfl, fun reader hreader => ((history_paging h).2.2.1 reader hreader).1⟩

end Xlfn.Diagnostics
