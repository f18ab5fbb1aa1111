import Xlfn.Handle.Binding

/-!
# Xlfn — no handle identity is used twice

* `SlotWf` — what a slot, its published pointer, the free list and the records of the
  slot have to do with each other, given where the holder of the writer lock stands.
* `Apart` — a step works at one slot and leaves the others alone, so each step has to be
  looked at for one slot only.
-/

namespace Xlfn.Handle

open Lib Kernel Function List Option Writer BindingSystem

-- ---- The published pointers.

namespace PublishedBindings

variable {p p' : PublishedBindings} {slot pointer : Nat}

/-- A load, as a condition on the page. -/
theorem load_eq (p : PublishedBindings) (slot : Nat) :
    p.load slot = if slot / bindingsPerPage < p.count then
      p.page slot (slot % bindingsPerPage) else none := by
  unfold load entry page
  split
  · cases p.pages (slot / bindingsPerPage) <;> rfl
  · rfl

/-- What a load sees after a store. -/
theorem load_store (hslot : slot / bindingsPerPage < p.count) (value : Option Nat) (i : Nat) :
    (p.store slot value).load i = if i = slot then value else p.load i := by
  have hcount : (p.store slot value).count = p.count := rfl
  have hpage : ∀ j, (p.store slot value).page j = if j / bindingsPerPage = slot / bindingsPerPage
      then update (p.page slot) (slot % bindingsPerPage) value else p.page j := by
    intro j
    show (update p.pages (slot / bindingsPerPage) _ (j / bindingsPerPage)).getD _ = _
    by_cases hj : j / bindingsPerPage = slot / bindingsPerPage
    · rw [if_pos hj, hj, update_self]
      rfl
    · rw [if_neg hj, update_of_ne hj]
      rfl
  rw [load_eq, load_eq, hcount, hpage]
  by_cases hi : i = slot
  · subst hi
    rw [if_pos hslot, if_pos rfl, if_pos rfl, update_self]
  · rw [if_neg hi]
    by_cases hp : i / bindingsPerPage = slot / bindingsPerPage
    · have hmod : i % bindingsPerPage ≠ slot % bindingsPerPage := by
        intro hmod
        have hi' := Nat.div_add_mod i bindingsPerPage
        have hslot' := Nat.div_add_mod slot bindingsPerPage
        rw [hp, hmod] at hi'
        exact hi (hi'.symm.trans hslot')
      rw [if_pos hp, update_of_ne hmod, page, page, hp]
    · rw [if_neg hp]

/-- Publishing in an empty place succeeds. -/
theorem publish_of_null (hslot : slot / bindingsPerPage < p.count) (hnull : p.load slot = none) :
    p.publish slot pointer = some (p.store slot (some pointer)) := by
  rw [load_eq, if_pos hslot] at hnull
  exact if_pos ⟨hslot, hnull⟩

/-- Withdrawing what is published succeeds. -/
theorem withdraw_of_load (hload : p.load slot = some pointer) :
    p.withdraw slot pointer = some (p.store slot none) ∧ slot / bindingsPerPage < p.count := by
  have hslot : slot / bindingsPerPage < p.count := by
    by_contra hslot
    rw [load_eq, if_neg hslot] at hload
    cases hload
  refine ⟨if_pos ?_, hslot⟩
  unfold load at hload
  cases hentry : p.entry slot with
  | none =>
    rw [hentry] at hload
    cases hload
  | some found =>
    rw [hentry] at hload
    exact congrArg some hload

end PublishedBindings

-- ---- What the holder of the writer lock has in hand.

namespace Writer

/-- The slots the writer keeps out of the free list. -/
def holds (i : Nat) : Option Writer → Prop
  | some (.reserved j _ _) | some (.owning j _) | some (.exposed j) => i = j
  | some (.taken j _ .removal) | some (.marked j _ .removal) | some (.withdrawn j .removal) => i = j
  | some (.taken j _ .bulk) | some (.marked j _ .bulk) | some (.withdrawn j .bulk) => j ≤ i
  | some (.retiring j) => j ≤ i
  | some (.removing _) | none => False

/-- The pointer readers find for a slot that owns `record`. -/
def shows (i : Nat) (record : Option Nat) : Option Writer → Option Nat
  | some (.owning j _) => if i = j then none else record
  | some (.taken j pointer _) | some (.marked j pointer _) => if i = j then some pointer else record
  | _ => record

/-- The slot whose record is being withdrawn. -/
def withdraws (i : Nat) : Option Writer → Prop
  | some (.taken j _ _) | some (.marked j _ _) | some (.withdrawn j _) => i = j
  | _ => False

/-- The identity of a record that is owned and not yet published. -/
def pending : Option Writer → List HandleId
  | some (.owning _ id) => [id]
  | _ => []

end Writer

namespace BindingSystem

/-- The slots that own a record. -/
def held (s : BindingSystem) : Nat := s.table.slots.countP (·.record.isSome)

end BindingSystem

-- ---- The invariant.

/-- One slot. A record of the slot's current generation is the one it owns, unless it
is on its way out or was the last the slot could have. -/
structure SlotWf (s : BindingSystem) (i : Nat) (slot : BindingSlot) : Prop where
  generation : 1 ≤ slot.nextGeneration ∧ slot.nextGeneration ≤ u64Max
  free       : i ∈ s.table.free ↔
    slot.record = none ∧ i ∉ s.exhausted ∧ ¬holds i s.writer
  exhausted  : i ∈ s.exhausted → slot.record = none ∧ slot.nextGeneration = u64Max
  shown      : s.table.published.load i = shows i slot.record s.writer
  owned      : ∀ p, slot.record = some p → ∃ r, s.table.records[p]? = some r ∧
    r.id = ⟨i, slot.nextGeneration⟩ ∧ r.state = .live
  spent      : ∀ (p : Nat) (r : BindingRecord), s.table.records[p]? = some r → r.id.slot = i →
    1 ≤ r.id.generation ∧ r.id.generation ≤ slot.nextGeneration ∧
    (r.id.generation = slot.nextGeneration →
      slot.record = some p ∨ i ∈ s.exhausted ∨ withdraws i s.writer)

/-- What the writer relies on from its own earlier steps. -/
def WriterWf (s : BindingSystem) : Option Writer → Prop
  | none => s.table.liveBindings = s.held
  | some (.reserved i id origin) => s.table.liveBindings = s.held ∧
    s.table.liveBindings < s.table.maximumBindings.toNat ∧ i ∉ s.exhausted ∧
    ∃ generation, s.table.slots[i]? = some ⟨generation, none⟩ ∧ id = ⟨i, generation⟩ ∧
      (origin = .appended → i + 1 = s.table.slots.length ∧ generation = 1)
  | some (.owning i id) => s.table.liveBindings + 1 = s.held ∧
    s.table.liveBindings < s.table.maximumBindings.toNat ∧
    ∃ generation p, s.table.slots[i]? = some ⟨generation, some p⟩ ∧ id = ⟨i, generation⟩
  | some (.exposed i) => s.table.liveBindings + 1 = s.held ∧
    s.table.liveBindings < s.table.maximumBindings.toNat ∧
    ∃ generation p, s.table.slots[i]? = some ⟨generation, some p⟩
  | some (.removing id) => s.table.liveBindings = s.held ∧
    ∃ generation p, s.table.slots[id.slot]? = some ⟨generation, some p⟩
  | some (.taken i p mode) => (mode = .removal → s.table.liveBindings = s.held + 1) ∧
    i ∉ s.exhausted ∧ ∃ generation, s.table.slots[i]? = some ⟨generation, none⟩ ∧
      ∃ r, s.table.records[p]? = some r ∧ r.id = ⟨i, generation⟩ ∧ r.state = .live
  | some (.marked i p mode) => (mode = .removal → s.table.liveBindings = s.held + 1) ∧
    i ∉ s.exhausted ∧ ∃ generation, s.table.slots[i]? = some ⟨generation, none⟩ ∧
      ∃ r, s.table.records[p]? = some r ∧ r.id = ⟨i, generation⟩
  | some (.withdrawn i mode) => (mode = .removal → s.table.liveBindings = s.held + 1) ∧
    i ∉ s.exhausted ∧ ∃ generation, s.table.slots[i]? = some ⟨generation, none⟩
  | some (.retiring _) => True

/-- `retire_all` leaves the slots behind it empty. -/
def Passed (s : BindingSystem) : Option Writer → Prop
  | some (.taken k _ .bulk) | some (.marked k _ .bulk) | some (.withdrawn k .bulk)
  | some (.retiring k) => k ≤ s.table.slots.length ∧
    ∀ (i : Nat) (slot : BindingSlot), i < k → s.table.slots[i]? = some slot → slot.record = none
  | _ => True

/-- A lookup that has found a record, and one that has answered with it. -/
def LookupWf (records : List BindingRecord) (lookup : Lookup) : Prop :=
  match lookup.pc with
  | .loaded pointer => pointer < records.length
  | .answered (some pointer) => ∃ r, records[pointer]? = some r ∧ r.id = lookup.id
  | _ => True

/-- A lookup survives new records. -/
theorem LookupWf.mono {records records' : List BindingRecord} {lookup : Lookup}
    (h : LookupWf records lookup)
    (hrecords : ∀ (p : Nat) (r : BindingRecord), records[p]? = some r →
      ∃ r', records'[p]? = some r' ∧ r'.id = r.id) : LookupWf records' lookup := by
  unfold LookupWf at h ⊢
  split
  case h_1 pointer hpc =>
    rw [hpc] at h
    obtain ⟨r', hr', -⟩ := hrecords _ _ (getElem?_eq_getElem h)
    exact (List.getElem_of_getElem? hr').1
  case h_2 pointer hpc =>
    rw [hpc] at h
    obtain ⟨r, hr, hid⟩ := h
    obtain ⟨r', hr', hid'⟩ := hrecords _ _ hr
    exact ⟨r', hr', hid'.trans hid⟩
  case h_3 => exact trivial

/-- The invariant of the system. -/
structure TableWf (s : BindingSystem) : Prop where
  running  : s.aborted = false
  pages    : s.table.published.count =
    (s.table.maximumBindings.toNat + bindingsPerPage - 1) / bindingsPerPage
  room     : s.table.slots.length ≤ s.table.maximumBindings.toNat
  live     : s.table.liveBindings ≤ s.table.maximumBindings.toNat
  nodup    : s.table.free.Nodup
  slots    : ∀ (i : Nat) (slot : BindingSlot), s.table.slots[i]? = some slot → SlotWf s i slot
  outside  : ∀ i, s.table.slots.length ≤ i → s.table.published.load i = none ∧
    i ∉ s.table.free ∧ i ∉ s.exhausted ∧
    ∀ (p : Nat) (r : BindingRecord), s.table.records[p]? = some r → r.id.slot ≠ i
  distinct : (s.table.records.map (·.id)).Nodup
  exposed  : s.table.records.map (·.id) = s.exposedIds ++ pending s.writer
  removed  : ∀ id ∈ s.removed, ∃ (p : Nat) (r : BindingRecord), s.table.records[p]? = some r ∧
    r.id = id ∧ r.state = .retired
  lookups  : ∀ l ∈ s.lookups, LookupWf s.table.records l
  writer   : WriterWf s s.writer
  passed   : Passed s s.writer

/-- A step works at the slot `i`: all the others see nothing of it. -/
structure Apart (s s' : BindingSystem) (i : Nat) : Prop where
  slots     : ∀ j ≠ i, s'.table.slots[j]? = s.table.slots[j]?
  free      : ∀ j ≠ i, j ∈ s'.table.free ↔ j ∈ s.table.free
  exhausted : ∀ j ≠ i, j ∈ s'.exhausted ↔ j ∈ s.exhausted
  load      : ∀ j ≠ i, s'.table.published.load j = s.table.published.load j
  holds     : ∀ j ≠ i, holds j s'.writer ↔ holds j s.writer
  shows     : ∀ j ≠ i, ∀ record, shows j record s'.writer = shows j record s.writer
  withdraws : ∀ j ≠ i, withdraws j s'.writer ↔ withdraws j s.writer
  records   : ∀ (p : Nat) (r : BindingRecord), r.id.slot ≠ i →
    (s'.table.records[p]? = some r ↔ s.table.records[p]? = some r)

variable {slot : BindingSlot}

/-- A slot survives a step in another one. -/
theorem SlotWf.apart {s s' : BindingSystem} {i j : Nat} (h : SlotWf s j slot) (hap : Apart s s' i)
    (hj : j ≠ i) : SlotWf s' j slot where
  generation := h.generation
  free := by
    rw [hap.free j hj, hap.exhausted j hj, hap.holds j hj]
    exact h.free
  exhausted := fun hmem => h.exhausted ((hap.exhausted j hj).mp hmem)
  shown := by
    rw [hap.load j hj, hap.shows j hj]
    exact h.shown
  owned := by
    intro p hp
    obtain ⟨r, hr, hid, hlive⟩ := h.owned p hp
    refine ⟨r, (hap.records p r ?_).mpr hr, hid, hlive⟩
    rw [hid]
    exact hj
  spent := by
    intro p r hr hslot
    have hr := (hap.records p r (hslot ▸ hj)).mp hr
    rw [hap.exhausted j hj, hap.withdraws j hj]
    exact h.spent p r hr hslot

variable {p : Nat}

section

variable {s : BindingSystem} {i : Nat} {w : Option Writer}

/-- What is published at a slot. -/
theorem SlotWf.shown_of_writer (h : SlotWf s i slot) (hw : s.writer = w) :
    s.table.published.load i = shows i slot.record w := by
  rw [← hw]
  exact h.shown

/-- The generations of a slot that are spent. -/
theorem SlotWf.spent_of_writer (h : SlotWf s i slot) (hw : s.writer = w) {r : BindingRecord}
    (hr : s.table.records[p]? = some r) (hid : r.id.slot = i) :
    1 ≤ r.id.generation ∧ r.id.generation ≤ slot.nextGeneration ∧
      (r.id.generation = slot.nextGeneration →
        slot.record = some p ∨ i ∈ s.exhausted ∨ withdraws i w) := by
  rw [← hw]
  exact h.spent p r hr hid

theorem TableWf.exposed_of_writer (h : TableWf s) (hw : s.writer = w) :
    s.table.records.map (·.id) = s.exposedIds ++ pending w := by
  rw [← hw]
  exact h.exposed

/-- What the writer's stage says. -/
theorem TableWf.writer_of (h : TableWf s) (hw : s.writer = w) : WriterWf s w := by
  rw [← hw]
  exact h.writer

end

namespace TableWf

variable {s s' : BindingSystem} {i : Nat}

/-- **The slots after a step at one of them.** -/
theorem slots_at (h : TableWf s) (hap : Apart s s' i)
    (hself : ∀ slot, s'.table.slots[i]? = some slot → SlotWf s' i slot) :
    ∀ (j : Nat) (slot : BindingSlot), s'.table.slots[j]? = some slot → SlotWf s' j slot := by
  intro j slot hj
  by_cases hji : j = i
  · subst hji
    exact hself slot hj
  · rw [hap.slots j hji] at hj
    exact (h.slots j slot hj).apart hap hji

theorem outside_at (h : TableWf s) (hap : Apart s s' i) (hi : i < s.table.slots.length)
    (hlength : s'.table.slots.length = s.table.slots.length) :
    ∀ j, s'.table.slots.length ≤ j → s'.table.published.load j = none ∧
      j ∉ s'.table.free ∧ j ∉ s'.exhausted ∧
      ∀ (p : Nat) (r : BindingRecord), s'.table.records[p]? = some r → r.id.slot ≠ j := by
  intro j hj
  rw [hlength] at hj
  have hji : j ≠ i := Nat.ne_of_gt (Nat.lt_of_lt_of_le hi hj)
  obtain ⟨hload, hfree, hexhausted, hrecords⟩ := h.outside j hj
  refine ⟨(hap.load j hji).trans hload, fun hmem => hfree ((hap.free j hji).mp hmem),
    fun hmem => hexhausted ((hap.exhausted j hji).mp hmem), fun p r hr hslot => ?_⟩
  exact hrecords p r ((hap.records p r (hslot ▸ hji)).mp hr) hslot

theorem lt_length (hi : ∃ slot, s.table.slots[i]? = some slot) : i < s.table.slots.length := by
  obtain ⟨slot, hslot⟩ := hi
  exact (List.getElem_of_getElem? hslot).1

theorem new (maximumBindings : UInt32) : TableWf (new maximumBindings) where
  running := rfl
  pages := rfl
  room := Nat.zero_le _
  live := Nat.zero_le _
  nodup := nodup_nil
  slots := fun i slot hslot => by cases hslot
  outside := by
    refine fun i _ => ⟨?_, not_mem_nil, not_mem_nil, fun p r hr => by cases hr⟩
    show (PublishedBindings.entry _ i).join = none
    unfold PublishedBindings.entry
    split <;> rfl
  distinct := nodup_nil
  exposed := rfl
  removed := fun id hid => by cases hid
  lookups := fun l hl => by cases hl
  writer := rfl
  passed := trivial

-- ---- Reservations.

/-- Reserving a free slot. -/
theorem reservedReused (h : TableWf s) (hw : s.writer = none) {ys : List Nat} {owner : BindingSlot}
    (hfree : s.table.free = ys ++ [i]) (howner : s.table.slots[i]? = some owner)
    (hlive : s.table.liveBindings < s.table.maximumBindings.toNat) :
    TableWf { s with
      table  := { s.table with free := ys }
      writer := some (.reserved i ⟨i, owner.nextGeneration⟩ .reused) } := by
  have hnodup := h.nodup
  rw [hfree] at hnodup
  have hnot : i ∉ ys := fun hmem =>
    (nodup_append.mp hnodup).2.2 i hmem i (mem_singleton.mpr rfl) rfl
  have hwf := h.slots i owner howner
  obtain ⟨hnone, hfit, -⟩ := hwf.free.mp (by rw [hfree]; exact mem_append_right _ (mem_singleton.mpr rfl))
  have hap : Apart s { s with
      table  := { s.table with free := ys }
      writer := some (.reserved i ⟨i, owner.nextGeneration⟩ .reused) } i := by
    refine ⟨fun _ _ => rfl, fun j hj => ?_, fun _ _ => Iff.rfl, fun _ _ => rfl, fun j hj => ?_,
      fun j _ record => ?_, fun j _ => ?_, fun _ _ _ => Iff.rfl⟩
    · rw [hfree, mem_append, mem_singleton]
      exact ⟨.inl, fun hmem => hmem.resolve_right hj⟩
    all_goals rw [hw]
    · exact ⟨fun heq => hj heq, False.elim⟩
    · rfl
    · exact Iff.rfl
  refine ⟨h.running, h.pages, h.room, h.live, (nodup_append.mp hnodup).1,
    h.slots_at hap fun slot hslot => ?_, h.outside_at hap (lt_length ⟨owner, howner⟩) rfl,
    h.distinct, ?_, h.removed, h.lookups, ?_, trivial⟩
  · have heq : owner = slot := some.inj (howner.symm.trans hslot)
    subst heq
    refine ⟨hwf.generation, ⟨fun hmem => absurd hmem hnot, fun hall => absurd rfl hall.2.2⟩,
      hwf.exhausted, ?_, hwf.owned, fun p r hr hid => ?_⟩
    · exact (hwf.shown_of_writer hw :)
    · exact (hwf.spent_of_writer hw hr hid :)
  · exact (h.exposed_of_writer hw :)
  · have hwriter := h.writer_of hw
    refine ⟨hwriter, hlive, hfit, owner.nextGeneration, ?_, rfl, nofun⟩
    rw [← hnone]
    exact howner

/-- Reserving a new slot. -/
theorem reservedAppended (h : TableWf s) (hw : s.writer = none)
    (hlive : s.table.liveBindings < s.table.maximumBindings.toNat)
    (hroom : s.table.slots.length < s.table.maximumBindings.toNat) :
    TableWf { s with
      table  := { s.table with slots := s.table.slots ++ [⟨1, none⟩] }
      writer := some (.reserved s.table.slots.length ⟨s.table.slots.length, 1⟩ .appended) } := by
  obtain ⟨hload, hfree, hfit, hrecords⟩ := h.outside s.table.slots.length (Nat.le_refl _)
  have hap : Apart s { s with
      table  := { s.table with slots := s.table.slots ++ [⟨1, none⟩] }
      writer := some (.reserved s.table.slots.length ⟨s.table.slots.length, 1⟩ .appended) }
      s.table.slots.length := by
    refine ⟨fun j hj => ?_, fun _ _ => Iff.rfl, fun _ _ => Iff.rfl, fun _ _ => rfl,
      fun j hj => ?_, fun j _ record => ?_, fun j _ => ?_, fun _ _ _ => Iff.rfl⟩
    · show (s.table.slots ++ [_])[j]? = _
      rcases Nat.lt_or_gt_of_ne hj with hlt | hgt
      · exact getElem?_append_left hlt
      · rw [getElem?_eq_none (by simp; omega), getElem?_eq_none (by omega)]
    all_goals rw [hw]
    · exact ⟨fun heq => hj heq, False.elim⟩
    · rfl
    · exact Iff.rfl
  have hlength : (s.table.slots ++ [(⟨1, none⟩ : BindingSlot)]).length =
      s.table.slots.length + 1 := by simp
  refine ⟨h.running, h.pages, ?_, h.live, h.nodup, h.slots_at hap fun slot hslot => ?_,
    fun j hj => ?_, h.distinct, ?_, h.removed, h.lookups, ?_, trivial⟩
  · rw [hlength]
    exact hroom
  · have heq : slot = ⟨1, none⟩ := by
      have hlast : (s.table.slots ++ [(⟨1, none⟩ : BindingSlot)])[s.table.slots.length]? =
          some slot := hslot
      rw [getElem?_append_right (Nat.le_refl _), Nat.sub_self] at hlast
      exact (some.inj hlast).symm
    subst heq
    refine ⟨⟨Nat.le_refl _, by decide⟩, ⟨fun hmem => absurd hmem hfree, fun hall => ?_⟩,
      fun hmem => absurd hmem hfit, hload, fun p hp => (by cases hp), fun p r hr hid => ?_⟩
    · exact absurd rfl hall.2.2
    · exact absurd hid (hrecords p r hr)
  · rw [hlength] at hj
    exact h.outside j (Nat.le_of_succ_le hj)
  · exact (h.exposed_of_writer hw :)
  · have hwriter := h.writer_of hw
    have hheld : (s.table.slots ++ [(⟨1, none⟩ : BindingSlot)]).countP (·.record.isSome) =
        s.held := by
      rw [countP_append]
      rfl
    refine ⟨hwriter.trans hheld.symm, hlive, hfit, 1, ?_, rfl, fun _ => ⟨hlength.symm, rfl⟩⟩
    show (s.table.slots ++ [_])[s.table.slots.length]? = _
    rw [getElem?_append_right (Nat.le_refl _), Nat.sub_self]
    rfl

theorem slots_set {slots : List BindingSlot} (h : slots[i]? = some slot) (slot' : BindingSlot)
    (j : Nat) : (slots.set i slot')[j]? = if j = i then some slot' else slots[j]? := by
  obtain ⟨hlt, -⟩ := List.getElem_of_getElem? h
  by_cases hj : j = i
  · subst hj
    rw [if_pos rfl, getElem?_set_self hlt]
  · rw [if_neg hj, getElem?_set_ne (Ne.symm hj)]

variable {id : HandleId} {generation : Nat}

section

variable (h : TableWf s)
include h

/-- A reserved identity has never been used. -/
theorem unused_of_reserved {origin : ReservationOrigin}
    (hw : s.writer = some (.reserved i id origin)) :
    ∀ (p : Nat) (r : BindingRecord), s.table.records[p]? = some r → r.id ≠ id := by
  have hwriter := h.writer_of hw
  obtain ⟨-, -, hfit, generation, hslot, rfl, -⟩ := hwriter
  intro p r hr hid
  obtain ⟨-, -, hspent⟩ := (h.slots i _ hslot).spent p r hr (by rw [hid])
  rcases hspent (by rw [hid]) with hcase | hcase | hcase
  · cases hcase
  · exact hfit hcase
  · rw [hw] at hcase
    exact hcase

/-- The record is made. -/
theorem owning {origin : ReservationOrigin} (hw : s.writer = some (.reserved i id origin))
    (hslot : s.table.slots[i]? = some slot) (object : Nat) : TableWf { s with
      table  := { s.table with
        records := s.table.records ++ [⟨id, object, .live⟩]
        slots   := s.table.slots.set i { slot with record := some s.table.records.length } }
      writer := some (.owning i id) } := by
  have hunused := h.unused_of_reserved hw
  have hwriter := h.writer_of hw
  obtain ⟨hheld, hlive, hfit, generation, hslot', rfl, -⟩ := hwriter
  obtain rfl : slot = ⟨generation, none⟩ := some.inj (hslot.symm.trans hslot')
  have hwf := h.slots i _ hslot
  have hset := slots_set hslot ⟨generation, some s.table.records.length⟩
  have hrecords : ∀ (p : Nat) (r : BindingRecord),
      (s.table.records ++ [⟨⟨i, generation⟩, object, .live⟩])[p]? = some r →
      s.table.records[p]? = some r ∨
        (p = s.table.records.length ∧ r = ⟨⟨i, generation⟩, object, .live⟩) :=
    fun p r hr => getElem?_append_singleton_cases hr
  have hold : ∀ (p : Nat) (r : BindingRecord), s.table.records[p]? = some r →
      (s.table.records ++ [⟨⟨i, generation⟩, object, .live⟩])[p]? = some r := by
    intro p r hr
    rw [getElem?_append_left (List.getElem_of_getElem? hr).1]
    exact hr
  have hap : Apart s { s with
      table  := { s.table with
        records := s.table.records ++ [⟨⟨i, generation⟩, object, .live⟩]
        slots   := s.table.slots.set i ⟨generation, some s.table.records.length⟩ }
      writer := some (.owning i ⟨i, generation⟩) } i := by
    refine ⟨fun j hj => ?_, fun _ _ => Iff.rfl, fun _ _ => Iff.rfl, fun _ _ => rfl,
      fun j _ => ?_, fun j hj record => ?_, fun j _ => ?_, fun p r hr => ⟨fun hp => ?_, hold p r⟩⟩
    · exact (hset j).trans (if_neg hj)
    · rw [hw]
      exact Iff.rfl
    · rw [hw]
      exact if_neg hj
    · rw [hw]
      exact Iff.rfl
    · rcases hrecords p r hp with hp | ⟨-, rfl⟩
      · exact hp
      · exact absurd rfl hr
  refine ⟨h.running, h.pages, ?_, h.live, h.nodup, h.slots_at hap fun slot hslot => ?_,
    h.outside_at hap (lt_length ⟨_, hslot⟩) length_set, ?_, ?_, ?_, fun l hl => ?_, ?_,
    trivial⟩
  · rw [length_set]
    exact h.room
  · obtain rfl : (⟨generation, some s.table.records.length⟩ : BindingSlot) = slot :=
      some.inj (((hset i).trans (if_pos rfl)).symm.trans hslot)
    refine ⟨hwf.generation, ⟨fun hmem => ?_, fun hall => by cases hall.1⟩,
      fun hmem => absurd hmem hfit, ?_, fun p hp => ?_, fun p r hr hid => ?_⟩
    · exact absurd (hw ▸ rfl) (hwf.free.mp hmem).2.2
    · have hshown := hwf.shown
      rw [hw] at hshown
      exact hshown.trans (if_pos rfl).symm
    · cases hp
      exact ⟨_, getElem?_concat_length, rfl, rfl⟩
    · rcases hrecords p r hr with hp | ⟨rfl, rfl⟩
      · obtain ⟨hone, hle, -⟩ := hwf.spent p r hp hid
        refine ⟨hone, hle, fun heq => absurd ?_ (hunused p r hp)⟩
        rw [← hid]
        exact congrArg (HandleId.mk r.id.slot) heq
      · exact ⟨hwf.generation.1, Nat.le_refl _, fun _ => .inl rfl⟩
  · show ((s.table.records ++ [_]).map _).Nodup
    rw [map_append, nodup_append]
    refine ⟨h.distinct, nodup_singleton _, fun id hid id' hid' heq => ?_⟩
    obtain ⟨r, hr, rfl⟩ := List.mem_map.mp hid
    obtain ⟨p, hp⟩ := mem_iff_getElem?.mp hr
    exact hunused p r hp (heq.trans (mem_singleton.mp hid'))
  · have hexposed := h.exposed
    rw [hw] at hexposed
    show (s.table.records ++ [_]).map _ = _
    rw [map_append, hexposed]
    exact congrArg (· ++ [_]) (append_nil _)
  · intro id hid
    obtain ⟨p, r, hr, hretired⟩ := h.removed id hid
    exact ⟨p, r, hold p r hr, hretired⟩
  · exact (h.lookups l hl).mono fun p r hr => ⟨r, hold p r hr, rfl⟩
  · have hcount := countP_set_add (fun slot : BindingSlot => slot.record.isSome)
      ⟨generation, some s.table.records.length⟩ hslot
    simp only [isSome_none, isSome_some, Bool.false_eq_true, if_false, if_true,
      Nat.add_zero] at hcount
    refine ⟨?_, hlive, generation, s.table.records.length, (hset i).trans (if_pos rfl), rfl⟩
    rw [hheld]
    exact hcount.symm

theorem page_lt (hi : i < s.table.slots.length) :
    i / bindingsPerPage < s.table.published.count := by
  have hroom := h.room
  rw [h.pages]
  unfold bindingsPerPage
  omega

/-- The record is published. -/
theorem exposing (hw : s.writer = some (.owning i id))
    (hslot : (s.table.slots[i]?).bind (·.record) = some p) :
    s.table.published.publish id.slot p = some (s.table.published.store i (some p)) ∧
    TableWf { s with
      table      := { s.table with published := s.table.published.store i (some p) }
      writer     := some (.exposed i)
      exposedIds := s.exposedIds ++ [id] } := by
  have hwriter := h.writer_of hw
  obtain ⟨hheld, hlive, generation, p', hslot', rfl⟩ := hwriter
  obtain rfl : p' = p := by
    rw [hslot'] at hslot
    exact some.inj hslot
  have hwf := h.slots i _ hslot'
  have hpage := h.page_lt (lt_length ⟨_, hslot'⟩)
  have hnull : s.table.published.load i = none := by
    rw [hwf.shown, hw]
    exact if_pos rfl
  have hload := PublishedBindings.load_store hpage (some p')
  refine ⟨PublishedBindings.publish_of_null hpage hnull, ?_⟩
  have hap : Apart s { s with
      table      := { s.table with published := s.table.published.store i (some p') }
      writer     := some (.exposed i)
      exposedIds := s.exposedIds ++ [⟨i, generation⟩] } i := by
    refine ⟨fun _ _ => rfl, fun _ _ => Iff.rfl, fun _ _ => Iff.rfl, fun j hj => ?_, fun j _ => ?_,
      fun j hj record => ?_, fun j _ => ?_, fun _ _ _ => Iff.rfl⟩
    · exact (hload j).trans (if_neg hj)
    all_goals rw [hw]
    · exact Iff.rfl
    · exact (if_neg hj).symm
    · exact Iff.rfl
  refine ⟨h.running, h.pages, h.room, h.live, h.nodup, h.slots_at hap fun slot hslot => ?_,
    h.outside_at hap (lt_length ⟨_, hslot'⟩) rfl, h.distinct, ?_, h.removed, h.lookups, ?_, trivial⟩
  · obtain rfl := some.inj (hslot'.symm.trans hslot)
    refine ⟨hwf.generation, ?_, hwf.exhausted, (hload i).trans (if_pos rfl), hwf.owned,
      fun p r hr hid => ?_⟩
    · have hfree := hwf.free
      rw [hw] at hfree
      exact hfree
    · exact (hwf.spent_of_writer hw hr hid :)
  · have hexposed := h.exposed
    rw [hw] at hexposed
    exact hexposed.trans (append_nil _).symm
  · exact ⟨hheld, hlive, generation, p', hslot'⟩

/-- A writer that leaves, or only looks, changes nothing that concerns a slot. -/
theorem slots_writer {w : Option Writer} (hsame : ∀ i slot, s.table.slots[i]? = some slot →
      (slot.record = none → (holds i w ↔ holds i s.writer)) ∧
      shows i slot.record w = shows i slot.record s.writer ∧
      (withdraws i s.writer → withdraws i w)) (live : Nat) :
    ∀ (i : Nat) (slot : BindingSlot), s.table.slots[i]? = some slot →
      SlotWf { s with table := { s.table with liveBindings := live }, writer := w } i slot := by
  intro i slot hslot
  have hwf := h.slots i slot hslot
  obtain ⟨hholds, hshows, hwithdraws⟩ := hsame i slot hslot
  refine ⟨hwf.generation, ?_, hwf.exhausted, hwf.shown.trans hshows.symm, hwf.owned,
    fun p r hr hid => ?_⟩
  · rw [hwf.free]
    constructor
    · rintro ⟨hnone, hfit, hnot⟩
      exact ⟨hnone, hfit, fun hh => hnot ((hholds hnone).mp hh)⟩
    · rintro ⟨hnone, hfit, hnot⟩
      exact ⟨hnone, hfit, fun hh => hnot ((hholds hnone).mpr hh)⟩
  · obtain ⟨hone, hle, hspent⟩ := hwf.spent p r hr hid
    refine ⟨hone, hle, fun heq => ?_⟩
    rcases hspent heq with hcase | hcase | hcase
    · exact .inl hcase
    · exact .inr (.inl hcase)
    · exact .inr (.inr (hwithdraws hcase))

/-- The binding is counted. -/
theorem counted (hw : s.writer = some (.exposed i)) : s.table.liveBindings < u32Max ∧
    TableWf { s with
      table  := { s.table with liveBindings := s.table.liveBindings + 1 }
      writer := none } := by
  have hwriter := h.writer_of hw
  obtain ⟨hheld, hlive, generation, p, hslot⟩ := hwriter
  have hmax := s.table.maximumBindings.toNat_lt
  refine ⟨Nat.lt_of_lt_of_le hlive (Nat.le_of_lt_succ hmax), ?_⟩
  refine ⟨h.running, h.pages, h.room, hlive, h.nodup, h.slots_writer (fun j slot hj => ?_) _,
    h.outside, h.distinct, ?_, h.removed, h.lookups, hheld, trivial⟩
  · rw [hw]
    refine ⟨fun hnone => ⟨False.elim, fun hji => ?_⟩, rfl, False.elim⟩
    rw [show j = i from hji] at hj
    obtain rfl := some.inj (hslot.symm.trans hj)
    cases hnone
  · exact (h.exposed_of_writer hw :)

/-- A removal begins. -/
theorem removing (hw : s.writer = none)
    (hslot : (s.table.slots[id.slot]?).bind (·.record) = some p) :
    TableWf { s with writer := some (.removing id) } := by
  refine ⟨h.running, h.pages, h.room, h.live, h.nodup,
    h.slots_writer (w := some (.removing id)) (fun j slot _ => ?_) s.table.liveBindings,
    h.outside, h.distinct, ?_, h.removed, h.lookups, ?_, trivial⟩
  · rw [hw]
    exact ⟨fun _ => Iff.rfl, rfl, fun hcase => hcase⟩
  · exact (h.exposed_of_writer hw :)
  · have hwriter := h.writer_of hw
    obtain ⟨⟨generation, record⟩, hfound, hrecord⟩ := bind_eq_some_iff.mp hslot
    obtain rfl : record = some p := hrecord
    exact ⟨hwriter, generation, p, hfound⟩

/-- A removal is dropped. -/
theorem droppedRemoval (hw : s.writer = some (.removing id)) :
    TableWf { s with writer := none } := by
  refine ⟨h.running, h.pages, h.room, h.live, h.nodup,
    h.slots_writer (fun j slot _ => ?_) s.table.liveBindings,
    h.outside, h.distinct, ?_, h.removed, h.lookups, ?_, trivial⟩
  · rw [hw]
    exact ⟨fun _ => Iff.rfl, rfl, fun hcase => hcase⟩
  · exact (h.exposed_of_writer hw :)
  · have hwriter := h.writer_of hw
    exact hwriter.1

/-- The reservation of a free slot is dropped. -/
theorem droppedReused (hw : s.writer = some (.reserved i id .reused)) : TableWf { s with
      table  := { s.table with free := s.table.free ++ [id.slot] }
      writer := none } := by
  have hwriter := h.writer_of hw
  obtain ⟨hheld, hlive, hfit, generation, hslot, rfl, -⟩ := hwriter
  have hwf := h.slots i _ hslot
  have hnot : i ∉ s.table.free := fun hmem => (hwf.free.mp hmem).2.2 (by rw [hw]; rfl)
  have hap : Apart s { s with
      table  := { s.table with free := s.table.free ++ [i] }
      writer := none } i := by
    refine ⟨fun _ _ => rfl, fun j hj => ?_, fun _ _ => Iff.rfl, fun _ _ => rfl, fun j hj => ?_,
      fun j _ record => ?_, fun j _ => ?_, fun _ _ _ => Iff.rfl⟩
    · rw [mem_append, mem_singleton]
      exact ⟨fun hmem => hmem.resolve_right hj, .inl⟩
    all_goals rw [hw]
    · exact ⟨False.elim, fun heq => hj heq⟩
    · rfl
    · exact Iff.rfl
  refine ⟨h.running, h.pages, h.room, h.live, ?_, h.slots_at hap fun slot hslot' => ?_,
    h.outside_at hap (lt_length ⟨_, hslot⟩) rfl, h.distinct, ?_, h.removed, h.lookups, hheld,
    trivial⟩
  · rw [nodup_append]
    refine ⟨h.nodup, nodup_singleton _, fun j hj k hk heq => hnot ?_⟩
    have hjk : j = i := heq.trans (mem_singleton.mp hk)
    exact hjk ▸ hj
  · obtain rfl := some.inj (hslot.symm.trans hslot')
    refine ⟨hwf.generation, ⟨fun _ => ⟨rfl, hfit, False.elim⟩, fun _ => ?_⟩, hwf.exhausted, ?_,
      hwf.owned, fun p r hr hid => ?_⟩
    · exact mem_append_right _ (mem_singleton.mpr rfl)
    · exact (hwf.shown_of_writer hw :)
    · exact (hwf.spent_of_writer hw hr hid :)
  · exact (h.exposed_of_writer hw :)

/-- The reservation of a new slot is dropped. -/
theorem droppedAppended (hw : s.writer = some (.reserved i id .appended)) : s.table.slots ≠ [] ∧
    TableWf { s with
      table  := { s.table with slots := s.table.slots.dropLast }
      writer := none } := by
  have hunused := h.unused_of_reserved hw
  have hwriter := h.writer_of hw
  obtain ⟨hheld, hlive, hfit, generation, hslot, rfl, hlast⟩ := hwriter
  obtain ⟨hlength, rfl⟩ := hlast rfl
  have hne : s.table.slots ≠ [] := by
    intro hnil
    rw [hnil] at hslot
    cases hslot
  refine ⟨hne, ?_⟩
  have hwf := h.slots i _ hslot
  have hnot : i ∉ s.table.free := fun hmem => (hwf.free.mp hmem).2.2 (by rw [hw]; rfl)
  have hdrop : s.table.slots.dropLast.length = i := by
    rw [length_dropLast]
    omega
  have hkept : ∀ (j : Nat) (slot : BindingSlot), s.table.slots.dropLast[j]? = some slot →
      s.table.slots[j]? = some slot ∧ j ≠ i := by
    intro j slot hj
    obtain ⟨hlt, hval⟩ := List.getElem_of_getElem? hj
    rw [getElem_dropLast] at hval
    exact ⟨List.getElem?_eq_some_iff.mpr ⟨by omega, hval⟩, by omega⟩
  -- No record carries the index of the slot that goes.
  have hclear : ∀ (p : Nat) (r : BindingRecord), s.table.records[p]? = some r → r.id.slot ≠ i := by
    intro p r hr hid
    obtain ⟨hone, hle, -⟩ := hwf.spent p r hr hid
    have hgeneration : r.id.generation = 1 := Nat.le_antisymm hle hone
    refine hunused p r hr ?_
    rw [← hid, ← hgeneration]
  refine ⟨h.running, h.pages, ?_, h.live, h.nodup, fun j slot hj => ?_, fun j hj => ?_,
    h.distinct, ?_, h.removed, h.lookups, ?_, trivial⟩
  · have hroom := h.room
    show s.table.slots.dropLast.length ≤ s.table.maximumBindings.toNat
    omega
  · obtain ⟨hj, hji⟩ := hkept j slot hj
    have hwf := h.slots j slot hj
    refine ⟨hwf.generation, ?_, hwf.exhausted, ?_, hwf.owned, fun p r hr hid => ?_⟩
    · have hfree := hwf.free
      rw [hw] at hfree
      rw [hfree]
      exact ⟨fun hall => ⟨hall.1, hall.2.1, False.elim⟩, fun hall => ⟨hall.1, hall.2.1, hji⟩⟩
    · exact (hwf.shown_of_writer hw :)
    · exact (hwf.spent_of_writer hw hr hid :)
  · have hj : s.table.slots.dropLast.length ≤ j := hj
    rcases Nat.lt_or_ge j s.table.slots.length with hlt | hge
    · obtain rfl : j = i := by omega
      refine ⟨?_, hnot, hfit, hclear⟩
      exact (hwf.shown_of_writer hw :)
    · exact h.outside j hge
  · exact (h.exposed_of_writer hw :)
  · have hsplit := dropLast_append_getLast hne
    have hempty : s.table.slots.getLast hne = ⟨1, none⟩ := by
      have hget := getLast?_eq_getElem? (l := s.table.slots)
      rw [getLast?_eq_some_getLast hne, show s.table.slots.length - 1 = i by omega, hslot] at hget
      exact some.inj hget
    have hcount : s.held = s.table.slots.dropLast.countP (·.record.isSome) := by
      rw [held]
      nth_rewrite 1 [← hsplit]
      rw [countP_append, hempty]
      rfl
    exact hheld.trans hcount

end

-- ---- Withdrawals.

variable {mode : Withdrawal}

/-- The record is taken from its slot. -/
theorem taking (h : TableWf s) (hslot : s.table.slots[i]? = some ⟨generation, some p⟩)
    (hholds : ∀ j ≠ i, holds j s.writer ↔ holds j (some (.taken i p mode)))
    (hshows : ∀ j record, shows j record s.writer = record)
    (hwithdraws : ∀ j, ¬withdraws j s.writer) (hpending : pending s.writer = [])
    (hheld : mode = .removal → s.table.liveBindings = s.held)
    (hpassed : mode = .bulk → ∀ (j : Nat) (slot : BindingSlot), j < i →
      s.table.slots[j]? = some slot → slot.record = none) : TableWf { s with
      table  := { s.table with slots := s.table.slots.set i ⟨generation, none⟩ }
      writer := some (.taken i p mode) } := by
  have hwf := h.slots i _ hslot
  have hset := slots_set hslot ⟨generation, none⟩
  have hnot : i ∉ s.table.free := fun hmem => by cases (hwf.free.mp hmem).1
  have hfit : i ∉ s.exhausted := fun hmem => by cases (hwf.exhausted hmem).1
  have hself : holds i (some (.taken i p mode)) := by
    cases mode
    · exact rfl
    · exact Nat.le_refl i
  have hap : Apart s { s with
      table  := { s.table with slots := s.table.slots.set i ⟨generation, none⟩ }
      writer := some (.taken i p mode) } i := by
    refine ⟨fun j hj => (hset j).trans (if_neg hj), fun _ _ => Iff.rfl, fun _ _ => Iff.rfl,
      fun _ _ => rfl, fun j hj => (hholds j hj).symm, fun j hj record => ?_, fun j hj => ?_,
      fun _ _ _ => Iff.rfl⟩
    · rw [hshows]
      exact if_neg hj
    · exact ⟨fun heq => absurd heq hj, fun hcase => absurd hcase (hwithdraws j)⟩
  obtain ⟨r, hr, hid, hlive⟩ := hwf.owned p rfl
  have hcount := countP_set_add (fun slot : BindingSlot => slot.record.isSome)
    ⟨generation, none⟩ hslot
  simp only [isSome_none, isSome_some, Bool.false_eq_true, if_false, if_true,
    Nat.add_zero] at hcount
  refine ⟨h.running, h.pages, ?_, h.live, h.nodup, h.slots_at hap fun slot hslot' => ?_,
    h.outside_at hap (lt_length ⟨_, hslot⟩) length_set, h.distinct, ?_, h.removed,
    h.lookups, ?_, ?_⟩
  · rw [length_set]
    exact h.room
  · obtain rfl : (⟨generation, none⟩ : BindingSlot) = slot :=
      some.inj (((hset i).trans (if_pos rfl)).symm.trans hslot')
    refine ⟨hwf.generation, ⟨fun hmem => absurd hmem hnot, fun hall => absurd hself hall.2.2⟩,
      fun hmem => absurd hmem hfit, ?_, fun q hq => (by cases hq), fun q r hr hid => ?_⟩
    · rw [show s.table.published.load i = some p from hwf.shown.trans (hshows i (some p))]
      exact (if_pos rfl).symm
    · obtain ⟨hone, hle, -⟩ := hwf.spent q r hr hid
      exact ⟨hone, hle, fun _ => .inr (.inr rfl)⟩
  · have hexposed := h.exposed
    rw [hpending] at hexposed
    exact hexposed
  · refine ⟨fun hmode => ?_, hfit, generation, (hset i).trans (if_pos rfl), r, hr, hid, hlive⟩
    exact (hheld hmode).trans hcount.symm
  · cases mode
    · exact trivial
    · refine ⟨?_, fun j slot hj hslot' => ?_⟩
      · rw [length_set]
        exact Nat.le_of_lt (lt_length ⟨_, hslot⟩)
      · have hslot' := ((hset j).trans (if_neg (Nat.ne_of_lt hj))).symm.trans hslot'
        exact hpassed rfl j slot hj hslot'

/-- The record is marked as withdrawn. -/
theorem marking (h : TableWf s) {r : BindingRecord} (hw : s.writer = some (.taken i p mode))
    (hr : s.table.records[p]? = some r) : TableWf { s with
      table   := { s.table with
        records := s.table.records.set p { r with state := .retired } }
      writer  := some (.marked i p mode)
      removed := s.removed ++ [r.id] } := by
  have hwriter := h.writer_of hw
  obtain ⟨hheld, hfit, generation, hslot, found, hfound, hid, hlive⟩ := hwriter
  obtain rfl : r = found := Option.some.inj (hr.symm.trans hfound)
  have hwf := h.slots i _ hslot
  have hlt := (List.getElem_of_getElem? hr).1
  -- The records keep their identities, and all but this one their state.
  have hset : ∀ (q : Nat) (r' : BindingRecord),
      (s.table.records.set p { r with state := .retired })[q]? = some r' →
      (q = p ∧ r' = { r with state := .retired }) ∨ (q ≠ p ∧ s.table.records[q]? = some r') :=
    fun q r' hq => getElem?_set_cases hr hq
  have hids : ∀ (q : Nat) (r' : BindingRecord),
      (s.table.records.set p { r with state := .retired })[q]? = some r' →
      ∃ r'', s.table.records[q]? = some r'' ∧ r''.id = r'.id := by
    intro q r' hq
    rcases hset q r' hq with ⟨rfl, rfl⟩ | ⟨-, hq⟩
    · exact ⟨r, hr, rfl⟩
    · exact ⟨r', hq, rfl⟩
  have hsame : ∀ q ≠ p, (s.table.records.set p { r with state := .retired })[q]? =
      s.table.records[q]? := fun q hq => getElem?_set_ne (Ne.symm hq)
  have hself : (s.table.records.set p { r with state := .retired })[p]? =
      some { r with state := .retired } := getElem?_set_self hlt
  have hap : Apart s { s with
      table   := { s.table with
        records := s.table.records.set p { r with state := .retired } }
      writer  := some (.marked i p mode)
      removed := s.removed ++ [r.id] } i := by
    refine ⟨fun _ _ => rfl, fun _ _ => Iff.rfl, fun _ _ => Iff.rfl, fun _ _ => rfl, fun j _ => ?_,
      fun j _ record => ?_, fun j _ => ?_, fun q r' hne => ?_⟩
    · rw [hw]
      cases mode <;> exact Iff.rfl
    · rw [hw]
      rfl
    · rw [hw]
      exact Iff.rfl
    · by_cases hq : q = p
      · subst hq
        show (s.table.records.set q _)[q]? = some r' ↔ _
        rw [hself, hr]
        refine ⟨fun heq => ?_, fun heq => ?_⟩
        · obtain rfl := some.inj heq
          exact absurd (by rw [hid]) hne
        · obtain rfl := some.inj heq
          exact absurd (by rw [hid]) hne
      · show (s.table.records.set p _)[q]? = some r' ↔ _
        rw [hsame q hq]
  have hmap : (s.table.records.set p { r with state := .retired }).map (·.id) =
      s.table.records.map (·.id) := by
    rw [map_set]
    refine ext_getElem? fun q => ?_
    by_cases hq : q = p
    · subst hq
      rw [getElem?_set_self (by rw [length_map]; exact hlt), getElem?_map, hr]
      rfl
    · rw [getElem?_set_ne (Ne.symm hq)]
  refine ⟨h.running, h.pages, h.room, h.live, h.nodup, h.slots_at hap fun slot hslot' => ?_,
    h.outside_at hap (lt_length ⟨_, hslot⟩) rfl, ?_, ?_, fun id hid' => ?_, fun l hl => ?_, ?_, ?_⟩
  · obtain rfl := some.inj (hslot.symm.trans hslot')
    refine ⟨hwf.generation, ?_, hwf.exhausted, ?_, fun q hq => (by cases hq),
      fun q r' hr' hid' => ?_⟩
    · have hfree := hwf.free
      rw [hw] at hfree
      cases mode <;> exact hfree
    · exact (hwf.shown_of_writer hw :)
    · obtain ⟨r'', hr'', hsame⟩ := hids q r' hr'
      obtain ⟨hone, hle, -⟩ := hwf.spent q r'' hr'' (by rw [hsame]; exact hid')
      rw [hsame] at hone hle
      exact ⟨hone, hle, fun _ => .inr (.inr rfl)⟩
  · show ((s.table.records.set p _).map _).Nodup
    rw [hmap]
    exact h.distinct
  · have hexposed := h.exposed
    rw [hw] at hexposed
    exact hmap.trans hexposed
  · rcases mem_append.mp hid' with hold | hnew
    · obtain ⟨q, r', hr', hid', hretired⟩ := h.removed id hold
      have hq : q ≠ p := by
        rintro rfl
        obtain rfl := some.inj (hr.symm.trans hr')
        rw [hlive] at hretired
        cases hretired
      exact ⟨q, r', (hsame q hq).trans hr', hid', hretired⟩
    · exact ⟨p, _, hself, (mem_singleton.mp hnew).symm, rfl⟩
  · refine (h.lookups l hl).mono fun q r' hr' => ?_
    by_cases hq : q = p
    · subst hq
      obtain rfl := some.inj (hr.symm.trans hr')
      exact ⟨_, hself, rfl⟩
    · exact ⟨r', (hsame q hq).trans hr', rfl⟩
  · exact ⟨hheld, hfit, generation, hslot, _, hself, hid⟩
  · have hpassed := h.passed
    rw [hw] at hpassed
    cases mode <;> exact hpassed

/-- The record is withdrawn. -/
theorem withdrawing (h : TableWf s) (hw : s.writer = some (.marked i p mode)) :
    (s.table.records[p]?).bind (fun r => s.table.published.withdraw r.id.slot p) =
      some (s.table.published.store i none) ∧
    TableWf { s with
      table  := { s.table with published := s.table.published.store i none }
      writer := some (.withdrawn i mode) } := by
  have hwriter := h.writer_of hw
  obtain ⟨hheld, hfit, generation, hslot, r, hr, hid⟩ := hwriter
  have hwf := h.slots i _ hslot
  have hshown := hwf.shown
  rw [hw] at hshown
  obtain ⟨hwithdraw, hpage⟩ :=
    PublishedBindings.withdraw_of_load (hshown.trans (if_pos rfl))
  have hload := PublishedBindings.load_store hpage none
  refine ⟨?_, ?_⟩
  · rw [hr, bind_some, hid]
    exact hwithdraw
  have hap : Apart s { s with
      table  := { s.table with published := s.table.published.store i none }
      writer := some (.withdrawn i mode) } i := by
    refine ⟨fun _ _ => rfl, fun _ _ => Iff.rfl, fun _ _ => Iff.rfl, fun j hj => ?_, fun j _ => ?_,
      fun j hj record => ?_, fun j _ => ?_, fun _ _ _ => Iff.rfl⟩
    · exact (hload j).trans (if_neg hj)
    · rw [hw]
      cases mode <;> exact Iff.rfl
    · rw [hw]
      exact (if_neg hj).symm
    · rw [hw]
      exact Iff.rfl
  refine ⟨h.running, h.pages, h.room, h.live, h.nodup, h.slots_at hap fun slot hslot' => ?_,
    h.outside_at hap (lt_length ⟨_, hslot⟩) rfl, h.distinct, ?_, h.removed, h.lookups, ?_, ?_⟩
  · obtain rfl := some.inj (hslot.symm.trans hslot')
    refine ⟨hwf.generation, ?_, hwf.exhausted, (hload i).trans (if_pos rfl), hwf.owned,
      fun p r hr hid => ?_⟩
    · have hfree := hwf.free
      rw [hw] at hfree
      cases mode <;> exact hfree
    · exact (hwf.spent_of_writer hw hr hid :)
  · exact (h.exposed_of_writer hw :)
  · exact ⟨hheld, hfit, generation, hslot⟩
  · have hpassed := h.passed
    rw [hw] at hpassed
    cases mode <;> exact hpassed

/-- The system after a slot has been given back, or found exhausted. -/
def recycled (s : BindingSystem) (i : Nat) (slot : BindingSlot) (w : Option Writer) (live : Nat) :
    BindingSystem :=
  match slot.advance with
  | (slot', true) =>
    { s with
      table  := { s.table with
        slots        := s.table.slots.set i slot'
        free         := s.table.free ++ [i]
        liveBindings := live }
      writer := w }
  | (_, false) =>
    { s with
      table     := { s.table with liveBindings := live }
      writer    := w
      exhausted := s.exhausted ++ [i] }

/-- **The slot is free again, or retired.** -/
theorem recycling (h : TableWf s) {live : Nat} {w : Option Writer}
    (hslot : s.table.slots[i]? = some ⟨generation, none⟩) (hholding : holds i s.writer)
    (hholds : ∀ j ≠ i, holds j w ↔ holds j s.writer) (hfreed : ¬holds i w)
    (hshows : ∀ j record, shows j record w = shows j record s.writer)
    (hempty : shows i none s.writer = none)
    (hwithdraws : ∀ j ≠ i, withdraws j w ↔ withdraws j s.writer)
    (hpending : pending w = pending s.writer) (hlive : live ≤ s.table.liveBindings)
    (hwriter : ∀ s' : BindingSystem, s'.held = s.held → s'.table.liveBindings = live →
      s'.table.slots.length = s.table.slots.length →
      (∀ j ≠ i, s'.table.slots[j]? = s.table.slots[j]?) →
      (∀ slot, s'.table.slots[i]? = some slot → slot.record = none) →
      WriterWf s' w ∧ Passed s' w) : TableWf (recycled s i ⟨generation, none⟩ w live) := by
  have hwf := h.slots i _ hslot
  have hnot : i ∉ s.table.free := fun hmem => (hwf.free.mp hmem).2.2 hholding
  have hload : s.table.published.load i = none := hwf.shown.trans hempty
  have hexposed : s.table.records.map (·.id) = s.exposedIds ++ pending w := by
    rw [hpending]
    exact h.exposed
  unfold recycled BindingSlot.advance
  cases hnext : nextGeneration generation with
  | some next =>
    obtain ⟨rfl, hlt⟩ := checkedIncrement_eq_some hnext
    have hfit : i ∉ s.exhausted := fun hmem => Nat.ne_of_lt hlt (hwf.exhausted hmem).2
    have hset := slots_set hslot ⟨generation + 1, none⟩
    have hcount := countP_set_add (fun slot : BindingSlot => slot.record.isSome)
      ⟨generation + 1, none⟩ hslot
    have hap : Apart s { s with
        table  := { s.table with
          slots        := s.table.slots.set i ⟨generation + 1, none⟩
          free         := s.table.free ++ [i]
          liveBindings := live }
        writer := w } i := by
      refine ⟨fun j hj => (hset j).trans (if_neg hj), fun j hj => ?_, fun _ _ => Iff.rfl,
        fun _ _ => rfl, hholds, fun j _ => hshows j, hwithdraws, fun _ _ _ => Iff.rfl⟩
      rw [mem_append, mem_singleton]
      exact ⟨fun hmem => hmem.resolve_right hj, .inl⟩
    have hthen := hwriter { s with
        table  := { s.table with
          slots        := s.table.slots.set i ⟨generation + 1, none⟩
          free         := s.table.free ++ [i]
          liveBindings := live }
        writer := w } (Nat.add_right_cancel hcount) rfl length_set hap.slots
      (fun slot hslot' => by
        obtain rfl := some.inj (((hset i).trans (if_pos rfl)).symm.trans hslot')
        rfl)
    refine ⟨h.running, h.pages, ?_, Nat.le_trans hlive h.live, ?_,
      h.slots_at hap fun slot hslot' => ?_,
      h.outside_at hap (lt_length ⟨_, hslot⟩) length_set, h.distinct, hexposed, h.removed,
      h.lookups, hthen.1, hthen.2⟩
    · show (s.table.slots.set i _).length ≤ _
      rw [length_set]
      exact h.room
    · show (s.table.free ++ [i]).Nodup
      rw [nodup_append]
      refine ⟨h.nodup, nodup_singleton _, fun j hj k hk heq => hnot ?_⟩
      have hjk : j = i := heq.trans (mem_singleton.mp hk)
      exact hjk ▸ hj
    · obtain rfl : (⟨generation + 1, none⟩ : BindingSlot) = slot :=
        some.inj (((hset i).trans (if_pos rfl)).symm.trans hslot')
      refine ⟨⟨Nat.succ_le_succ (Nat.zero_le _), hlt⟩, ⟨fun _ => ⟨rfl, hfit, hfreed⟩, fun _ => ?_⟩,
        fun hmem => absurd hmem hfit, ?_, fun q hq => (by cases hq), fun q r hr hid => ?_⟩
      · exact mem_append_right _ (mem_singleton.mpr rfl)
      · exact hload.trans (hempty.symm.trans (hshows i none).symm)
      · obtain ⟨hone, hle, -⟩ := hwf.spent q r hr hid
        have hle : r.id.generation ≤ generation := hle
        exact ⟨hone, Nat.le_succ_of_le hle, fun heq => absurd heq (by simp only; omega)⟩
  | none =>
    have hmax : generation = u64Max := by
      unfold nextGeneration checkedIncrement at hnext
      split at hnext
      · cases hnext
      · exact Nat.le_antisymm hwf.generation.2 (Nat.le_of_not_lt ‹_›)
    have hmem : i ∈ s.exhausted ++ [i] := mem_append_right _ (mem_singleton.mpr rfl)
    have hap : Apart s { s with
        table     := { s.table with liveBindings := live }
        writer    := w
        exhausted := s.exhausted ++ [i] } i := by
      refine ⟨fun _ _ => rfl, fun _ _ => Iff.rfl, fun j hj => ?_, fun _ _ => rfl, hholds,
        fun j _ => hshows j, hwithdraws, fun _ _ _ => Iff.rfl⟩
      rw [mem_append, mem_singleton]
      exact ⟨fun hmem => hmem.resolve_right hj, .inl⟩
    have hthen := hwriter { s with
        table     := { s.table with liveBindings := live }
        writer    := w
        exhausted := s.exhausted ++ [i] } rfl rfl rfl hap.slots
      (fun slot hslot' => by
        obtain rfl := some.inj (hslot.symm.trans hslot')
        rfl)
    refine ⟨h.running, h.pages, h.room, Nat.le_trans hlive h.live, h.nodup,
      h.slots_at hap fun slot hslot' => ?_, h.outside_at hap (lt_length ⟨_, hslot⟩) rfl,
      h.distinct, hexposed, h.removed, h.lookups, hthen.1, hthen.2⟩
    obtain rfl := some.inj (hslot.symm.trans hslot')
    refine ⟨hwf.generation, ⟨fun hfree => absurd hfree hnot, fun hall => absurd hmem hall.2.1⟩,
      fun _ => ⟨rfl, hmax⟩, ?_, hwf.owned, fun q r hr hid => ?_⟩
    · exact hload.trans (hempty.symm.trans (hshows i none).symm)
    · obtain ⟨hone, hle, -⟩ := hwf.spent q r hr hid
      exact ⟨hone, hle, fun _ => .inr (.inl hmem)⟩

theorem recycle_eq (h : TableWf s) (hslot : s.table.slots[i]? = some slot) (mode : Withdrawal)
    (w : Option Writer) (live : Nat) :
    ∃ s', s.recycle i mode = some s' ∧ s'.table.liveBindings = s.table.liveBindings ∧
      recycled s i slot w live =
        { s' with table := { s'.table with liveBindings := live }, writer := w } := by
  have hindex : ¬(mode = .bulk ∧ u32Max < i) := by
    rintro ⟨-, hlt⟩
    have hi := lt_length ⟨slot, hslot⟩
    have hroom := h.room
    have hmax := s.table.maximumBindings.toNat_lt
    unfold u32Max at hlt
    omega
  unfold recycle recycled
  simp only [hslot, bind_eq_bind, bind_some]
  rcases slot.advance with ⟨slot', reusable⟩
  cases reusable with
  | false => exact ⟨_, rfl, rfl, rfl⟩
  | true =>
    simp only [if_neg hindex]
    exact ⟨_, rfl, rfl, rfl⟩

/-- A removal recycles its slot. -/
theorem recycledRemoval (h : TableWf s) {live : Nat} (hw : s.writer = some (.withdrawn i .removal))
    (hslot : s.table.slots[i]? = some ⟨generation, none⟩)
    (hlive : live + 1 = s.table.liveBindings) :
    TableWf (recycled s i ⟨generation, none⟩ none live) := by
  have hwriter := h.writer_of hw
  obtain ⟨hheld, -⟩ := hwriter
  have hheld := hheld rfl
  refine h.recycling hslot ?_ (fun j hj => ?_) False.elim (fun j record => ?_) ?_ (fun j hj => ?_)
    ?_ (by omega) fun t hheld' hlive' _ _ _ => ⟨?_, trivial⟩
  all_goals try rw [hw]
  · exact rfl
  · exact ⟨False.elim, fun hcase => hj hcase⟩
  · rfl
  · rfl
  · exact ⟨False.elim, fun hcase => hj hcase⟩
  · rfl
  · show t.table.liveBindings = t.held
    omega

/-- A bulk retirement recycles a slot. -/
theorem recycledBulk (h : TableWf s)
    (hw : s.writer = some (.withdrawn i .bulk) ∨ s.writer = some (.retiring i))
    (hslot : s.table.slots[i]? = some ⟨generation, none⟩) :
    TableWf (recycled s i ⟨generation, none⟩ (some (.retiring (i + 1))) s.table.liveBindings) := by
  have hpassed : i ≤ s.table.slots.length ∧ ∀ (j : Nat) (slot : BindingSlot), j < i →
      s.table.slots[j]? = some slot → slot.record = none := by
    have hpassed := h.passed
    rcases hw with hw | hw <;> rw [hw] at hpassed <;> exact hpassed
  have hi := lt_length ⟨_, hslot⟩
  refine h.recycling hslot ?_ (fun j hj => ?_) ?_ (fun j record => ?_) ?_ (fun j hj => ?_) ?_
    (Nat.le_refl _) fun t _ _ hlength hslots hself => ⟨trivial, ?_, fun j slot hj hslot' => ?_⟩
  · rcases hw with hw | hw <;> rw [hw] <;> exact Nat.le_refl i
  · rcases hw with hw | hw <;> rw [hw] <;>
      exact ⟨Nat.le_of_succ_le, fun hle => Nat.lt_of_le_of_ne hle (Ne.symm hj)⟩
  · exact Nat.not_succ_le_self i
  · rcases hw with hw | hw <;> rw [hw] <;> rfl
  · rcases hw with hw | hw <;> rw [hw] <;> rfl
  · rcases hw with hw | hw <;> rw [hw]
    · exact ⟨False.elim, fun hcase => hj hcase⟩
    · exact Iff.rfl
  · rcases hw with hw | hw <;> rw [hw] <;> rfl
  · rw [hlength]
    exact hi
  · by_cases hji : j = i
    · subst hji
      exact hself slot hslot'
    · rw [hslots j hji] at hslot'
      exact hpassed.2 j slot (by omega) hslot'

/-- A bulk retirement begins. -/
theorem retiringAll (h : TableWf s) (hw : s.writer = none) :
    TableWf { s with table := { s.table with free := [] }, writer := some (.retiring 0) } := by
  refine ⟨h.running, h.pages, h.room, h.live, nodup_nil, fun j slot hj => ?_, fun j hj => ?_,
    h.distinct, ?_, h.removed, h.lookups, trivial, Nat.zero_le _,
    fun j slot hj => absurd hj (Nat.not_lt_zero j)⟩
  · have hwf := h.slots j slot hj
    refine ⟨hwf.generation, ⟨nofun, fun hall => ?_⟩, hwf.exhausted, ?_,
      hwf.owned, fun p r hr hid => ?_⟩
    · exact absurd (Nat.zero_le j) hall.2.2
    · exact (hwf.shown_of_writer hw :)
    · exact (hwf.spent_of_writer hw hr hid :)
  · obtain ⟨hload, -, hfit, hrecords⟩ := h.outside j hj
    exact ⟨hload, not_mem_nil, hfit, hrecords⟩
  · exact (h.exposed_of_writer hw :)

/-- A bulk retirement ends. -/
theorem retiredAll (h : TableWf s) (hw : s.writer = some (.retiring i))
    (hend : s.table.slots[i]? = none) :
    TableWf { s with table := { s.table with liveBindings := 0 }, writer := none } := by
  have hpassed := h.passed
  rw [hw] at hpassed
  have hlength : s.table.slots.length ≤ i := List.getElem?_eq_none_iff.mp hend
  refine ⟨h.running, h.pages, h.room, Nat.zero_le _, h.nodup,
    h.slots_writer (fun j slot hj => ?_) 0, h.outside, h.distinct, ?_, h.removed, h.lookups, ?_,
    trivial⟩
  · have hlt := lt_length ⟨_, hj⟩
    rw [hw]
    refine ⟨fun _ => ⟨False.elim, fun hle => ?_⟩, rfl, False.elim⟩
    have hle : i ≤ j := hle
    omega
  · exact (h.exposed_of_writer hw :)
  · have hnone : s.held = 0 := by
      rw [held, countP_eq_zero]
      intro slot hslot
      obtain ⟨j, hj⟩ := mem_iff_getElem?.mp hslot
      have hlt := lt_length ⟨_, hj⟩
      rw [hpassed.2 j slot (by omega) hj]
      exact Bool.false_ne_true
    exact hnone.symm

/-- A published pointer is that of a record. -/
theorem record_of_load (h : TableWf s) (hload : s.table.published.load i = some p) :
    p < s.table.records.length := by
  cases hslot : s.table.slots[i]? with
  | none =>
    rw [(h.outside i (List.getElem?_eq_none_iff.mp hslot)).1] at hload
    cases hload
  | some slot =>
    have hwf := h.slots i slot hslot
    rw [hwf.shown] at hload
    have hwriter := h.writer
    have hrecord : slot.record = some p → p < s.table.records.length := by
      intro hp
      obtain ⟨r, hr, -⟩ := hwf.owned p hp
      exact (List.getElem_of_getElem? hr).1
    cases hw : s.writer with
    | none =>
      rw [hw] at hload
      exact hrecord hload
    | some w =>
      rw [hw] at hload hwriter
      cases w
      case owning j id =>
        simp only [shows] at hload
        split at hload
        · cases hload
        · exact hrecord hload
      case taken j q mode | marked j q mode =>
        simp only [shows] at hload
        split at hload
        · obtain ⟨-, -, generation, -, r, hr, -⟩ := hwriter
          cases hload
          exact (List.getElem_of_getElem? hr).1
        · exact hrecord hload
      all_goals exact hrecord hload

/-- Lookups come and go. -/
theorem with_lookups (h : TableWf s) {lookups : List Lookup}
    (hlookups : ∀ l ∈ lookups, LookupWf s.table.records l) : TableWf { s with lookups } :=
  { h with
    slots := fun i slot hslot =>
      have hwf := h.slots i slot hslot
      ⟨hwf.generation, hwf.free, hwf.exhausted, hwf.shown, hwf.owned, hwf.spent⟩
    lookups := hlookups }

end TableWf

-- ---- What a step can do.

open TableWf in
/-- **Inversion.** One constructor for each branch a step can take; none of them stops
the process. -/
inductive Stepped (s : BindingSystem) : BindingSystem → Prop
  | refused : Stepped s s
  | reservedReused {i : Nat} {ys : List Nat} {owner : BindingSlot} (hw : s.writer = none)
    (hfree : s.table.free = ys ++ [i]) (howner : s.table.slots[i]? = some owner)
    (hlive : s.table.liveBindings < s.table.maximumBindings.toNat) :
    Stepped s { s with
      table  := { s.table with free := ys }
      writer := some (.reserved i ⟨i, owner.nextGeneration⟩ .reused) }
  | reservedAppended (hw : s.writer = none)
    (hlive : s.table.liveBindings < s.table.maximumBindings.toNat)
    (hroom : s.table.slots.length < s.table.maximumBindings.toNat) :
    Stepped s { s with
      table  := { s.table with slots := s.table.slots ++ [⟨1, none⟩] }
      writer := some (.reserved s.table.slots.length ⟨s.table.slots.length, 1⟩ .appended) }
  | owning {i : Nat} {id : HandleId} {origin : ReservationOrigin} {slot : BindingSlot}
    (hw : s.writer = some (.reserved i id origin)) (hslot : s.table.slots[i]? = some slot)
    (object : Nat) :
    Stepped s { s with
      table  := { s.table with
        records := s.table.records ++ [⟨id, object, .live⟩]
        slots   := s.table.slots.set i { slot with record := some s.table.records.length } }
      writer := some (.owning i id) }
  | exposing {i p : Nat} {id : HandleId} (hw : s.writer = some (.owning i id))
    (hslot : (s.table.slots[i]?).bind (·.record) = some p) :
    Stepped s { s with
      table      := { s.table with published := s.table.published.store i (some p) }
      writer     := some (.exposed i)
      exposedIds := s.exposedIds ++ [id] }
  | counted {i : Nat} (hw : s.writer = some (.exposed i)) :
    Stepped s { s with
      table  := { s.table with liveBindings := s.table.liveBindings + 1 }
      writer := none }
  | removing {id : HandleId} {p : Nat} (hw : s.writer = none)
    (hslot : (s.table.slots[id.slot]?).bind (·.record) = some p) :
    Stepped s { s with writer := some (.removing id) }
  | droppedRemoval {id : HandleId} (hw : s.writer = some (.removing id)) :
    Stepped s { s with writer := none }
  | droppedReused {i : Nat} {id : HandleId} (hw : s.writer = some (.reserved i id .reused)) :
    Stepped s { s with
      table  := { s.table with free := s.table.free ++ [id.slot] }
      writer := none }
  | droppedAppended {i : Nat} {id : HandleId} (hw : s.writer = some (.reserved i id .appended)) :
    Stepped s { s with
      table  := { s.table with slots := s.table.slots.dropLast }
      writer := none }
  | taking {i generation p : Nat} {mode : Withdrawal}
    (hslot : s.table.slots[i]? = some ⟨generation, some p⟩)
    (hw : (∃ id : HandleId, s.writer = some (.removing id) ∧ id.slot = i ∧ mode = .removal) ∨
      s.writer = some (.retiring i) ∧ mode = .bulk) :
    Stepped s { s with
      table  := { s.table with slots := s.table.slots.set i ⟨generation, none⟩ }
      writer := some (.taken i p mode) }
  | marking {i p : Nat} {mode : Withdrawal} {r : BindingRecord}
    (hw : s.writer = some (.taken i p mode)) (hr : s.table.records[p]? = some r) :
    Stepped s { s with
      table   := { s.table with
        records := s.table.records.set p { r with state := .retired } }
      writer  := some (.marked i p mode)
      removed := s.removed ++ [r.id] }
  | withdrawing {i p : Nat} {mode : Withdrawal} (hw : s.writer = some (.marked i p mode)) :
    Stepped s { s with
      table  := { s.table with published := s.table.published.store i none }
      writer := some (.withdrawn i mode) }
  | recycled {i generation live : Nat} {w : Option Writer}
    (hslot : s.table.slots[i]? = some ⟨generation, none⟩)
    (hw : (s.writer = some (.withdrawn i .removal) ∧ w = none ∧ live + 1 = s.table.liveBindings) ∨
      ((s.writer = some (.withdrawn i .bulk) ∨ s.writer = some (.retiring i)) ∧
        w = some (.retiring (i + 1)) ∧ live = s.table.liveBindings)) :
    Stepped s (recycled s i ⟨generation, none⟩ w live)
  | retiringAll (hw : s.writer = none) :
    Stepped s { s with table := { s.table with free := [] }, writer := some (.retiring 0) }
  | retiredAll {i : Nat} (hw : s.writer = some (.retiring i)) (hend : s.table.slots[i]? = none) :
    Stepped s { s with table := { s.table with liveBindings := 0 }, writer := none }
  | looking {lookups : List Lookup} (hlookups : ∀ l ∈ lookups, LookupWf s.table.records l) :
    Stepped s { s with lookups }

namespace Stepped

variable {s s' : BindingSystem}

theorem of_reserve (h : TableWf s) (hw : s.writer = none) (overloaded : Bool) :
    Stepped s (s.reserve overloaded) := by
  unfold reserve
  simp only
  split
  · exact .refused
  split
  · exact .refused
  · rename_i hlive
    have hlive := Nat.lt_of_not_le hlive
    split
    · rename_i slot hlast
      obtain ⟨ys, hfree⟩ := getLast?_eq_some_iff.mp hlast
      have hmem : slot ∈ s.table.free := by
        rw [hfree]
        exact mem_append_right _ (mem_singleton.mpr rfl)
      split
      · rename_i hnone
        exact absurd hmem (h.outside slot (List.getElem?_eq_none_iff.mp hnone)).2.1
      · rename_i owner howner
        rw [hfree, dropLast_concat]
        exact .reservedReused hw hfree howner hlive
    · split
      · exact .refused
      · rename_i hroom
        exact .reservedAppended hw hlive (by omega)

theorem of_publish (h : TableWf s) {object : Nat} (hs : s.publish object = some s') :
    Stepped s s' := by
  unfold publish at hs
  split at hs
  · rename_i index id origin hw
    split at hs
    · rename_i hnone
      have hwriter := h.writer_of hw
      obtain ⟨-, -, -, generation, hslot, -⟩ := hwriter
      rw [hslot] at hnone
      cases hnone
    · rename_i slot hslot
      cases hs
      exact .owning hw hslot object
  · cases hs

theorem of_drop (h : TableWf s) (hs : s.drop = some s') : Stepped s s' := by
  unfold BindingSystem.drop at hs
  split at hs
  · rename_i index id hw
    split at hs
    · exact absurd ‹s.table.slots = []› (h.droppedAppended hw).1
    · cases hs
      exact .droppedAppended hw
  · rename_i index id hw
    cases hs
    exact .droppedReused hw
  · rename_i id hw
    cases hs
    exact .droppedRemoval hw
  · cases hs

theorem of_beginRemoval (hw : s.writer = none) (id : HandleId) : Stepped s (s.beginRemoval id) := by
  unfold beginRemoval
  split
  · exact .refused
  · rename_i pointer hslot
    split
    · exact .removing hw hslot
    · exact .refused

theorem of_commit (h : TableWf s) (hs : s.commit = some s') : Stepped s s' := by
  unfold commit at hs
  split at hs
  · rename_i id hw
    cases hs
    have hwriter := h.writer_of hw
    obtain ⟨-, generation, p, hslot⟩ := hwriter
    unfold BindingSystem.take
    rw [hslot]
    exact .taking hslot (.inl ⟨id, hw, rfl, rfl⟩)
  · cases hs

theorem of_proceed (h : TableWf s) (hs : s.proceed = some s') : Stepped s s' := by
  have hwriter := h.writer
  unfold proceed at hs
  split at hs
  case h_1 index id hw =>
    rw [hw] at hwriter
    obtain ⟨-, -, generation, p, hslot, -⟩ := hwriter
    have hrecord : (s.table.slots[index]?).bind (·.record) = some p := by
      rw [hslot]
      rfl
    simp only [hrecord, (h.exposing hw hrecord).1] at hs
    cases hs
    exact .exposing hw hrecord
  case h_2 index hw =>
    simp only [checkedAdd, if_pos (h.counted hw).1] at hs
    cases hs
    exact .counted hw
  case h_3 index pointer mode hw =>
    rw [hw] at hwriter
    obtain ⟨-, -, generation, -, r, hr, -⟩ := hwriter
    simp only [hr] at hs
    cases hs
    exact .marking hw hr
  case h_4 index pointer mode hw =>
    simp only [(h.withdrawing hw).1] at hs
    cases hs
    exact .withdrawing hw
  case h_5 index hw =>
    rw [hw] at hwriter
    obtain ⟨hheld, -, generation, hslot⟩ := hwriter
    have hpos : 0 < s.table.liveBindings := by
      rw [hheld rfl]
      exact Nat.succ_pos _
    obtain ⟨t, ht, -, heq⟩ := h.recycle_eq hslot .removal none (s.table.liveBindings - 1)
    simp only [ht, checkedAtomicDec_of_pos hpos] at hs
    cases hs
    exact heq ▸ .recycled hslot (.inl ⟨hw, rfl, Nat.sub_add_cancel hpos⟩)
  case h_6 index hw =>
    rw [hw] at hwriter
    obtain ⟨-, -, generation, hslot⟩ := hwriter
    obtain ⟨t, ht, hlive, heq⟩ :=
      h.recycle_eq hslot .bulk (some (.retiring (index + 1))) s.table.liveBindings
    simp only [ht] at hs
    cases hs
    rw [← hlive] at heq
    exact heq ▸ .recycled hslot (.inr ⟨.inl hw, rfl, hlive⟩)
  case h_7 index hw =>
    cases hslot : s.table.slots[index]? with
    | none =>
      simp only [hslot] at hs
      cases hs
      exact .retiredAll hw hslot
    | some slot =>
      obtain ⟨generation, record⟩ := slot
      simp only [hslot] at hs
      cases record with
      | none =>
        obtain ⟨t, ht, hlive, heq⟩ :=
          h.recycle_eq hslot .bulk (some (.retiring (index + 1))) s.table.liveBindings
        simp only [isSome_none, Bool.false_eq_true, if_false, ht] at hs
        cases hs
        rw [← hlive] at heq
        exact heq ▸ .recycled hslot (.inr ⟨.inr hw, rfl, hlive⟩)
      | some p =>
        simp only [isSome_some, if_true] at hs
        cases hs
        unfold BindingSystem.take
        rw [hslot]
        exact .taking hslot (.inr ⟨hw, rfl⟩)
  case h_8 => cases hs

theorem of_lookup (h : TableWf s) {n : Nat} (hs : s.lookup n = some s') : Stepped s s' := by
  unfold BindingSystem.lookup at hs
  simp only [bind_eq_bind, bind_eq_some_iff] at hs
  obtain ⟨l, hl, hs⟩ := hs
  have hgoto : ∀ pc : LookupPc, LookupWf s.table.records ⟨l.id, pc⟩ →
      Stepped s { s with lookups := s.lookups.set n ⟨l.id, pc⟩ } := by
    intro pc hpc
    refine .looking fun l' hl' => ?_
    rcases mem_or_eq_of_mem_set hl' with hl' | rfl
    · exact h.lookups l' hl'
    · exact hpc
  split at hs
  · split at hs
    · cases hs
      exact hgoto _ trivial
    · rename_i pointer hload
      cases hs
      exact hgoto _ (h.record_of_load hload)
  · simp only [bind_eq_some_iff] at hs
    obtain ⟨r, hr, hs⟩ := hs
    split at hs
    · rename_i hvalid
      cases hs
      exact hgoto _ ⟨r, hr, hvalid.1⟩
    · cases hs
      exact hgoto _ trivial
  · cases hs

theorem of_step (h : TableWf s) {action : BindingSystem.Action} (hs : s.step action = some s') :
    Stepped s s' := by
  unfold step at hs
  rw [if_neg (by rw [h.running]; exact Bool.false_ne_true)] at hs
  cases action with
  | reserve overloaded =>
    simp only at hs
    split at hs
    · cases hs
      exact of_reserve h (isNone_iff_eq_none.mp ‹_›) overloaded
    · cases hs
  | beginRemoval id =>
    simp only at hs
    split at hs
    · cases hs
      exact of_beginRemoval (isNone_iff_eq_none.mp ‹_›) id
    · cases hs
  | retireAll =>
    simp only at hs
    split at hs
    · cases hs
      exact .retiringAll (isNone_iff_eq_none.mp ‹_›)
    · cases hs
  | publish object => exact of_publish h hs
  | commit => exact of_commit h hs
  | drop => exact of_drop h hs
  | proceed => exact of_proceed h hs
  | startLookup id =>
    cases hs
    refine .looking fun l hl => ?_
    rcases mem_append.mp hl with hl | hl
    · exact h.lookups l hl
    · obtain rfl := mem_singleton.mp hl
      exact trivial
  | lookup n => exact of_lookup h hs

end Stepped

-- ---- Every step keeps the invariant.

namespace TableWf

variable {s s' : BindingSystem}

theorem stepped (h : TableWf s) (hs : Stepped s s') : TableWf s' := by
  cases hs
  case refused => exact h
  case reservedReused hw hfree howner hlive => exact h.reservedReused hw hfree howner hlive
  case reservedAppended hw hlive hroom => exact h.reservedAppended hw hlive hroom
  case owning hw hslot object => exact h.owning hw hslot object
  case exposing hw hslot => exact (h.exposing hw hslot).2
  case counted hw => exact (h.counted hw).2
  case removing hw hslot => exact h.removing hw hslot
  case droppedRemoval hw => exact h.droppedRemoval hw
  case droppedReused hw => exact h.droppedReused hw
  case droppedAppended hw => exact (h.droppedAppended hw).2
  case taking hslot hw =>
    rcases hw with ⟨id, hw, rfl, rfl⟩ | ⟨hw, rfl⟩
    · have hwriter := h.writer_of hw
      refine h.taking hslot (fun j hj => ?_) (fun j record => ?_) (fun j => ?_) ?_
        (fun _ => hwriter.1) nofun
      all_goals rw [hw]
      · exact ⟨False.elim, fun heq => hj heq⟩
      · rfl
      · exact False.elim
      · rfl
    · have hpassed := h.passed
      rw [hw] at hpassed
      refine h.taking hslot (fun j hj => ?_) (fun j record => ?_) (fun j => ?_) ?_
        nofun (fun _ => hpassed.2)
      all_goals rw [hw]
      · exact Iff.rfl
      · rfl
      · exact False.elim
      · rfl
  case marking hw hr => exact h.marking hw hr
  case withdrawing hw => exact (h.withdrawing hw).2
  case recycled hslot hw =>
    rcases hw with ⟨hw, rfl, hlive⟩ | ⟨hw, rfl, rfl⟩
    · exact h.recycledRemoval hw hslot hlive
    · exact h.recycledBulk hw hslot
  case retiringAll hw => exact h.retiringAll hw
  case retiredAll hw hend => exact h.retiredAll hw hend
  case looking hlookups => exact h.with_lookups hlookups

end TableWf

end Xlfn.Handle
