import Xlfn.Handle.BindingIdentity

/-!
# Xlfn — looking up a handle

* `Accounted` — a record is owned by its slot, or on its way out, or its identity was
  removed: a binding that is gone is one that `removed` lists.
-/

namespace Xlfn.Handle

open Lib Kernel List Option

-- ---- Where every record is.

/-- Every record is owned by its slot, has just been taken out of it, or was removed. -/
def Accounted (s : BindingSystem) : Prop :=
  ∀ (p : Nat) (r : BindingRecord), s.table.records[p]? = some r →
    (∃ slot, s.table.slots[r.id.slot]? = some slot ∧ slot.record = some p) ∨
    (∃ i mode, s.writer = some (.taken i p mode)) ∨ r.id ∈ s.removed

variable {i : Nat}

namespace Accounted

variable {s s' : BindingSystem}

theorem keep (h : Accounted s) (hrecords : s'.table.records = s.table.records)
    (hremoved : s'.removed = s.removed)
    (hslots : ∀ (j : Nat) (slot : BindingSlot) (p : Nat), s.table.slots[j]? = some slot →
      slot.record = some p → ∃ slot', s'.table.slots[j]? = some slot' ∧ slot'.record = some p)
    (hw : ∀ i p mode, s.writer ≠ some (.taken i p mode)) : Accounted s' := by
  intro p r hr
  rw [hrecords] at hr
  rcases h p r hr with ⟨slot, hslot, hrecord⟩ | ⟨i, mode, htaken⟩ | hremoved'
  · exact .inl (hslots _ slot p hslot hrecord)
  · exact absurd htaken (hw i p mode)
  · exact .inr (.inr (hremoved ▸ hremoved'))

theorem slots_of_set {generation : Nat} {slot' : BindingSlot}
    (hslot : s.table.slots[i]? = some ⟨generation, none⟩) (j : Nat) (slot : BindingSlot) (p : Nat)
    (hj : s.table.slots[j]? = some slot) (hp : slot.record = some p) :
    ∃ found, (s.table.slots.set i slot')[j]? = some found ∧ found.record = some p := by
  have hji : j ≠ i := by
    rintro rfl
    obtain rfl := some.inj (hslot.symm.trans hj)
    cases hp
  exact ⟨slot, (TableWf.slots_set hslot slot' j).trans ((if_neg hji).trans hj), hp⟩

theorem stepped (hwf : TableWf s) (h : Accounted s) (hs : Stepped s s') : Accounted s' := by
  have hsame : ∀ (j : Nat) (slot : BindingSlot) (p : Nat), s.table.slots[j]? = some slot →
      slot.record = some p → ∃ slot', s.table.slots[j]? = some slot' ∧ slot'.record = some p :=
    fun j slot p hslot hp => ⟨slot, hslot, hp⟩
  have hne : ∀ {w : Option Writer}, s.writer = w → (∀ i p mode, w ≠ some (.taken i p mode)) →
      ∀ i p mode, s.writer ≠ some (.taken i p mode) := by
    rintro w rfl hw
    exact hw
  cases hs
  case refused => exact h
  case reservedReused hw hfree howner hlive =>
    exact h.keep rfl rfl hsame (hne hw (by rintro i p mode ⟨⟩))
  case reservedAppended hw hlive hroom =>
    refine h.keep rfl rfl (fun j slot p hj hp => ⟨slot, ?_, hp⟩) (hne hw (by rintro i p mode ⟨⟩))
    exact (getElem?_append_left (List.getElem_of_getElem? hj).1).trans hj
  case owning i id origin slot hw hslot object =>
    have hwriter := hwf.writer
    rw [hw] at hwriter
    obtain ⟨-, -, -, generation, hempty, rfl, -⟩ := hwriter
    obtain rfl := some.inj (hslot.symm.trans hempty)
    intro p r hr
    rcases getElem?_append_singleton_cases hr with hr | ⟨rfl, rfl⟩
    · rcases h p r hr with ⟨found, hfound, hp⟩ | ⟨j, mode, htaken⟩ | hremoved
      · exact .inl (slots_of_set hslot _ found p hfound hp)
      · rw [hw] at htaken
        cases htaken
      · exact .inr (.inr hremoved)
    · exact .inl ⟨_, (TableWf.slots_set hslot _ _).trans (if_pos rfl), rfl⟩
  case exposing hw hslot => exact h.keep rfl rfl hsame (hne hw (by rintro i p mode ⟨⟩))
  case counted hw => exact h.keep rfl rfl hsame (hne hw (by rintro i p mode ⟨⟩))
  case removing hw hslot => exact h.keep rfl rfl hsame (hne hw (by rintro i p mode ⟨⟩))
  case droppedRemoval hw => exact h.keep rfl rfl hsame (hne hw (by rintro i p mode ⟨⟩))
  case droppedReused hw => exact h.keep rfl rfl hsame (hne hw (by rintro i p mode ⟨⟩))
  case droppedAppended i id hw =>
    refine h.keep rfl rfl (fun j slot p hj hp => ⟨slot, ?_, hp⟩) (hne hw (by rintro i p mode ⟨⟩))
    have hwriter := hwf.writer
    rw [hw] at hwriter
    obtain ⟨-, -, -, generation, hempty, -, hlast⟩ := hwriter
    obtain ⟨hlength, -⟩ := hlast rfl
    have hji : j ≠ i := by
      rintro rfl
      obtain rfl := some.inj (hempty.symm.trans hj)
      cases hp
    obtain ⟨hlt, hval⟩ := List.getElem_of_getElem? hj
    show s.table.slots.dropLast[j]? = some slot
    have hdrop : j < s.table.slots.dropLast.length := by
      rw [length_dropLast]
      omega
    rw [getElem?_eq_getElem hdrop, getElem_dropLast, hval]
  case taking i generation p mode hslot hw =>
    intro q r hr
    rcases h q r hr with ⟨found, hfound, hq⟩ | ⟨j, mode', htaken⟩ | hremoved
    · by_cases hji : r.id.slot = i
      · rw [hji] at hfound
        obtain rfl := some.inj (hslot.symm.trans hfound)
        obtain rfl : p = q := some.inj hq
        exact .inr (.inl ⟨i, mode, rfl⟩)
      · exact .inl ⟨found, (TableWf.slots_set hslot _ _).trans ((if_neg hji).trans hfound), hq⟩
    · rcases hw with ⟨id, hw, -⟩ | ⟨hw, -⟩ <;> rw [hw] at htaken <;> cases htaken
    · exact .inr (.inr hremoved)
  case marking i p mode r hw hr =>
    intro q r' hr'
    rcases getElem?_set_cases hr hr' with ⟨rfl, rfl⟩ | ⟨hqp, hr'⟩
    · exact .inr (.inr (mem_append_right _ (mem_singleton.mpr rfl)))
    · rcases h q r' hr' with hfound | ⟨j, mode', htaken⟩ | hremoved
      · exact .inl hfound
      · rw [hw] at htaken
        cases htaken
        exact absurd rfl hqp
      · exact .inr (.inr (mem_append_left _ hremoved))
  case withdrawing hw => exact h.keep rfl rfl hsame (hne hw (by rintro i p mode ⟨⟩))
  case recycled i generation live w hslot hw =>
    have hnot : ∀ j p mode, s.writer ≠ some (.taken j p mode) := by
      intro j p mode htaken
      rcases hw with ⟨hw, -⟩ | ⟨hw | hw, -⟩ <;> rw [hw] at htaken <;> cases htaken
    unfold TableWf.recycled BindingSlot.advance
    cases nextGeneration generation with
    | some next => exact h.keep rfl rfl (slots_of_set hslot) hnot
    | none => exact h.keep rfl rfl hsame hnot
  case retiringAll hw => exact h.keep rfl rfl hsame (hne hw (by rintro i p mode ⟨⟩))
  case retiredAll hw hend => exact h.keep rfl rfl hsame (hne hw (by rintro i p mode ⟨⟩))
  case looking hlookups => exact h

end Accounted

-- ---- Exhausted slots.

/-- The identities of a slot that were exposed. -/
def BindingSystem.exposedAt (s : BindingSystem) (i : Nat) : List HandleId :=
  s.exposedIds.filter fun id => id.slot = i

theorem Stepped.exhausted {s s' : BindingSystem} (hwf : TableWf s) (hs : Stepped s s')
    (hi : i ∈ s.exhausted) : i ∈ s'.exhausted ∧ s'.exposedAt i = s.exposedAt i := by
  cases hs
  case exposing j p id hw hslot =>
    refine ⟨hi, ?_⟩
    have hwriter := hwf.writer
    rw [hw] at hwriter
    obtain ⟨-, -, generation, q, hslot', rfl⟩ := hwriter
    have hne : j ≠ i := by
      rintro rfl
      cases ((hwf.slots j _ hslot').exhausted hi).1
    simp [BindingSystem.exposedAt, filter_append, hne]
  case recycled j generation live w hslot hw =>
    unfold TableWf.recycled BindingSlot.advance
    cases nextGeneration generation with
    | some next => exact ⟨hi, rfl⟩
    | none => exact ⟨mem_append_left _ hi, rfl⟩
  all_goals exact ⟨hi, rfl⟩

-- ---- What every interleaving has in common.

/-- The writer lock is free, or its holder has not begun to change the table. -/
def Writer.settled : Option Writer → Prop
  | none | some (.reserved _ _ _) | some (.removing _) => True
  | _ => False

namespace BindingSystem

variable {maximumBindings : UInt32} {s : BindingSystem}

theorem wf_of_reachable (h : Reachable BindingSystem.step (BindingSystem.new maximumBindings) s) :
    TableWf s ∧ Accounted s := by
  refine h.invariant (I := fun s => TableWf s ∧ Accounted s) (fun t action t' hinv hs => ?_) ?_
  · have hstepped := Stepped.of_step hinv.1 hs
    exact ⟨hinv.1.stepped hstepped, Accounted.stepped hinv.1 hinv.2 hstepped⟩
  · exact ⟨.new maximumBindings, fun p r hr => by cases hr⟩

/-- A lookup of an identity that was removed is answered with `StaleHandle`. -/
theorem lookup_of_removed (h : TableWf s) {n : Nat} {l : Lookup} {s' : BindingSystem}
    (hl : s.lookups[n]? = some l) (hremoved : l.id ∈ s.removed) (hs : s.lookup n = some s')
    (p : Nat) : s'.lookups[n]? ≠ some ⟨l.id, .answered (some p)⟩ := by
  have hset : ∀ pc : LookupPc, (s.lookups.set n ⟨l.id, pc⟩)[n]? = some ⟨l.id, pc⟩ :=
    fun pc => getElem?_set_self (List.getElem_of_getElem? hl).1
  obtain ⟨q, retired, hq, hid, hstate⟩ := h.removed l.id hremoved
  unfold lookup at hs
  simp only [hl, bind_eq_bind, bind_some] at hs
  intro hanswer
  split at hs
  · split at hs
    · cases hs
      rw [hset] at hanswer
      cases hanswer
    · cases hs
      rw [hset] at hanswer
      cases hanswer
  · rename_i pointer hpc
    simp only [bind_eq_some_iff] at hs
    obtain ⟨r, hr, hs⟩ := hs
    split at hs
    · rename_i hvalid
      -- The record found would be the one that was removed, and that one is retired.
      have hsame : pointer = q := by
        have hp : (s.table.records.map (·.id))[pointer]? = some l.id := by
          rw [getElem?_map, hr]
          exact congrArg some hvalid.1
        have hq' : (s.table.records.map (·.id))[q]? = some l.id := by
          rw [getElem?_map, hq]
          exact congrArg some hid
        exact (getElem?_inj (List.getElem_of_getElem? hp).1 h.distinct).mp
          (hp.trans hq'.symm)
      subst hsame
      obtain rfl := some.inj (hr.symm.trans hq)
      rw [hstate] at hvalid
      cases hvalid.2
    · cases hs
      rw [hset] at hanswer
      cases hanswer
  · cases hs

/-- A slot whose generations are used up exposes nothing more. -/
theorem exhausted_for_good (h : TableWf s) (hi : i ∈ s.exhausted) {actions : List Action}
    {t : BindingSystem} (hrun : run step s actions = some t) : t.exposedAt i = s.exposedAt i := by
  refine (run_invariant (I := fun t => TableWf t ∧ i ∈ t.exhausted ∧ t.exposedAt i = s.exposedAt i)
    (fun u action u' hinv hs => ?_) ⟨h, hi, rfl⟩ hrun).2.2
  have hstepped := Stepped.of_step hinv.1 hs
  obtain ⟨hmem, hsame⟩ := hstepped.exhausted hinv.1 hinv.2.1
  exact ⟨hinv.1.stepped hstepped, hmem, hsame.trans hinv.2.2⟩

theorem unexposed_of_free (h : TableWf s) {slot : BindingSlot}
    (hslot : s.table.slots[i]? = some slot) (hfree : i ∈ s.table.free) :
    (⟨i, slot.nextGeneration⟩ : HandleId) ∉ s.exposedIds := by
  intro hexposed
  have hwf := h.slots i slot hslot
  obtain ⟨hnone, hfit, hnot⟩ := hwf.free.mp hfree
  have hmem : (⟨i, slot.nextGeneration⟩ : HandleId) ∈ s.table.records.map (·.id) := by
    rw [h.exposed]
    exact mem_append_left _ hexposed
  obtain ⟨r, hr, hid⟩ := List.mem_map.mp hmem
  obtain ⟨p, hp⟩ := mem_iff_getElem?.mp hr
  obtain ⟨-, -, hspent⟩ := hwf.spent p r hp (by rw [hid])
  rcases hspent (by rw [hid]) with hcase | hcase | hcase
  · rw [hnone] at hcase
    cases hcase
  · exact hfit hcase
  · cases hw : s.writer with
    | none =>
      rw [hw] at hcase
      exact hcase
    | some w =>
      rw [hw] at hcase hnot
      cases w
      case taken j q mode | marked j q mode | withdrawn j mode =>
        obtain rfl : i = j := hcase
        cases mode
        · exact hnot rfl
        · exact hnot (Nat.le_refl i)
      all_goals exact hcase

/-- **No handle identity is used twice.** In every state reached by any interleaving of
reservations, publications, abandoned reservations, removals, `retire_all` and lookups:

* no identity was exposed twice, and a slot whose generations are used up exposes
  nothing more in any run;
* the free list has no duplicates and lists exactly the empty slots that can be used
  again and that the holder of the writer lock has not taken out; the identity such a
  slot gives next was never exposed;
* `live_bindings` is within the maximum, and it is the number of slots with a record
  where the holder of the lock has not begun to change the table;
* there, the published pointer of a slot is the record it owns, or null if it owns none;
* an exposed binding is owned by its slot, just being withdrawn, or removed; a lookup
  of a removed identity never answers with a binding, and one that answers found the
  only record that ever carried the identity;
* no `expect` fails and no `fail_stop` is reached. -/
theorem no_identity_reuse (h : Reachable BindingSystem.step (BindingSystem.new maximumBindings) s) :
    s.exposedIds.Nodup ∧
    (∀ i ∈ s.exhausted, (∃ slot, s.table.slots[i]? = some slot ∧ slot.record = none ∧
        slot.nextGeneration = u64Max) ∧
      ∀ (actions : List Action) (t : BindingSystem), run step s actions = some t →
        t.exposedAt i = s.exposedAt i) ∧
    s.table.free.Nodup ∧
    (∀ i, i ∈ s.table.free ↔ ∃ slot, s.table.slots[i]? = some slot ∧ slot.record = none ∧
      i ∉ s.exhausted ∧ ¬Writer.holds i s.writer) ∧
    (∀ i slot, s.table.slots[i]? = some slot → i ∈ s.table.free →
      (⟨i, slot.nextGeneration⟩ : HandleId) ∉ s.exposedIds) ∧
    s.table.liveBindings ≤ s.table.maximumBindings.toNat ∧
    (Writer.settled s.writer → s.table.liveBindings = s.held ∧
      ∀ i, s.table.published.load i = (s.table.slots[i]?).bind (·.record)) ∧
    (∀ id ∈ s.exposedIds, (∃ slot p r, s.table.slots[id.slot]? = some slot ∧
        slot.record = some p ∧ s.table.records[p]? = some r ∧ r.id = id) ∨
      (∃ i p mode, s.writer = some (.taken i p mode)) ∨ id ∈ s.removed) ∧
    (∀ (n : Nat) (l : Lookup) (s' : BindingSystem) (p : Nat), s.lookups[n]? = some l →
      l.id ∈ s.removed → s.lookup n = some s' →
      s'.lookups[n]? ≠ some ⟨l.id, .answered (some p)⟩) ∧
    (∀ (l : Lookup) (p : Nat), l ∈ s.lookups → l.pc = .answered (some p) →
      (∃ r, s.table.records[p]? = some r ∧ r.id = l.id) ∧
      ∀ (q : Nat) (r : BindingRecord), s.table.records[q]? = some r → r.id = l.id → q = p) ∧
    s.aborted = false := by
  obtain ⟨hwf, haccounted⟩ := wf_of_reachable h
  have hdistinct := hwf.distinct
  refine ⟨?_, fun i hi => ⟨?_, fun actions t hrun => exhausted_for_good hwf hi hrun⟩, hwf.nodup,
    fun i => ?_, fun i slot hslot hfree => unexposed_of_free hwf hslot hfree, hwf.live,
    fun hsettled => ?_, fun id hid => ?_, fun n l s' p hl hremoved hs =>
      lookup_of_removed hwf hl hremoved hs p, fun l p hl hpc => ?_, hwf.running⟩
  · rw [hwf.exposed] at hdistinct
    exact (nodup_append.mp hdistinct).1
  · cases hslot : s.table.slots[i]? with
    | none => exact absurd hi (hwf.outside i (List.getElem?_eq_none_iff.mp hslot)).2.2.1
    | some slot => exact ⟨slot, rfl, (hwf.slots i slot hslot).exhausted hi⟩
  · constructor
    · intro hmem
      cases hslot : s.table.slots[i]? with
      | none => exact absurd hmem (hwf.outside i (List.getElem?_eq_none_iff.mp hslot)).2.1
      | some slot => exact ⟨slot, rfl, (hwf.slots i slot hslot).free.mp hmem⟩
    · rintro ⟨slot, hslot, hall⟩
      exact (hwf.slots i slot hslot).free.mpr hall
  · have hwriter := hwf.writer
    have hshows : ∀ i record, Writer.shows i record s.writer = record := by
      intro i record
      cases hw : s.writer with
      | none => rfl
      | some w =>
        rw [hw] at hsettled
        cases w <;> first | rfl | exact hsettled.elim
    refine ⟨?_, fun i => ?_⟩
    · cases hw : s.writer with
      | none =>
        rw [hw] at hwriter
        exact hwriter
      | some w =>
        rw [hw] at hwriter hsettled
        cases w <;> first | exact hwriter.1 | exact hsettled.elim
    · cases hslot : s.table.slots[i]? with
      | none => exact (hwf.outside i (List.getElem?_eq_none_iff.mp hslot)).1
      | some slot => exact (hwf.slots i slot hslot).shown.trans (hshows i slot.record)
  · have hmem : id ∈ s.table.records.map (·.id) := by
      rw [hwf.exposed]
      exact mem_append_left _ hid
    obtain ⟨r, hr, rfl⟩ := List.mem_map.mp hmem
    obtain ⟨p, hp⟩ := mem_iff_getElem?.mp hr
    rcases haccounted p r hp with ⟨slot, hslot, hrecord⟩ | ⟨i, mode, htaken⟩ | hremoved
    · exact .inl ⟨slot, p, r, hslot, hrecord, hp, rfl⟩
    · exact .inr (.inl ⟨i, p, mode, htaken⟩)
    · exact .inr (.inr hremoved)
  · have hlookup := hwf.lookups l hl
    unfold LookupWf at hlookup
    rw [hpc] at hlookup
    obtain ⟨r, hr, hid⟩ := hlookup
    refine ⟨⟨r, hr, hid⟩, fun q r' hr' hid' => ?_⟩
    have hq : (s.table.records.map (·.id))[q]? = some l.id := by
      rw [getElem?_map, hr']
      exact congrArg some hid'
    have hp : (s.table.records.map (·.id))[p]? = some l.id := by
      rw [getElem?_map, hr]
      exact congrArg some hid
    exact (getElem?_inj (List.getElem_of_getElem? hq).1 hdistinct).mp (hq.trans hp.symm)

/-- Two bindings in a table of two; the first is removed while a reader has loaded its
pointer, its slot is reused, and the table is retired as a whole. -/
def reuseRun : List Action :=
  [.reserve false, .publish 10, .proceed, .proceed,
    .reserve false, .drop, .reserve false, .publish 11, .proceed, .proceed, .reserve false,
    .startLookup ⟨0, 1⟩, .lookup 0, .beginRemoval ⟨0, 1⟩, .commit, .proceed, .lookup 0,
    .proceed, .proceed, .reserve true, .reserve false, .publish 12, .proceed, .proceed,
    .startLookup ⟨0, 1⟩, .lookup 1, .lookup 1, .startLookup ⟨0, 2⟩, .lookup 2, .lookup 2,
    .retireAll, .proceed, .proceed, .proceed, .proceed, .proceed, .proceed, .proceed, .proceed,
    .proceed, .startLookup ⟨0, 2⟩, .lookup 3]

theorem no_identity_reuse_reuseRun : ∃ s, run step (BindingSystem.new 2) reuseRun = some s ∧
      s.exposedIds = [⟨0, 1⟩, ⟨1, 1⟩, ⟨0, 2⟩] ∧ s.exposedIds.Nodup ∧
      s.table.free = [0, 1] ∧ s.table.liveBindings = 0 ∧ s.aborted = false ∧
      s.lookups.map (·.pc) =
        [.answered none, .answered none, .answered (some 2), .answered none] := by
  have hrun : ((run step (BindingSystem.new 2) reuseRun).map fun s =>
      (s.exposedIds, s.table.free, s.table.liveBindings, s.lookups.map (·.pc))) =
      some ([⟨0, 1⟩, ⟨1, 1⟩, ⟨0, 2⟩], [0, 1], 0,
        [.answered none, .answered none, .answered (some 2), .answered none]) := by
    decide +kernel
  obtain ⟨s, hs, hval⟩ := map_eq_some_iff.mp hrun
  simp only [Prod.mk.injEq] at hval
  obtain ⟨hexposed, hfree, hlive, hlookups⟩ := hval
  obtain ⟨hnodup, -, -, -, -, -, -, -, -, -, hrunning⟩ := no_identity_reuse ⟨reuseRun, hs⟩
  exact ⟨s, hs, hexposed, hnodup, hfree, hlive, hrunning, hlookups⟩

end BindingSystem

end Xlfn.Handle
