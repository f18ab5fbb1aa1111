import Xlfn.Async.Cancellation

/-!
# Xlfn — the generations of a cancellation slot

A slot belongs to one source at a time, the one with the slot's generation. `Current` says
how the flags of that source and the fields of the slot go together; a source whose
generation has passed is dropped and has ended, and nothing it left behind can reach the
slot any more.

* `ScopeWf` — the invariant of slots, sources and free lists, kept by every step
  (`ScopeWf.step`).
* `Evolves` — what every step leaves alone: who a source is, that it has begun to end or
  has ended, and that generations only go up.
* `ReadOk` — a call of `is_cancelled` that began after the end of its source does not
  return `false`.
-/

namespace Xlfn.Async.Cancellation

open Lib Kernel CancellationRegistry Function List Option

-- ---- The invariant.

def Section.source : Section → Nat
  | .resetCancelled source | .resetDelivery source | .cancelling source | .releasing source =>
    source

/-- The source at the place `s`, and the slot that has its generation. -/
structure Current (s : Nat) (src : Source) (slot : CancellationSlot) : Prop where
  allocating : src.pc = .allocating →
    (slot.lock = some (.resetCancelled s) ∨
      slot.lock = some (.resetDelivery s) ∧ slot.cancelled = false) ∧
    src.begun = false ∧ src.ended = false ∧ src.starts = 0
  issued     : src.pc ≠ .allocating → slot.cancelled = src.ended
  fresh      : src.pc ≠ .allocating → src.begun = false → slot.delivery ≠ .canceled
  running    : src.pc ≠ .allocating → slot.delivery = .running →
    src.starts = 0 ∧ src.begun = false
  dropped    : src.pc = .dropped →
    src.begun = true ∧ (slot.lock = some (.releasing s) ∨ src.ended = true)
  busy       : src.pc ≠ .allocating → slot.lock ≠ none → src.begun = true
  releasing  : slot.lock = some (.releasing s) → src.pc = .dropped
  resetting  : slot.lock = some (.resetCancelled s) ∨ slot.lock = some (.resetDelivery s) →
    src.pc = .allocating

variable {slot : CancellationSlot} {src : Source}

/-- A source whose slot is being reset. -/
theorem Current.of_allocating {s : Nat} (hpc : src.pc = .allocating)
    (hlock : slot.lock = some (.resetCancelled s) ∨
      slot.lock = some (.resetDelivery s) ∧ slot.cancelled = false)
    (hfresh : src.begun = false ∧ src.ended = false ∧ src.starts = 0) : Current s src slot where
  allocating := fun _ => ⟨hlock, hfresh⟩
  issued := fun hissued => absurd hpc hissued
  fresh := fun hissued => absurd hpc hissued
  running := fun hissued => absurd hpc hissued
  dropped := fun hdropped => by cases hpc.symm.trans hdropped
  busy := fun hissued => absurd hpc hissued
  releasing := fun hreleasing => by
    rcases hlock with hlock | ⟨hlock, -⟩ <;> cases hlock.symm.trans hreleasing
  resetting := fun _ => hpc

/-- A live source in a slot nobody holds. -/
theorem Current.of_live {s : Nat} (hpc : src.pc = .live)
    (hslot : slot.cancelled = false ∧ slot.delivery = .running ∧ slot.lock = none)
    (hfresh : src.begun = false ∧ src.ended = false ∧ src.starts = 0) : Current s src slot where
  allocating := fun halloc => by cases hpc.symm.trans halloc
  issued := fun _ => hslot.1.trans hfresh.2.1.symm
  fresh := fun _ _ hcanceled => by cases hslot.2.1.symm.trans hcanceled
  running := fun _ _ => ⟨hfresh.2.2, hfresh.1⟩
  dropped := fun hdropped => by cases hpc.symm.trans hdropped
  busy := fun _ hbusy => absurd hslot.2.2 hbusy
  releasing := fun hreleasing => by cases hslot.2.2.symm.trans hreleasing
  resetting := fun hreset => by
    rcases hreset with hreset | hreset <;> cases hslot.2.2.symm.trans hreset

/-- What holds of a source. -/
structure SourceOk (slots : Nat → Option CancellationSlot) (s : Nat) (src : Source) : Prop where
  slot     : ∃ slot, slots src.slot = some slot ∧ src.generation ≤ slot.generation ∧
    (src.generation < slot.generation → src.pc = .dropped ∧ src.ended = true) ∧
    (src.generation = slot.generation → Current s src slot)
  ended    : src.ended = true → src.begun = true
  starts   : src.starts ≤ 1
  notLate  : src.lateStart = false

/-- The slot belongs to a source, which also holds its lock. -/
structure SlotOk (sources : List Source) (id : Nat) (slot : CancellationSlot) : Prop where
  same   : slot.waiters.generation = slot.generation
  holder : ∃ (s : Nat) (src : Source), sources[s]? = some src ∧ src.slot = id ∧
    src.generation = slot.generation ∧ ∀ held, slot.lock = some held → held.source = s

/-- The invariant of slots, sources and free lists. -/
structure ScopeWf (r : CancellationRegistry) : Prop where
  slots   : ∀ id slot, r.slots id = some slot → SlotOk r.sources id slot
  sources : ∀ (s : Nat) (src : Source), r.sources[s]? = some src → SourceOk r.slots s src
  unique  : ∀ (s s' : Nat) (src src' : Source), r.sources[s]? = some src →
    r.sources[s']? = some src' → src.slot = src'.slot → src.generation = src'.generation → s = s'
  nodup   : ∀ shard, (r.free shard).Nodup
  free    : ∀ shard, ∀ index ∈ r.free shard, shard < shards ∧
    ∃ slot, r.slots (slotId shard index) = some slot ∧ slot.lock = none ∧
      ∃ (s : Nat) (src : Source), r.sources[s]? = some src ∧ src.slot = slotId shard index ∧
        src.generation = slot.generation ∧ src.pc = .dropped
  unused  : ∀ shard index, shard < shards → r.lengths shard ≤ index →
    r.slots (slotId shard index) = none

/-- What a source stays and does not take back. -/
structure Source.Continues (src src' : Source) : Prop where
  slot       : src'.slot = src.slot
  generation : src'.generation = src.generation
  issued     : src.pc ≠ .allocating → src'.pc ≠ .allocating
  claimed    : src.claimed = true → src'.claimed = true
  begun      : src.begun = true → src'.begun = true
  ended      : src.ended = true → src'.ended = true

theorem Source.Continues.refl (src : Source) : src.Continues src :=
  ⟨rfl, rfl, fun hi => hi, fun hc => hc, fun hb => hb, fun he => he⟩

/-- A step of the registry, as far as slots and sources are concerned. -/
structure Evolves (r r' : CancellationRegistry) : Prop where
  wf      : ScopeWf r'
  sources : ∀ (s : Nat) (src : Source), r.sources[s]? = some src →
    ∃ src' : Source, r'.sources[s]? = some src' ∧ src.Continues src'
  slots   : ∀ id slot, r.slots id = some slot →
    ∃ slot', r'.slots id = some slot' ∧ slot.generation ≤ slot'.generation

variable {shard index : Nat}

/-- A slot's number tells its shard and its place. -/
theorem slotId_inj {shard' index' : Nat} (hs : shard < shards) (hs' : shard' < shards)
    (h : slotId shard index = slotId shard' index') : shard = shard' ∧ index = index' := by
  unfold slotId shards at *
  omega

theorem slotId_div_mod (id : Nat) : slotId (id % shards) (id / shards) = id := by
  rw [slotId, Nat.mul_comm]
  exact Nat.div_add_mod id shards

-- ---- One slot and its source change.

variable {held : Section}

namespace ScopeWf

variable {r r' : CancellationRegistry} {id s : Nat} {slot' : CancellationSlot} {src' : Source}

theorem new : ScopeWf CancellationRegistry.new where
  slots := fun id slot hslot => by cases hslot
  sources := fun s src hs => by cases hs
  unique := fun s s' src src' hs => by cases hs
  nodup := fun _ => nodup_nil
  free := fun shard index hindex => by cases hindex
  unused := fun _ _ _ _ => rfl

section

variable (h : ScopeWf r)
include h

/-- The slot of a source that passes the generation check. -/
theorem current (hs : r.sources[s]? = some src) (hslot : r.slots src.slot = some slot)
    (hgeneration : src.generation = slot.generation) : Current s src slot := by
  obtain ⟨slot', hslot', -, -, hcurrent⟩ := (h.sources s src hs).slot
  rw [hslot] at hslot'
  cases hslot'
  exact hcurrent hgeneration

/-- **A slot and its source change together.** All other sources are as they were. -/
theorem change (hs : r.sources[s]? = some src)
    (hslot : r.slots src.slot = some slot) (hgeneration : src.generation = slot.generation)
    (slot' : CancellationSlot) (src' : Source)
    (hslots : r'.slots = update r.slots src.slot (some slot'))
    (hsources : r'.sources = r.sources.set s src')
    (hrest : r'.free = r.free ∧ r'.lengths = r.lengths)
    (hkeep : slot'.generation = slot.generation ∧
      slot'.waiters.generation = slot.waiters.generation)
    (hcontinues : src.Continues src')
    (hlock : ∀ held, slot'.lock = some held → held.source = s)
    (hcurrent : Current s src' slot')
    (hsource : (src'.ended = true → src'.begun = true) ∧ src'.starts ≤ 1 ∧ src'.lateStart = false)
    (hfree : slot.lock = none → src.pc = .dropped → slot'.lock = none ∧ src'.pc = .dropped) :
    Evolves r r' := by
  have hself : r'.sources[s]? = some src' := by
    rw [hsources]
    exact getElem?_set_self (List.getElem_of_getElem? hs).1
  have hslot' : r'.slots src.slot = some slot' := by
    rw [hslots, update_self]
  refine ⟨⟨fun id slot'' hid => ?_, fun j srcj hj => ?_, fun i j srci srcj hi hj => ?_, ?_, ?_, ?_⟩,
    fun j srcj hj => ?_, fun id slot'' hid => ?_⟩
  · by_cases hne : id = src.slot
    · subst hne
      rw [hslot'] at hid
      cases hid
      refine ⟨?_, s, src', hself, hcontinues.slot, ?_, hlock⟩
      · rw [hkeep.1, hkeep.2]
        exact (h.slots src.slot slot hslot).same
      · rw [hcontinues.generation, hkeep.1]
        exact hgeneration
    · rw [hslots, update_of_ne hne] at hid
      obtain ⟨hsame', j, srcj, hj, hjslot, hjgeneration, hjlock⟩ := h.slots id slot'' hid
      refine ⟨hsame', j, srcj, ?_, hjslot, hjgeneration, hjlock⟩
      rw [hsources, getElem?_set_ne]
      · exact hj
      · rintro rfl
        rw [hs] at hj
        cases hj
        exact hne hjslot.symm
  · rw [hsources] at hj
    rcases getElem?_set_cases hs hj with ⟨rfl, rfl⟩ | ⟨hne, hj⟩
    · refine ⟨⟨slot', ?_, ?_, fun hlt => ?_, fun _ => hcurrent⟩, hsource.1, hsource.2.1, hsource.2.2⟩
      · rw [hcontinues.slot]
        exact hslot'
      · rw [hcontinues.generation, hkeep.1, hgeneration]
      · rw [hcontinues.generation, hkeep.1, hgeneration] at hlt
        exact absurd hlt (Nat.lt_irrefl _)
    · obtain ⟨⟨slotj, hslotj, hle, hstale, hcur⟩, hended, hstarts, hlate⟩ := h.sources j srcj hj
      refine ⟨?_, hended, hstarts, hlate⟩
      by_cases hid : srcj.slot = src.slot
      · -- The slot's generation is taken by the source that changes, so this one is stale.
        rw [hid, hslot] at hslotj
        cases hslotj
        have hne' : srcj.generation ≠ slot.generation := by
          intro heq
          exact hne (h.unique j s srcj src hj hs hid (heq.trans hgeneration.symm))
        refine ⟨slot', by rw [hid]; exact hslot', ?_, fun _ => hstale (by omega), fun heq => ?_⟩
        · rw [hkeep.1]
          exact hle
        · rw [hkeep.1] at heq
          exact absurd heq hne'
      · refine ⟨slotj, ?_, hle, hstale, hcur⟩
        rw [hslots, update_of_ne hid]
        exact hslotj
  · intro hslotij hgenij
    rw [hsources] at hi hj
    -- The identity of the changed source is the one it had.
    rcases getElem?_set_cases hs hi with ⟨rfl, rfl⟩ | ⟨-, hi'⟩ <;>
      rcases getElem?_set_cases hs hj with ⟨rfl, rfl⟩ | ⟨-, hj'⟩
    · rfl
    · exact h.unique i j src srcj hs hj' (hcontinues.slot ▸ hslotij) (hcontinues.generation ▸ hgenij)
    · exact h.unique i j srci src hi' hs (hslotij.trans hcontinues.slot)
        (hgenij.trans hcontinues.generation)
    · exact h.unique i j srci srcj hi' hj' hslotij hgenij
  · rw [hrest.1]
    exact h.nodup
  · intro shard index hindex
    rw [hrest.1] at hindex
    obtain ⟨hshard, slotf, hslotf, hlockf, j, srcj, hj, hjslot, hjgeneration, hdropped⟩ :=
      h.free shard index hindex
    refine ⟨hshard, ?_⟩
    by_cases hid : slotId shard index = src.slot
    · rw [hid, hslot] at hslotf
      cases hslotf
      have heq := h.unique j s srcj src hj hs (hjslot.trans hid) (hjgeneration.trans hgeneration.symm)
      subst heq
      rw [hs] at hj
      cases hj
      obtain ⟨hunlocked, hstill⟩ := hfree hlockf hdropped
      refine ⟨slot', by rw [hid]; exact hslot', hunlocked, j, src', hself, ?_, ?_, hstill⟩
      · rw [hcontinues.slot, hid]
      · rw [hcontinues.generation, hkeep.1]
        exact hgeneration
    · refine ⟨slotf, ?_, hlockf, j, srcj, ?_, hjslot, hjgeneration, hdropped⟩
      · rw [hslots, update_of_ne hid]
        exact hslotf
      · rw [hsources, getElem?_set_ne]
        · exact hj
        · rintro rfl
          rw [hs] at hj
          cases hj
          exact hid hjslot.symm
  · intro shard index hshard hindex
    rw [hrest.2] at hindex
    have hnone := h.unused shard index hshard hindex
    rw [hslots, update_of_ne]
    · exact hnone
    · rintro heq
      rw [heq, hslot] at hnone
      cases hnone
  · by_cases hne : s = j
    · subst hne
      rw [hs] at hj
      cases hj
      exact ⟨src', hself, hcontinues⟩
    · refine ⟨srcj, ?_, .refl srcj⟩
      rw [hsources, getElem?_set_ne hne]
      exact hj
  · by_cases hne : id = src.slot
    · subst hne
      rw [hslot] at hid
      cases hid
      exact ⟨slot', hslot', Nat.le_of_eq hkeep.1.symm⟩
    · refine ⟨slot'', ?_, Nat.le_refl _⟩
      rw [hslots, update_of_ne hne]
      exact hid

theorem quiet (hs : r.sources[s]? = some src)
    (hslot : r.slots src.slot = some slot) (hgeneration : slot.waiters.generation = src.generation)
    (waiters : SlotWaiters)
    (hslots : r'.slots = update r.slots src.slot (some { slot with waiters }))
    (hwaiters : waiters.generation = slot.waiters.generation)
    (hsources : r'.sources = r.sources) (hrest : r'.free = r.free ∧ r'.lengths = r.lengths) :
    Evolves r r' := by
  have hsame := (h.slots src.slot slot hslot).same
  have hgen : src.generation = slot.generation := hgeneration.symm.trans hsame
  have hcurrent := h.current hs hslot hgen
  obtain ⟨-, hended, hstarts, hlate⟩ := h.sources s src hs
  refine h.change hs hslot hgen { slot with waiters } src hslots ?_ hrest ⟨rfl, hwaiters⟩ (.refl src)
    (fun held hheld => ?_) ?_ ⟨hended, hstarts, hlate⟩ (fun hlock hpc => ⟨hlock, hpc⟩)
  · rw [hsources]
    obtain ⟨hlt, rfl⟩ := List.getElem_of_getElem? hs
    exact (set_getElem_self hlt).symm
  · obtain ⟨-, s', src', hs', hslot', hgen', hlock⟩ := h.slots src.slot slot hslot
    rw [h.unique s s' src src' hs hs' hslot'.symm (hgen.trans hgen'.symm)]
    exact hlock held hheld
  · exact { hcurrent with }

/-- The invariant speaks of slots, sources, free lists and lengths only. -/
theorem frame (hslots : r'.slots = r.slots) (hsources : r'.sources = r.sources)
    (hfree : r'.free = r.free) (hlengths : r'.lengths = r.lengths) : Evolves r r' := by
  refine ⟨?_, fun s src hs => ⟨src, ?_, .refl src⟩, fun id slot hslot => ⟨slot, ?_, Nat.le_refl _⟩⟩
  · obtain ⟨h1, h2, h3, h4, h5, h6⟩ := h
    rw [← hslots, ← hsources] at h1
    rw [← hslots, ← hsources] at h2
    rw [← hsources] at h3
    rw [← hfree] at h4
    rw [← hfree, ← hslots, ← hsources] at h5
    rw [← hslots, ← hlengths] at h6
    exact ⟨h1, h2, h3, h4, h5, h6⟩
  · rw [hsources]
    exact hs
  · rw [hslots]
    exact hslot

/-- **A source that is not dropped passes the generation check.** -/
theorem slot_of_live (hs : r.sources[s]? = some src) (hpc : src.pc ≠ .dropped) :
    ∃ slot, r.slots src.slot = some slot ∧ src.generation = slot.generation := by
  obtain ⟨slot, hslot, hle, hstale, -⟩ := (h.sources s src hs).slot
  refine ⟨slot, hslot, ?_⟩
  rcases Nat.lt_or_eq_of_le hle with hlt | heq
  · exact absurd (hstale hlt).1 hpc
  · exact heq

/-- A dropped source has begun, and has ended or is releasing. -/
theorem dropped (hs : r.sources[s]? = some src) (hpc : src.pc = .dropped) :
    src.begun = true ∧ (src.ended = true ∨
      ∃ slot, r.slots src.slot = some slot ∧ slot.lock = some (.releasing s)) := by
  obtain ⟨slot, hslot, hle, hstale, hcurrent⟩ := (h.sources s src hs).slot
  rcases Nat.lt_or_eq_of_le hle with hlt | heq
  · have hended := (hstale hlt).2
    exact ⟨(h.sources s src hs).ended hended, .inl hended⟩
  · obtain ⟨hbegun, hlock | hended⟩ := (hcurrent heq).dropped hpc
    · exact ⟨hbegun, .inr ⟨slot, hslot, hlock⟩⟩
    · exact ⟨hbegun, .inl hended⟩

/-- Whoever holds a slot is its current source. -/
theorem holder (hslot : r.slots id = some slot) (hlock : slot.lock = some held) :
    ∃ src, r.sources[held.source]? = some src ∧ src.slot = id ∧
      src.generation = slot.generation ∧ Current held.source src slot := by
  obtain ⟨-, s, src, hs, rfl, hgeneration, hheld⟩ := h.slots id slot hslot
  rw [hheld held hlock]
  exact ⟨src, hs, rfl, hgeneration, h.current hs hslot hgeneration⟩

-- ---- The steps.

/-- A cancellation or a drop begins. -/
theorem beginEnd (hs : r.sources[s]? = some src) (hlive : src.pc = .live) {pc : SourcePc}
    (hheld : (held = .cancelling s ∧ pc = .live) ∨ (held = .releasing s ∧ pc = .dropped))
    (hb : r.beginEnd s src held pc = some r') : Evolves r r' := by
  obtain ⟨slot, hslot, hgeneration⟩ := h.slot_of_live hs (by rw [hlive]; rintro ⟨⟩)
  have hsame := (h.slots src.slot slot hslot).same
  have hcurrent := h.current hs hslot hgeneration
  obtain ⟨-, -, hstarts, hlate⟩ := h.sources s src hs
  have hpc : src.pc ≠ .allocating := by
    rw [hlive]
    rintro ⟨⟩
  simp only [CancellationRegistry.beginEnd, hslot, bind_eq_bind, bind_some,
    bind_eq_some_iff, guard_eq_some', exists_const] at hb
  obtain ⟨hunlocked, hb⟩ := hb
  rw [if_neg (by rw [hsame, hgeneration]; exact fun hne => hne rfl)] at hb
  cases hb
  have hnotRunning : (if slot.delivery = .running then DeliveryState.canceled
      else slot.delivery) ≠ .running := by
    split
    · rintro ⟨⟩
    · assumption
  refine h.change hs hslot hgeneration (slot.beginCancel held) { src with pc, begun := true } rfl
    rfl ⟨rfl, rfl⟩ ⟨rfl, rfl⟩ ⟨rfl, rfl, fun _ => ?_, fun hc => hc, fun _ => rfl, fun he => he⟩
    (fun held' hheld' => ?_) ?_ ⟨fun _ => rfl, hstarts, hlate⟩ (fun _ hdropped => ?_)
  · rcases hheld with ⟨-, rfl⟩ | ⟨-, rfl⟩ <;> rintro ⟨⟩
  · cases hheld'
    rcases hheld with ⟨rfl, -⟩ | ⟨rfl, -⟩ <;> rfl
  · exact
      { allocating := fun halloc => by
          rcases hheld with ⟨-, rfl⟩ | ⟨-, rfl⟩ <;> cases halloc
        issued := fun _ => hcurrent.issued hpc
        fresh := nofun
        running := fun _ hrunning => absurd hrunning hnotRunning
        dropped := fun hdropped => by
          refine ⟨rfl, ?_⟩
          rcases hheld with ⟨-, rfl⟩ | ⟨rfl, -⟩
          · cases hdropped
          · exact .inl rfl
        busy := fun _ _ => rfl
        releasing := fun hreleasing => by
          rcases hheld with ⟨rfl, -⟩ | ⟨-, rfl⟩
          · cases hreleasing
          · rfl
        resetting := fun hreset => by
          rcases hheld with ⟨rfl, -⟩ | ⟨rfl, -⟩ <;> rcases hreset with hreset | hreset <;>
            cases hreset }
  · rw [hlive] at hdropped
    cases hdropped

/-- A cancellation or a drop ends. -/
theorem finishEnd (held : Section) (hslot : r.slots id = some slot) (hlock : slot.lock = some held)
    (hheld : held = .cancelling held.source ∨ held = .releasing held.source)
    (hs : r.sources[held.source]? = some src) :
    Evolves r (r.finishEnd id slot held.source src) := by
  obtain ⟨src', hs', rfl, hgeneration, hcurrent⟩ := h.holder hslot hlock
  rw [hs] at hs'
  cases hs'
  obtain ⟨-, -, hstarts, hlate⟩ := h.sources held.source src hs
  have hpc : src.pc ≠ .allocating := by
    intro halloc
    rcases (hcurrent.allocating halloc).1 with hreset | ⟨hreset, -⟩ <;>
    · rw [hlock] at hreset
      rw [some.inj hreset] at hheld
      rcases hheld with hheld | hheld <;> cases hheld
  have hbegun : src.begun = true := hcurrent.busy hpc (by rw [hlock]; rintro ⟨⟩)
  refine h.change hs hslot hgeneration slot.finishCancel { src with ended := true } rfl rfl
    ⟨rfl, rfl⟩ ⟨rfl, rfl⟩ { Source.Continues.refl src with ended := fun _ => rfl }
    (fun held' hheld' => by cases hheld') ?_ ⟨fun _ => hbegun, hstarts, hlate⟩
    (fun hunlocked _ => ?_)
  · exact
      { allocating := fun halloc => absurd halloc hpc
        issued := fun _ => rfl
        fresh := fun _ hfresh => by
          rw [hbegun] at hfresh
          cases hfresh
        running := fun _ hrunning => by
          have hfresh := (hcurrent.running hpc hrunning).2
          rw [hbegun] at hfresh
          cases hfresh
        dropped := fun _ => ⟨hbegun, .inr rfl⟩
        busy := fun _ _ => hbegun
        releasing := nofun
        resetting := fun hreset => by rcases hreset with hreset | hreset <;> cases hreset }
  · rw [hlock] at hunlocked
    cases hunlocked

/-- A released slot is free again. -/
theorem pushFree (hshard : shard < shards) (hnew : index ∉ r.free shard)
    (hslot : r.slots (slotId shard index) = some slot) (hlock : slot.lock = none)
    (hs : r.sources[s]? = some src)
    (hsrc : src.slot = slotId shard index ∧ src.generation = slot.generation ∧ src.pc = .dropped) :
    ScopeWf { r with free := update r.free shard (index :: r.free shard) } := by
  refine ⟨h.slots, h.sources, h.unique, fun shard' => ?_, fun shard' index' hindex => ?_, h.unused⟩
  · by_cases heq : shard' = shard
    · subst heq
      show (update r.free shard' (index :: r.free shard') shard').Nodup
      rw [update_self]
      exact nodup_cons.mpr ⟨hnew, h.nodup shard'⟩
    · show (update r.free shard (index :: r.free shard) shard').Nodup
      rw [update_of_ne heq]
      exact h.nodup shard'
  · change index' ∈ update r.free shard (index :: r.free shard) shard' at hindex
    by_cases heq : shard' = shard
    · subst heq
      rw [update_self] at hindex
      rcases mem_cons.mp hindex with rfl | hindex
      · exact ⟨hshard, slot, hslot, hlock, s, src, hs, hsrc⟩
      · exact h.free shard' index' hindex
    · rw [update_of_ne heq] at hindex
      exact h.free shard' index' hindex

theorem advance (ha : r.advance id = some r') : Evolves r r' := by
  simp only [CancellationRegistry.advance, bind_eq_bind, bind_eq_some_iff] at ha
  obtain ⟨slot, hslot, ha⟩ := ha
  cases hlock : slot.lock with
  | none =>
    rw [hlock] at ha
    cases ha
  | some held =>
    rw [hlock] at ha
    obtain ⟨src, hs, hid, hgeneration, hcurrent⟩ := h.holder hslot hlock
    obtain ⟨-, hended, hstarts, hlate⟩ := h.sources held.source src hs
    have hlocked : slot.lock ≠ none := by
      rw [hlock]
      rintro ⟨⟩
    cases held with
    | resetCancelled s =>
      cases ha
      subst hid
      have halloc := hcurrent.resetting (.inl hlock)
      obtain ⟨-, hbegun, hlive, hnone⟩ := hcurrent.allocating halloc
      refine h.change hs hslot hgeneration
        { slot with cancelled := false, lock := some (.resetDelivery s) } src rfl ?_ ⟨rfl, rfl⟩
        ⟨rfl, rfl⟩ (.refl src) (fun held hheld => ?_)
        (.of_allocating halloc (.inr ⟨rfl, rfl⟩) ⟨hbegun, hlive, hnone⟩) ⟨hended, hstarts, hlate⟩
        (fun hunlocked => absurd hunlocked hlocked)
      · obtain ⟨hlt, rfl⟩ := List.getElem_of_getElem? hs
        exact (set_getElem_self hlt).symm
      · cases hheld
        rfl
    | resetDelivery s =>
      simp only [Section.source] at hs
      dsimp only at ha
      rw [hs] at ha
      cases ha
      subst hid
      have halloc := hcurrent.resetting (.inr hlock)
      obtain ⟨hreset, hbegun, hlive, hnone⟩ := hcurrent.allocating halloc
      have hcancelled : slot.cancelled = false := by
        rcases hreset with hreset | ⟨-, hcancelled⟩
        · rw [hlock] at hreset
          cases hreset
        · exact hcancelled
      exact h.change hs hslot hgeneration { slot with delivery := .running, lock := none }
        { src with pc := .live } rfl rfl ⟨rfl, rfl⟩ ⟨rfl, rfl⟩
        { Source.Continues.refl src with issued := fun _ => nofun }
        (fun held hheld => by cases hheld)
        (.of_live rfl ⟨hcancelled, rfl, rfl⟩ ⟨hbegun, hlive, hnone⟩) ⟨hended, hstarts, hlate⟩
        (fun hunlocked => absurd hunlocked hlocked)
    | cancelling s =>
      simp only [Section.source] at hs
      dsimp only at ha
      rw [hs] at ha
      cases ha
      exact h.finishEnd (.cancelling s) hslot hlock (.inl rfl) hs
    | releasing s =>
      simp only [Section.source] at hs
      dsimp only at ha
      rw [hs] at ha
      have hfinish := h.finishEnd (.releasing s) hslot hlock (.inr rfl) hs
      simp only [bind_some] at ha
      split at ha
      case isFalse =>
        cases ha
        exact hfinish
      case isTrue hmore =>
        cases ha
        have hdropped := hcurrent.releasing hlock
        have hself : (r.finishEnd id slot s src).sources[s]? =
            some { src with ended := true } :=
          getElem?_set_self (List.getElem_of_getElem? hs).1
        have hslot' : (r.finishEnd id slot s src).slots (slotId (id % shards) (id / shards)) =
            some slot.finishCancel := by
          rw [slotId_div_mod]
          exact update_self ..
        refine ⟨hfinish.wf.pushFree (Nat.mod_lt _ (by decide)) (fun hmem => ?_) hslot' rfl hself
          ⟨?_, hgeneration, hdropped⟩, hfinish.sources, hfinish.slots⟩
        · -- A slot in the free list is not locked.
          obtain ⟨-, slot', hslot', hunlocked, -⟩ := h.free (id % shards) (id / shards) hmem
          rw [slotId_div_mod, hslot] at hslot'
          cases hslot'
          exact hlocked hunlocked
        · rw [slotId_div_mod]
          exact hid

/-- **A source is issued**, with a new slot or the next generation of a slot whose sources
have all been dropped. -/
theorem issue (slot' : CancellationSlot) (src' : Source)
    (hslots : r'.slots = update r.slots src'.slot (some slot'))
    (hsources : r'.sources = r.sources ++ [src'])
    (hgeneration : src'.generation = slot'.generation ∧ slot'.waiters.generation = slot'.generation)
    (hsource : src'.ended = false ∧ src'.starts = 0 ∧ src'.lateStart = false)
    (hlock : ∀ held, slot'.lock = some held → held.source = r.sources.length)
    (hcurrent : Current r.sources.length src' slot')
    (hslot : ∀ slot, r.slots src'.slot = some slot → slot.generation < slot'.generation)
    (hpast : ∀ (s : Nat) (src : Source), r.sources[s]? = some src → src.slot = src'.slot →
      src.pc = .dropped ∧ src.ended = true)
    (hnodup : ∀ shard, (r'.free shard).Nodup)
    (hfree : ∀ shard, ∀ index ∈ r'.free shard, index ∈ r.free shard ∧
      slotId shard index ≠ src'.slot)
    (hunused : ∀ shard index, shard < shards → r'.lengths shard ≤ index →
      r.lengths shard ≤ index ∧ slotId shard index ≠ src'.slot) : Evolves r r' := by
  have hkeep {s : Nat} {src : Source} (hs : r.sources[s]? = some src) :
      r'.sources[s]? = some src := by
    rw [hsources, getElem?_append_left (List.getElem_of_getElem? hs).1]
    exact hs
  have hlast : r'.sources[r.sources.length]? = some src' := by
    rw [hsources, getElem?_append_right (Nat.le_refl _), Nat.sub_self]
    rfl
  have hself : r'.slots src'.slot = some slot' := by
    rw [hslots, update_self]
  have hother {id : Nat} (hne : id ≠ src'.slot) : r'.slots id = r.slots id := by
    rw [hslots, update_of_ne hne]
  have hstale {s : Nat} {src : Source} (hs : r.sources[s]? = some src)
      (hid : src.slot = src'.slot) : src.generation < slot'.generation := by
    obtain ⟨slot, hold, hle, -⟩ := (h.sources s src hs).slot
    exact Nat.lt_of_le_of_lt hle (hslot slot (hid ▸ hold))
  refine ⟨⟨fun id slot hid => ?_, fun s src hs => ?_, fun s s' src src'' hs hs' hid hgen => ?_,
    hnodup, fun shard index hindex => ?_, fun shard index hshard hindex => ?_⟩,
    fun s src hs => ⟨src, hkeep hs, .refl src⟩, fun id slot hid => ?_⟩
  · by_cases hne : id = src'.slot
    · subst hne
      cases hself.symm.trans hid
      exact ⟨hgeneration.2, r.sources.length, src', hlast, rfl, hgeneration.1, hlock⟩
    · rw [hother hne] at hid
      obtain ⟨hsame, s, src, hs, hsrc⟩ := h.slots id slot hid
      exact ⟨hsame, s, src, hkeep hs, hsrc⟩
  · rw [hsources] at hs
    rcases getElem?_append_singleton_cases hs with hs | ⟨rfl, rfl⟩
    · obtain ⟨⟨slot, hold, hle, hstale', hcur⟩, hrest⟩ := h.sources s src hs
      by_cases hid : src.slot = src'.slot
      · have hlt := hstale hs hid
        exact ⟨⟨slot', hid ▸ hself, Nat.le_of_lt hlt, fun _ => hpast s src hs hid,
          fun heq => absurd heq (Nat.ne_of_lt hlt)⟩, hrest, ‹_›, ‹_›⟩
      · exact ⟨⟨slot, (hother hid).trans hold, hle, hstale', hcur⟩, hrest, ‹_›, ‹_›⟩
    · refine ⟨⟨slot', hself, Nat.le_of_eq hgeneration.1, fun hlt => ?_, fun _ => hcurrent⟩,
        fun hended => ?_, ?_, hsource.2.2⟩
      · exact absurd hgeneration.1 (Nat.ne_of_lt hlt)
      · cases hsource.1.symm.trans hended
      · rw [hsource.2.1]
        exact Nat.zero_le 1
  · rw [hsources] at hs hs'
    rcases getElem?_append_singleton_cases hs with hi | ⟨rfl, rfl⟩ <;>
      rcases getElem?_append_singleton_cases hs' with hj | ⟨rfl, rfl⟩
    · exact h.unique s s' src src'' hi hj hid hgen
    · exact absurd (hgen.trans hgeneration.1) (Nat.ne_of_lt (hstale hi hid))
    · exact absurd (hgen.symm.trans hgeneration.1) (Nat.ne_of_lt (hstale hj hid.symm))
    · rfl
  · obtain ⟨hold, hne⟩ := hfree shard index hindex
    obtain ⟨hshard, slot, hslot', hunlocked, s, src, hs, hsrc⟩ := h.free shard index hold
    exact ⟨hshard, slot, (hother hne).trans hslot', hunlocked, s, src, hkeep hs, hsrc⟩
  · obtain ⟨hold, hne⟩ := hunused shard index hshard hindex
    exact (hother hne).trans (h.unused shard index hshard hold)
  · by_cases hne : id = src'.slot
    · subst hne
      exact ⟨slot', hself, Nat.le_of_lt (hslot slot hid)⟩
    · exact ⟨slot, (hother hne).trans hid, Nat.le_refl _⟩

/-- A free slot is nobody's. -/
theorem dropped_of_free (hfree : index ∈ r.free shard)
    (hs : r.sources[s]? = some src) (hid : src.slot = slotId shard index) :
    src.pc = .dropped ∧ src.ended = true := by
  obtain ⟨-, slot, hslot, hunlocked, s₀, src₀, hs₀, hslot₀, hgeneration₀, hdropped₀⟩ :=
    h.free shard index hfree
  obtain ⟨slot', hslot', hle, hstale, -⟩ := (h.sources s src hs).slot
  cases hslot.symm.trans (hid ▸ hslot')
  rcases Nat.lt_or_eq_of_le hle with hlt | heq
  · exact hstale hlt
  · cases h.unique s s₀ src src₀ hs hs₀ (hid.trans hslot₀.symm) (heq.trans hgeneration₀.symm)
    cases hs.symm.trans hs₀
    have hcurrent := h.current hs₀ (hslot₀ ▸ hslot) hgeneration₀
    refine ⟨hdropped₀, (hcurrent.dropped hdropped₀).2.resolve_left ?_⟩
    rw [hunlocked]
    rintro ⟨⟩

/-- A source in a slot used before. -/
theorem allocateReused {free : List Nat} (hshard : shard < shards)
    (hfree : r.free shard = index :: free) (hslot : r.slots (slotId shard index) = some slot) :
    Evolves r { (r.setSlot (slotId shard index) (slot.reuse r.sources.length)) with
      free := update r.free shard free
      sources := r.sources ++
        [⟨slotId shard index, slot.waiters.generation + 1, .allocating, false, false, false, 0,
          false⟩] } := by
  have hsame := (h.slots _ slot hslot).same
  have hnodup := h.nodup shard
  rw [hfree] at hnodup
  refine h.issue (slot.reuse r.sources.length) _ rfl rfl ⟨rfl, rfl⟩ ⟨rfl, rfl, rfl⟩
    (fun held hheld => ?_) (.of_allocating rfl (.inl rfl) ⟨rfl, rfl, rfl⟩)
    (fun slot' hslot' => ?_)
    (fun _ _ hs hid => h.dropped_of_free (hfree ▸ mem_cons_self) hs hid) (fun shard' => ?_)
    (fun shard' index' hindex => ?_) (fun shard' index' hshard' hindex => ⟨hindex, fun hid => ?_⟩)
  · cases hheld
    rfl
  · cases hslot.symm.trans hslot'
    show slot.generation < slot.waiters.generation + 1
    omega
  · dsimp only
    by_cases heq : shard' = shard
    · subst heq
      rw [update_self]
      exact (nodup_cons.mp hnodup).2
    · rw [update_of_ne heq]
      exact h.nodup shard'
  · dsimp only at hindex
    by_cases heq : shard' = shard
    · subst heq
      rw [update_self] at hindex
      refine ⟨by rw [hfree]; exact mem_cons_of_mem _ hindex, fun hid => ?_⟩
      obtain ⟨-, rfl⟩ := slotId_inj hshard hshard hid
      exact (nodup_cons.mp hnodup).1 hindex
    · rw [update_of_ne heq] at hindex
      exact ⟨hindex, fun hid => heq (slotId_inj (h.free shard' index' hindex).1 hshard hid).1⟩
  · cases hslot.symm.trans (hid ▸ h.unused shard' index' hshard' hindex)

/-- A source in a new slot. -/
theorem allocateNew (hshard : shard < shards) :
    Evolves r { (r.setSlot (slotId shard (r.lengths shard)) .new) with
      lengths := update r.lengths shard (r.lengths shard + 1)
      sources := r.sources ++
        [⟨slotId shard (r.lengths shard), 1, .live, false, false, false, 0, false⟩] } := by
  have hnone := h.unused shard (r.lengths shard) hshard (Nat.le_refl _)
  refine h.issue .new _ rfl rfl ⟨rfl, rfl⟩ ⟨rfl, rfl, rfl⟩ (fun held hheld => by cases hheld)
    (.of_live rfl ⟨rfl, rfl, rfl⟩ ⟨rfl, rfl, rfl⟩) (fun slot hslot => ?_) (fun s src hs hid => ?_)
    h.nodup (fun shard' index hindex => ⟨hindex, fun hid => ?_⟩)
    (fun shard' index hshard' hindex => ?_)
  · cases hnone.symm.trans hslot
  · obtain ⟨slot, hslot, -⟩ := (h.sources s src hs).slot
    cases hnone.symm.trans (hid ▸ hslot)
  · obtain ⟨-, slot, hslot, -⟩ := h.free shard' index hindex
    cases hnone.symm.trans (hid ▸ hslot)
  · dsimp only at hindex
    by_cases heq : shard' = shard
    · subst heq
      rw [update_self] at hindex
      refine ⟨by omega, fun hid => ?_⟩
      have heq := (slotId_inj hshard hshard hid).2
      omega
    · rw [update_of_ne heq] at hindex
      exact ⟨hindex, fun hid => heq (slotId_inj hshard' hshard hid).1⟩

theorem allocate (hshard : shard < shards) (ha : r.allocate shard = some r') : Evolves r r' := by
  rw [CancellationRegistry.allocate] at ha
  split at ha
  case h_1 index free hfree =>
    simp only [bind_eq_bind, bind_eq_some_iff, guard_eq_some', exists_const] at ha
    obtain ⟨slot, hslot, -, ha⟩ := ha
    cases ha
    exact h.allocateReused hshard hfree hslot
  case h_2 =>
    split at ha
    case isFalse => cases ha
    case isTrue =>
      cases ha
      exact h.allocateNew hshard

/-- A section of a token, as long as its generation is the slot's, that only changes the
delivery state. -/
theorem deliver (hs : r.sources[s]? = some src)
    (hslot : r.slots src.slot = some slot) (hpc : src.pc ≠ .allocating) (hlock : slot.lock = none)
    (hgeneration : slot.waiters.generation = src.generation) (delivery : DeliveryState)
    (src' : Source) (hsame : src' = { src with starts := src'.starts, lateStart := src'.lateStart })
    (hdelivery : delivery ≠ .running ∧ delivery ≠ .canceled)
    (hstarts : src'.starts ≤ 1 ∧ src'.lateStart = false) :
    Evolves r ((r.setSlot src.slot { slot with delivery }).setSource s src') := by
  have hgen : src.generation = slot.generation :=
    hgeneration.symm.trans (h.slots src.slot slot hslot).same
  have hcurrent := h.current hs hslot hgen
  obtain ⟨-, hended, -, -⟩ := h.sources s src hs
  rw [hsame]
  refine h.change hs hslot hgen { slot with delivery } _ rfl rfl ⟨rfl, rfl⟩ ⟨rfl, rfl⟩
    { Source.Continues.refl src with } (fun held hheld => ?_) ?_ ⟨hended, hstarts⟩
    (fun hunlocked hdropped => ⟨hunlocked, hdropped⟩)
  · change slot.lock = some held at hheld
    rw [hlock] at hheld
    cases hheld
  · exact
      { allocating := fun halloc => absurd halloc hpc
        issued := hcurrent.issued
        fresh := fun _ _ => hdelivery.2
        running := fun _ hrunning => absurd hrunning hdelivery.1
        dropped := hcurrent.dropped
        busy := hcurrent.busy
        releasing := hcurrent.releasing
        resetting := hcurrent.resetting }

/-- A delivery starts. -/
theorem tryStartDelivery (ht : r.tryStartDelivery s = some r') : Evolves r r' := by
  simp only [CancellationRegistry.tryStartDelivery, bind_eq_bind, bind_eq_some_iff,
    guard_eq_some', exists_const] at ht
  obtain ⟨src, hs, slot, hslot, ⟨hpc, hlock⟩, ht⟩ := ht
  split at ht
  case isTrue hready =>
    cases ht
    have hgen : src.generation = slot.generation :=
      hready.1.symm.trans (h.slots src.slot slot hslot).same
    obtain ⟨hnone, hbegun⟩ := (h.current hs hslot hgen).running hpc hready.2
    have hlate := (h.sources s src hs).notLate
    refine h.deliver hs hslot hpc hlock hready.1 .delivering _ rfl ⟨nofun, nofun⟩
      ⟨?_, ?_⟩
    · rw [hnone]
    · rw [hlate, hbegun]
      rfl
  case isFalse =>
    cases ht
    exact h.frame rfl rfl rfl rfl

/-- A delivery ends. -/
theorem finishDelivery (hf : r.finishDelivery s = some r') : Evolves r r' := by
  simp only [CancellationRegistry.finishDelivery, bind_eq_bind, bind_eq_some_iff,
    guard_eq_some', exists_const] at hf
  obtain ⟨src, hs, slot, hslot, ⟨hpc, hlock⟩, hf⟩ := hf
  split at hf
  case isTrue hready =>
    cases hf
    obtain ⟨-, -, hstarts, hlate⟩ := h.sources s src hs
    have hset : r.sources.set s src = r.sources := by
      obtain ⟨hlt, rfl⟩ := List.getElem_of_getElem? hs
      exact set_getElem_self hlt
    have hdeliver := h.deliver hs hslot hpc hlock hready.1 .done src rfl
      ⟨nofun, nofun⟩ ⟨hstarts, hlate⟩
    rw [setSource, setSlot] at hdeliver
    dsimp only at hdeliver
    rw [hset] at hdeliver
    exact hdeliver
  case isFalse =>
    cases hf
    exact h.frame rfl rfl rfl rfl

end

end ScopeWf

/-- What a step of a future or a registration does to slots and sources: nothing, or it
changes the wakers of the slot of its source, if the slot has its generation. -/
inductive Touches (r r' : CancellationRegistry) (src : Source) : Prop where
  | nothing (hslots : r'.slots = r.slots) (hsources : r'.sources = r.sources)
      (hfree : r'.free = r.free) (hlengths : r'.lengths = r.lengths)
  | waiters {slot : CancellationSlot} (hslot : r.slots src.slot = some slot)
      (hgeneration : slot.waiters.generation = src.generation) (waiters : SlotWaiters)
      (hslots : r'.slots = Function.update r.slots src.slot (some { slot with waiters }))
      (hwaiters : waiters.generation = slot.waiters.generation)
      (hsources : r'.sources = r.sources) (hfree : r'.free = r.free)
      (hlengths : r'.lengths = r.lengths)

section Touches

variable {r r' : CancellationRegistry} {clone : Nat}

theorem Touches.of_lockWaiter {waiter waker : Nat} {w : Waiter}
    (hslot : r.slots src.slot = some slot)
    (hl : r.lockWaiter waiter w src slot waker clone = some r') : Touches r r' src := by
  rw [lockWaiter] at hl
  split at hl
  case isTrue =>
    cases hl
    exact .nothing rfl rfl rfl rfl
  case isFalse hgeneration =>
    have hgeneration : slot.waiters.generation = src.generation := not_not.mp hgeneration
    split at hl
    case isTrue =>
      cases hl
      exact .waiters hslot hgeneration _ rfl rfl rfl rfl rfl
    case isFalse =>
      simp only [bind_eq_bind, bind_eq_some_iff, guard_eq_some', exists_const] at hl
      obtain ⟨-, hl⟩ := hl
      split at hl
      case isTrue =>
        cases hl
        exact .waiters hslot hgeneration _ rfl rfl rfl rfl rfl
      case isFalse =>
        cases hl
        exact .waiters hslot hgeneration _ rfl rfl rfl rfl rfl

/-- A poll touches the slot of its source only. -/
theorem Touches.of_pollStep {waiter : Nat} (hp : r.pollStep waiter clone = some r') :
    ∃ (w : Waiter) (src : Source), r.waiters[waiter]? = some w ∧
      r.sources[w.source]? = some src ∧ Touches r r' src := by
  simp only [CancellationRegistry.pollStep, bind_eq_bind, bind_eq_some_iff] at hp
  obtain ⟨w, hw, src, hs, slot, hslot, hp⟩ := hp
  refine ⟨w, src, hw, hs, ?_⟩
  split at hp
  case h_1 =>
    split at hp
    case h_1 =>
      split at hp <;>
      · cases hp
        exact .nothing rfl rfl rfl rfl
    case h_2 =>
      split at hp <;>
      · cases hp
        exact .nothing rfl rfl rfl rfl
    case h_3 =>
      cases hp
      exact .nothing rfl rfl rfl rfl
  case h_2 =>
    simp only [bind_eq_some_iff, guard_eq_some', exists_const] at hp
    obtain ⟨-, hp⟩ := hp
    cases hp
    rw [unregister]
    split
    case isTrue hgeneration => exact .waiters hslot hgeneration _ rfl rfl rfl rfl rfl
    case isFalse => exact .nothing rfl rfl rfl rfl
  case h_3 =>
    cases hp
    exact .nothing rfl rfl rfl rfl
  case h_4 =>
    simp only [bind_eq_some_iff, guard_eq_some', exists_const] at hp
    exact .of_lockWaiter hslot hp.2
  case h_5 =>
    cases hp
    exact .nothing rfl rfl rfl rfl
  case h_6 => cases hp
  case h_7 => cases hp

/-- So does a registered task. -/
theorem Touches.of_taskStep {registration : Nat} (ht : r.taskStep registration clone = some r') :
    ∃ (t : Registration) (src : Source), r.registrations[registration]? = some t ∧
      r.sources[t.source]? = some src ∧ Touches r r' src := by
  simp only [CancellationRegistry.taskStep, bind_eq_bind, bind_eq_some_iff] at ht
  obtain ⟨t, hreg, src, hs, slot, hslot, ht⟩ := ht
  refine ⟨t, src, hreg, hs, ?_⟩
  split at ht
  case h_1 =>
    split at ht
    case h_1 =>
      cases ht
      exact .nothing rfl rfl rfl rfl
    case h_2 =>
      split at ht <;>
      · cases ht
        exact .nothing rfl rfl rfl rfl
    case h_3 =>
      cases ht
      exact .nothing rfl rfl rfl rfl
  case h_2 =>
    simp only [bind_eq_some_iff, guard_eq_some', exists_const] at ht
    obtain ⟨-, ht⟩ := ht
    cases ht
    rw [lockTask]
    split
    case isTrue => exact .nothing rfl rfl rfl rfl
    case isFalse =>
      split
      case isTrue => exact .nothing rfl rfl rfl rfl
      case isFalse => exact .nothing rfl rfl rfl rfl
  case h_3 =>
    cases ht
    exact .nothing rfl rfl rfl rfl
  case h_4 =>
    simp only [bind_eq_some_iff, guard_eq_some', exists_const] at ht
    obtain ⟨-, ht⟩ := ht
    cases ht
    rw [relockTask]
    split
    case isTrue => exact .nothing rfl rfl rfl rfl
    case isFalse hgeneration =>
      rw [not_or, ne_eq, not_not] at hgeneration
      exact .waiters hslot hgeneration.1 _ rfl rfl rfl rfl rfl
  case h_5 =>
    split at ht <;>
    · cases ht
      exact .nothing rfl rfl rfl rfl
  case h_6 => cases ht
  case h_7 => cases ht

/-- So does the drop of one. -/
theorem Touches.of_dropTask {registration : Nat} (hd : r.dropTask registration = some r') :
    ∃ (t : Registration) (src : Source), r.registrations[registration]? = some t ∧
      r.sources[t.source]? = some src ∧ Touches r r' src := by
  simp only [CancellationRegistry.dropTask, bind_eq_bind, bind_eq_some_iff,
    guard_eq_some', exists_const] at hd
  obtain ⟨t, hreg, src, hs, slot, hslot, -, hd⟩ := hd
  refine ⟨t, src, hreg, hs, ?_⟩
  split at hd
  case isTrue hgeneration =>
    cases hd
    exact .waiters hslot hgeneration _ rfl rfl rfl rfl rfl
  case isFalse =>
    cases hd
    exact .nothing rfl rfl rfl rfl

end Touches

variable {action : Action}

namespace ScopeWf

variable {r r' : CancellationRegistry} {s : Nat}

/-- Touching the waiters of a slot keeps the sources apart. -/
theorem touches (h : ScopeWf r) (hs : r.sources[s]? = some src) (ht : Touches r r' src) :
    Evolves r r' := by
  cases ht with
  | nothing hslots hsources hfree hlengths => exact h.frame hslots hsources hfree hlengths
  | waiters hslot hgeneration waiters hslots hwaiters hsources hfree hlengths =>
    exact h.quiet hs hslot hgeneration waiters hslots hwaiters hsources ⟨hfree, hlengths⟩

/-- **Every step keeps the sources apart.** -/
theorem step (h : ScopeWf r) (hstep : r.step action = some r') : Evolves r r' := by
  cases action with
  | allocate shard =>
    simp only [CancellationRegistry.step] at hstep
    split at hstep
    case isFalse => cases hstep
    case isTrue hshard => exact h.allocate hshard hstep
  | cancel s =>
    simp only [CancellationRegistry.step, bind_eq_bind, bind_eq_some_iff,
      guard_eq_some', exists_const] at hstep
    obtain ⟨src, hs, hlive, hstep⟩ := hstep
    exact h.beginEnd hs hlive (.inl ⟨rfl, rfl⟩) hstep
  | drop s =>
    simp only [CancellationRegistry.step, bind_eq_bind, bind_eq_some_iff,
      guard_eq_some', exists_const] at hstep
    obtain ⟨src, hs, hlive, hstep⟩ := hstep
    exact h.beginEnd hs hlive (.inr ⟨rfl, rfl⟩) hstep
  | advance id => exact h.advance hstep
  | wake call =>
    simp only [CancellationRegistry.step, CancellationRegistry.wake, bind_eq_bind,
      bind_eq_some_iff] at hstep
    obtain ⟨wakers, -, hstep⟩ := hstep
    split at hstep
    case h_1 => cases hstep
    case h_2 =>
      cases hstep
      exact h.frame rfl rfl rfl rfl
  | tryStartDelivery s => exact h.tryStartDelivery hstep
  | finishDelivery s => exact h.finishDelivery hstep
  | pollStep waiter clone =>
    obtain ⟨_, _, -, hs, ht⟩ := Touches.of_pollStep hstep
    exact h.touches hs ht
  | taskStep registration clone =>
    obtain ⟨_, _, -, hs, ht⟩ := Touches.of_taskStep hstep
    exact h.touches hs ht
  | dropTask registration =>
    obtain ⟨_, _, -, hs, ht⟩ := Touches.of_dropTask hstep
    exact h.touches hs ht
  | dropWaiter waiter =>
    simp only [CancellationRegistry.step, bind_eq_bind, bind_eq_some_iff,
      guard_eq_some', exists_const] at hstep
    obtain ⟨w, -, -, hstep⟩ := hstep
    split at hstep <;>
    · cases hstep
      exact h.frame rfl rfl rfl rfl
  | claim s =>
    simp only [CancellationRegistry.step, bind_eq_bind, bind_eq_some_iff,
      guard_eq_some', exists_const] at hstep
    obtain ⟨src, hs, ⟨hlive, -⟩, hstep⟩ := hstep
    cases hstep
    obtain ⟨slot, hslot, hgeneration⟩ := h.slot_of_live hs (by rw [hlive]; rintro ⟨⟩)
    have hcurrent := h.current hs hslot hgeneration
    obtain ⟨-, s', src', hs', hid', hgeneration', hheld⟩ := h.slots src.slot slot hslot
    have heq := h.unique s s' src src' hs hs' hid'.symm (hgeneration.trans hgeneration'.symm)
    obtain ⟨-, hended, hstarts, hlate⟩ := h.sources s src hs
    refine h.change hs hslot hgeneration slot { src with claimed := true } ?_ rfl ⟨rfl, rfl⟩
      ⟨rfl, rfl⟩ { Source.Continues.refl src with claimed := fun _ => rfl }
      (fun held hlock => (hheld held hlock).trans heq.symm) { hcurrent with }
      ⟨hended, hstarts, hlate⟩ (fun hunlocked hdropped => ⟨hunlocked, hdropped⟩)
    rw [← hslot, update_eq_self]
    rfl
  | read | load | watch | poll | pollTask =>
    simp only [CancellationRegistry.step, bind_eq_bind, bind_eq_some_iff,
      guard_eq_some', exists_const, some.injEq] at hstep
    first
    | obtain ⟨-, -, -, rfl⟩ := hstep
      exact h.frame rfl rfl rfl rfl
    | obtain ⟨-, -, -, -, -, rfl⟩ := hstep
      exact h.frame rfl rfl rfl rfl
    | obtain ⟨-, -, -, -, -, -, rfl⟩ := hstep
      exact h.frame rfl rfl rfl rfl

end ScopeWf

-- ---- Old generations.

/-- The source on whose behalf a step is taken: of its own call, or of one of its tokens,
futures and registrations. -/
def CancellationRegistry.Action.source (r : CancellationRegistry) :
    CancellationRegistry.Action → Option Nat
  | .allocate _ | .wake _ => none
  | .cancel s | .drop s | .read s | .tryStartDelivery s | .finishDelivery s | .watch s
  | .claim s => some s
  | .advance id => ((r.slots id).bind CancellationSlot.lock).map Section.source
  | .load call => r.reads[call]?.map TokenRead.source
  | .poll waiter _ | .pollStep waiter _ | .dropWaiter waiter =>
    r.waiters[waiter]?.map Waiter.source
  | .pollTask registration _ | .taskStep registration _ | .dropTask registration =>
    r.registrations[registration]?.map Registration.source

/-- At most the slot of the source changes, which has its generation. -/
def OwnSlot (r r' : CancellationRegistry) (src : Source) : Prop :=
  r'.slots = r.slots ∨ ∃ slot slot', r.slots src.slot = some slot ∧
    slot.generation = src.generation ∧
    r'.slots = Function.update r.slots src.slot (some slot')

namespace ScopeWf

variable {r r' : CancellationRegistry} {id s : Nat}

/-- Only the holder's own slot changes. -/
theorem ownSlot_of_locked (h : ScopeWf r) (hslot : r.slots src.slot = some slot)
    (hgeneration : slot.waiters.generation = src.generation) (slot' : CancellationSlot)
    (hslots : r'.slots = update r.slots src.slot (some slot')) : OwnSlot r r' src :=
  .inr ⟨slot, slot', hslot, (h.slots src.slot slot hslot).same.symm.trans hgeneration, hslots⟩

theorem ownSlot_of_touches (h : ScopeWf r) (ht : Touches r r' src) : OwnSlot r r' src := by
  cases ht with
  | nothing hslots => exact .inl hslots
  | waiters hslot hgeneration waiters hslots =>
    exact h.ownSlot_of_locked hslot hgeneration _ hslots

theorem ownSlot_of_beginEnd (h : ScopeWf r) {pc : SourcePc}
    (hb : r.beginEnd s src held pc = some r') : OwnSlot r r' src := by
  simp only [CancellationRegistry.beginEnd, bind_eq_bind, bind_eq_some_iff,
    guard_eq_some', exists_const] at hb
  obtain ⟨slot, hslot, -, hb⟩ := hb
  split at hb
  case isTrue =>
    cases hb
    exact .inl rfl
  case isFalse hgeneration =>
    cases hb
    exact h.ownSlot_of_locked hslot (not_not.mp hgeneration) _ rfl

theorem ownSlot_of_advance (h : ScopeWf r) (hslot : r.slots id = some slot)
    (hlock : slot.lock = some held) (hs : r.sources[held.source]? = some src)
    (ha : r.advance id = some r') : OwnSlot r r' src := by
  obtain ⟨src', hs', rfl, hgeneration, -⟩ := h.holder hslot hlock
  cases hs.symm.trans hs'
  simp only [CancellationRegistry.advance, hslot, hlock, bind_eq_bind, bind_some] at ha
  cases held with
  | resetCancelled s =>
    cases ha
    exact .inr ⟨slot, _, hslot, hgeneration.symm, rfl⟩
  | resetDelivery s | cancelling s =>
    simp only [bind_eq_some_iff, some.injEq] at ha
    obtain ⟨_, -, rfl⟩ := ha
    exact .inr ⟨slot, _, hslot, hgeneration.symm, rfl⟩
  | releasing s =>
    simp only [bind_eq_some_iff] at ha
    obtain ⟨_, -, ha⟩ := ha
    split at ha <;>
    · cases ha
      exact .inr ⟨slot, _, hslot, hgeneration.symm, rfl⟩

/-- Whatever is done on behalf of a source stays in its slot and its generation. -/
theorem ownSlot (h : ScopeWf r) (hstep : r.step action = some r') (hact : action.source r = some s)
    (hs : r.sources[s]? = some src) : OwnSlot r r' src := by
  cases action with
  | allocate | wake => cases hact
  | cancel | drop =>
    cases hact
    simp only [CancellationRegistry.step, bind_eq_bind, bind_eq_some_iff,
      guard_eq_some', exists_const] at hstep
    obtain ⟨src', hs', -, hb⟩ := hstep
    cases hs.symm.trans hs'
    exact h.ownSlot_of_beginEnd hb
  | advance id =>
    simp only [CancellationRegistry.Action.source, map_eq_some_iff, bind_eq_some_iff] at hact
    obtain ⟨held, ⟨slot, hslot, hlock⟩, rfl⟩ := hact
    exact h.ownSlot_of_advance hslot hlock hs hstep
  | tryStartDelivery | finishDelivery =>
    cases hact
    simp only [CancellationRegistry.step, CancellationRegistry.tryStartDelivery,
      CancellationRegistry.finishDelivery, bind_eq_bind, bind_eq_some_iff, guard_eq_some',
      exists_const] at hstep
    obtain ⟨src', hs', slot, hslot, -, hstep⟩ := hstep
    cases hs.symm.trans hs'
    split at hstep
    case isTrue hdelivering =>
      cases hstep
      exact h.ownSlot_of_locked hslot hdelivering.1 _ rfl
    case isFalse =>
      cases hstep
      exact .inl rfl
  | pollStep waiter clone =>
    obtain ⟨w, src', hw, hs', ht⟩ := Touches.of_pollStep hstep
    rw [CancellationRegistry.Action.source, hw] at hact
    cases hact
    cases hs.symm.trans hs'
    exact h.ownSlot_of_touches ht
  | taskStep registration clone =>
    obtain ⟨t, src', hreg, hs', ht⟩ := Touches.of_taskStep hstep
    rw [CancellationRegistry.Action.source, hreg] at hact
    cases hact
    cases hs.symm.trans hs'
    exact h.ownSlot_of_touches ht
  | dropTask registration =>
    obtain ⟨t, src', hreg, hs', ht⟩ := Touches.of_dropTask hstep
    rw [CancellationRegistry.Action.source, hreg] at hact
    cases hact
    cases hs.symm.trans hs'
    exact h.ownSlot_of_touches ht
  | read | watch | claim | load | poll | pollTask =>
    simp only [CancellationRegistry.step, bind_eq_bind, bind_eq_some_iff,
      guard_eq_some', exists_const, some.injEq] at hstep
    first
    | obtain ⟨-, -, -, rfl⟩ := hstep
      exact .inl rfl
    | obtain ⟨-, -, -, -, -, rfl⟩ := hstep
      exact .inl rfl
    | obtain ⟨-, -, -, -, -, -, rfl⟩ := hstep
      exact .inl rfl
  | dropWaiter =>
    simp only [CancellationRegistry.step, bind_eq_bind, bind_eq_some_iff,
      guard_eq_some', exists_const] at hstep
    obtain ⟨w, -, -, hstep⟩ := hstep
    split at hstep <;>
    · cases hstep
      exact .inl rfl

/-- **An old token, future or registration cannot reach a later generation**, nor any other
slot. -/
theorem untouched (h : ScopeWf r) (hstep : r.step action = some r')
    (hact : action.source r = some s) (hs : r.sources[s]? = some src)
    (hslot : r.slots id = some slot) (hother : id ≠ src.slot ∨ slot.generation ≠ src.generation) :
    r'.slots id = some slot := by
  rcases h.ownSlot hstep hact hs with hslots | ⟨slot₀, slot', hslot₀, hgeneration, hslots⟩
  · rw [hslots]
    exact hslot
  · have hne : id ≠ src.slot := by
      rintro rfl
      cases hslot.symm.trans hslot₀
      exact hother.elim (fun hne => hne rfl) (fun hne => hne hgeneration)
    rw [hslots, update_of_ne hne]
    exact hslot

end ScopeWf

-- ---- Reading without a lock.

/-- What a call of `is_cancelled` has seen. -/
structure ReadOk (src : Source) (slot : CancellationSlot) (read : Read) : Prop where
  late   : read.late = true → src.ended = true
  passed : read.late = true → read.pc = .delivery ∨ read.pc = .again →
    slot.generation ≠ src.generation
  no     : read.pc = .done false → read.late = false
  yes    : read.pc = .done true → src.begun = true

/-- A call of `is_cancelled` on a token of the source. -/
def ReadWf (r : CancellationRegistry) (source : Nat) (read : Read) : Prop :=
  ∃ src slot, r.sources[source]? = some src ∧ r.slots src.slot = some slot ∧
    src.pc ≠ .allocating ∧ ReadOk src slot read

namespace ReadWf

variable {r r' : CancellationRegistry} {source : Nat} {read : Read}

/-- A read begins. -/
theorem start (h : ScopeWf r) (hs : r.sources[source]? = some src) (hpc : src.pc ≠ .allocating) :
    ReadWf r source ⟨src.ended, .generation⟩ := by
  obtain ⟨slot, hslot, -⟩ := (h.sources source src hs).slot
  refine ⟨src, slot, hs, hslot, hpc, fun hlate => hlate, fun _ hpassed => ?_, fun hno => ?_,
    fun hyes => ?_⟩
  · rcases hpassed with hpassed | hpassed <;> cases hpassed
  · cases hno
  · cases hyes

/-- What a read has seen stays true. -/
theorem evolves (h : ReadWf r source read) (hwf : ScopeWf r) (he : Evolves r r') :
    ReadWf r' source read := by
  obtain ⟨src, slot, hs, hslot, hpc, hok⟩ := h
  obtain ⟨src', hs', hcont⟩ := he.sources source src hs
  obtain ⟨slot', hslot', hle⟩ := he.slots src.slot slot hslot
  refine ⟨src', slot', hs', hcont.slot ▸ hslot', hcont.issued hpc,
    fun hlate => hcont.ended (hok.late hlate), fun hlate hpassed => ?_, hok.no,
    fun hyes => hcont.begun (hok.yes hyes)⟩
  have hne := hok.passed hlate hpassed
  obtain ⟨slot₀, hslot₀, hle₀, -⟩ := (hwf.sources source src hs).slot
  rw [hslot] at hslot₀
  cases hslot₀
  rw [hcont.generation]
  omega

/-- The next load. A late call that sees the flag cleared sees the next generation
afterwards: the slot was reset in between, generation first. -/
theorem load (h : ScopeWf r) (hread : ReadWf r source read) (hs : r.sources[source]? = some src)
    (hslot : r.slots src.slot = some slot) (task : Bool) :
    ReadWf r source { read with pc := slot.load src.generation task read.pc } := by
  obtain ⟨src', slot', hs', hslot', hpc, hok⟩ := hread
  rw [hs] at hs'
  cases hs'
  rw [hslot] at hslot'
  cases hslot'
  obtain ⟨⟨slot', hslot', hle, hstale, hcurrent⟩, hended, -, -⟩ := h.sources source src hs
  rw [hslot] at hslot'
  cases hslot'
  have hpast (hne : slot.generation ≠ src.generation) : src.begun = true :=
    hended (hstale (by omega)).2
  refine ⟨src, slot, hs, hslot, hpc, ?_⟩
  cases hread : read.pc with
  | generation =>
    simp only [CancellationSlot.load]
    split
    case isTrue hne =>
      exact ⟨hok.late, fun _ hpassed => (by rcases hpassed with hp | hp <;> cases hp),
        nofun, fun _ => hpast hne⟩
    case isFalse =>
      exact ⟨hok.late, fun _ hpassed => (by rcases hpassed with hp | hp <;> cases hp),
        nofun, nofun⟩
  | cancelled =>
    have hflag (heq : slot.generation = src.generation) : slot.cancelled = src.ended :=
      (hcurrent heq.symm).issued hpc
    simp only [CancellationSlot.load]
    split
    case isTrue hcancelled =>
      refine ⟨hok.late, fun _ hpassed => (by rcases hpassed with hp | hp <;> cases hp),
        nofun, fun _ => ?_⟩
      by_cases heq : slot.generation = src.generation
      · exact hended ((hflag heq).symm.trans hcancelled)
      · exact hpast heq
    case isFalse hcleared =>
      have hpassed (hlate : read.late = true) : slot.generation ≠ src.generation := by
        intro heq
        exact hcleared ((hflag heq).trans (hok.late hlate))
      split <;>
        exact ⟨hok.late, fun hlate _ => hpassed hlate, nofun, nofun⟩
  | delivery =>
    simp only [CancellationSlot.load]
    split
    case isTrue hcanceled =>
      refine ⟨hok.late, fun _ hpassed => (by rcases hpassed with hp | hp <;> cases hp),
        nofun, fun _ => ?_⟩
      by_cases heq : slot.generation = src.generation
      · cases hbegun : src.begun with
        | true => rfl
        | false => exact absurd hcanceled ((hcurrent heq.symm).fresh hpc hbegun)
      · exact hpast heq
    case isFalse =>
      exact ⟨hok.late, fun hlate _ => hok.passed hlate (.inl hread), nofun, nofun⟩
  | again =>
    simp only [CancellationSlot.load]
    refine ⟨hok.late, fun _ hpassed => (by rcases hpassed with hp | hp <;> cases hp), fun hno => ?_,
      fun hyes => ?_⟩
    · have heq := of_decide_eq_false (ReadPc.done.inj hno)
      cases hlate : read.late with
      | false => rfl
      | true => exact absurd (hok.passed hlate (.inr hread)) heq
    · exact hpast (of_decide_eq_true (ReadPc.done.inj hyes))
  | done result =>
    have hsame : { read with pc := slot.load src.generation task (.done result) } = read := by
      rw [CancellationSlot.load, ← hread]
    rw [hsame]
    exact hok

end ReadWf

end Xlfn.Async.Cancellation
