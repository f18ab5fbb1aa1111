import Mathlib.Data.List.Perm.Basic
import Xlfn.ReturnAbi.NumericLedger

/-!
# Xlfn — the epochs of numeric returns

A published block waits in the epoch of its thread until the next outermost entry takes the
epoch over and gives every block of it to the heap, once.

* `Places` — the blocks of a slot by the place they are in, and the five moves between places.
* `Places.Ordered` — each block is in one place, and the place follows from its entry.
-/

namespace Xlfn.ReturnAbi

open Xlfn.Lib List Option Slot

-- ---- Places.

/-- The blocks of a slot. `taken` are those an outermost entry has taken over and not yet
given to the heap. -/
structure Places where
  entries   : Nat
  published : List Block
  epoch     : List Block
  taken     : List Block
  freed     : List Block
  abandoned : List Block

/-- A move of blocks between places. -/
inductive Places.Move : Places → Places → Prop where
  | stay (q : Places) : Move q q
  /-- A block is published and joins the epoch. -/
  | link (q : Places) (bytes : Nat) :
      Move q { q with
        published := q.published ++ [⟨q.published.length, bytes, q.entries⟩]
        epoch     := ⟨q.published.length, bytes, q.entries⟩ :: q.epoch }
  /-- An outermost entry takes the epoch over. -/
  | enter (q : Places) (taken : q.taken = []) :
      Move q { q with entries := q.entries + 1, taken := q.epoch, epoch := [] }
  /-- The heap takes a block. -/
  | free (q : Places) (block : Block) (rest : List Block) (taken : q.taken = block :: rest) :
      Move q { q with taken := rest, freed := block :: q.freed }
  /-- The heap refuses a block. -/
  | abandon (q : Places) (block : Block) (rest : List Block) (taken : q.taken = block :: rest) :
      Move q { q with taken := rest, abandoned := block :: q.abandoned }

/-- **Where every block is.** Blocks are numbered in the order of their publication and each
is in one place. The epoch is the blocks of the current outermost entry, what is taken over
those of the one before, and what the heap was offered is older than the current entry. -/
structure Places.Ordered (q : Places) : Prop where
  placed   : q.published.Perm (q.taken ++ (q.epoch ++ (q.freed ++ q.abandoned)))
  numbered : ∀ (n : Nat) (b : Block), q.published[n]? = some b → b.id = n
  epoch    : ∀ b ∈ q.epoch, b.entry = q.entries
  taken    : ∀ b ∈ q.taken, b.entry + 1 = q.entries
  released : ∀ b ∈ q.freed ++ q.abandoned, b.entry < q.entries

variable {q : Places}

theorem Places.Ordered.move {q' : Places} (h : q.Ordered) (hmove : q.Move q') : q'.Ordered := by
  cases hmove with
  | stay => exact h
  | link bytes =>
    refine ⟨?_, fun n b hb => ?_, fun b hb => ?_, h.taken, h.released⟩
    · refine perm_append_comm.trans ?_
      exact (h.placed.cons _).trans perm_middle.symm
    · rcases getElem?_append_singleton_cases hb with hold | ⟨rfl, rfl⟩
      · exact h.numbered n b hold
      · rfl
    · rcases mem_cons.mp hb with rfl | hold
      · rfl
      · exact h.epoch b hold
  | enter taken =>
    refine ⟨?_, h.numbered, by rintro b ⟨⟩, fun b hb => ?_, fun b hb => ?_⟩
    · have hplaced := h.placed
      rwa [taken] at hplaced
    · rw [h.epoch b hb]
    · exact Nat.lt_succ_of_lt (h.released b hb)
  | free block rest taken =>
    have hplaced := h.placed
    rw [taken] at hplaced
    refine ⟨?_, h.numbered, h.epoch, fun b hb => ?_, fun b hb => ?_⟩
    · have hmiddle := @perm_middle _ block (rest ++ q.epoch) (q.freed ++ q.abandoned)
      simp only [append_assoc] at hmiddle
      exact hplaced.trans hmiddle.symm
    · exact h.taken b (taken ▸ mem_cons_of_mem _ hb)
    · rcases mem_cons.mp hb with rfl | hold
      · have hentry := h.taken b (taken ▸ mem_cons_self)
        dsimp only
        omega
      · exact h.released b hold
  | abandon block rest taken =>
    have hplaced := h.placed
    rw [taken] at hplaced
    refine ⟨?_, h.numbered, h.epoch, fun b hb => ?_, fun b hb => ?_⟩
    · refine hplaced.trans ?_
      simp only [← append_assoc]
      exact perm_middle.symm
    · exact h.taken b (taken ▸ mem_cons_of_mem _ hb)
    · have hentry := h.taken block (taken ▸ mem_cons_self)
      rcases mem_append.mp hb with hold | hnew
      · exact h.released b (mem_append_left _ hold)
      · rcases mem_cons.mp hnew with rfl | hold
        · dsimp only
          omega
        · exact h.released b (mem_append_right _ hold)

/-- **No block is published twice.** -/
theorem Places.Ordered.nodup (h : q.Ordered) : q.published.Nodup := by
  rw [nodup_iff_injective_getElem]
  intro m n hmn
  have hm := h.numbered m _ (getElem?_eq_getElem m.2)
  have hn := h.numbered n _ (getElem?_eq_getElem n.2)
  exact Fin.ext (hm.symm.trans ((congrArg Block.id hmn).trans hn))

/-- A block is given to the heap when its time has come: from the outermost entry after its
own on, and no later than that entry's reclamation. -/
theorem Places.Ordered.released_iff (h : q.Ordered) {b : Block} (hb : b ∈ q.published) :
    b ∈ q.freed ++ q.abandoned ↔ b.entry < q.entries ∧ b ∉ q.taken := by
  have hnodup := h.placed.nodup_iff.mp h.nodup
  have hmem := h.placed.mem_iff.mp hb
  constructor
  · intro hreleased
    refine ⟨h.released b hreleased, fun htaken => ?_⟩
    exact (nodup_append.mp hnodup).2.2 b htaken b (mem_append_right _ hreleased) rfl
  · rintro ⟨hentry, htaken⟩
    rcases mem_append.mp hmem with hin | hin
    · exact absurd hin htaken
    · rcases mem_append.mp hin with hepoch | hreleased
      · have hcurrent := h.epoch b hepoch
        omega
      · exact hreleased

-- ---- A slot moves its blocks between places.

def SlotPc.taken : SlotPc → List Block
  | .idle | .publishing _ _ _ => []
  | .reclaiming rest | .discharging _ rest _ => rest

def Slot.places (slot : Slot) : Places where
  entries   := slot.entries
  published := slot.published
  epoch     := slot.state.epoch
  taken     := slot.pc.taken
  freed     := slot.freed
  abandoned := slot.abandoned

variable {slot : Slot} {process : ProcessState} {module : ModuleState} {ok : Bool}

theorem Slot.places_of_pc {pc : SlotPc} (h : pc.taken = slot.pc.taken) :
    slot.places.Move (places { slot with pc := pc }) := by
  have hsame : places { slot with pc := pc } = slot.places := by
    simp only [places, h]
  rw [hsame]
  exact .stay _

theorem Slot.publishStep_moves {p : Platform} {bytes threadBytes : Nat} {pc : PublishPc}
    (hpc : slot.pc = .publishing bytes threadBytes pc) :
    slot.places.Move (slot.publishStep p process module bytes threadBytes ok pc).slot.places := by
  have htaken : [] = slot.pc.taken := by
    rw [hpc]
    rfl
  cases pc with
  | exchange current =>
    simp only [publishStep]
    split
    · exact places_of_pc htaken
    · split
      · exact places_of_pc htaken
      · exact places_of_pc htaken
  | link =>
    have hlink := Places.Move.link slot.places bytes
    simp only [places, ← htaken] at hlink ⊢
    exact hlink
  | _ => exact places_of_pc htaken

theorem Slot.dischargeStep_moves {block : Block} {rest : List Block} {pc : DischargePc}
    (hpc : slot.pc = .discharging block rest pc) :
    slot.places.Move (slot.dischargeStep process module block rest pc).slot.places := by
  have htaken : rest = slot.pc.taken := by
    rw [hpc]
    rfl
  cases pc <;> exact places_of_pc htaken

/-- **What a step of a slot does to its blocks.** -/
theorem Slot.step_moves {p : Platform} {next : SlotStep}
    (h : slot.step p process module ok = some next) : slot.places.Move next.slot.places := by
  unfold Slot.step at h
  split at h
  · cases h
  · next hpc =>
    cases h
    exact publishStep_moves hpc
  · next hpc =>
    cases h
    exact places_of_pc (congrArg SlotPc.taken hpc).symm
  · next block rest hpc =>
    have htaken : slot.places.taken = block :: rest := congrArg SlotPc.taken hpc
    split at h
    · cases h
      exact .free slot.places block rest htaken
    · cases h
      exact .abandon slot.places block rest htaken
  · next hpc =>
    cases h
    exact dischargeStep_moves hpc

theorem Places.Move.freed_cases {q' : Places} (h : q.Move q') : q'.freed = q.freed ∨
      ∃ b rest, q.taken = b :: rest ∧ q'.freed = b :: q.freed := by
  cases h with
  | stay | link bytes | enter taken | abandon block rest taken => exact .inl rfl
  | free block rest taken => exact .inr ⟨block, rest, taken, rfl⟩

theorem Slot.CallOk.depth {p : Platform} (h : slot.CallOk p) {b : Block} {rest : List Block}
    (htaken : slot.places.taken = b :: rest) : slot.state.depth = 1 := by
  unfold CallOk at h
  have hin : slot.pc.taken = b :: rest := htaken
  cases hpc : slot.pc with
  | idle | publishing bytes threadBytes pc =>
    rw [hpc] at hin
    cases hin
  | reclaiming rest | discharging block rest pc =>
    rw [hpc] at h
    exact h.1

theorem Slot.enter_moves (hpc : slot.pc = .idle) : slot.places.Move slot.enter.places := by
  unfold Slot.enter
  split
  · exact .enter slot.places (congrArg SlotPc.taken hpc)
  · exact .stay _

/-- **The epochs**: a published block is with the heap, taken or refused, once it is older
than the current outermost entry and that entry no longer has it in hand. -/
structure Slot.Released (slot : Slot) : Prop where
  published : slot.published.Nodup
  once      : (slot.freed ++ slot.abandoned).Nodup
  own       : ∀ b ∈ slot.freed ++ slot.abandoned, b ∈ slot.published
  inHand    : ∀ b ∈ slot.pc.taken, b.entry + 1 = slot.entries
  due       : ∀ b ∈ slot.published,
    b ∈ slot.freed ++ slot.abandoned ↔ b.entry < slot.entries ∧ b ∉ slot.pc.taken

theorem Places.Ordered.released_slot (h : slot.places.Ordered) : slot.Released := by
  have hnodup := h.placed.nodup_iff.mp h.nodup
  refine ⟨h.nodup, ?_, fun b hb => ?_, h.taken, fun b hb => h.released_iff hb⟩
  · exact ((hnodup.of_append_right).of_append_right)
  · exact h.placed.mem_iff.mpr (mem_append_right _ (mem_append_right _ hb))

-- ---- Rejections.

/-- A step of a task moves no total where it rejects, and starts no drop: only the owner of
an output and a rejected publication do. -/
def TaskStep.Rejecting (process : ProcessState) (next : TaskStep) : Prop :=
  match next.task with
  | .rejected _ => next.process.counter = process.counter
  | .freeing _ => False
  | _ => True

theorem PreparePc.step_rejecting {purpose : Purpose} (pc : PreparePc) :
    (pc.step process purpose).Rejecting process := by
  cases pc with
  | schema | limit =>
    simp only [PreparePc.step]
    split
    · trivial
    · split
      · exact rfl
      · trivial
  | check second field =>
    simp only [PreparePc.step]
    split
    · split
      · trivial
      · cases second with
        | false => trivial
        | true => cases purpose <;> trivial
    · exact rfl

theorem ReservePc.step_rejecting {p : Platform} {bytes : Nat} (pc : ReservePc) :
    (pc.step p process bytes ok).Rejecting process := by
  cases pc with
  | load =>
    simp only [ReservePc.step]
    split
    · exact rfl
    · trivial
  | exchange current =>
    simp only [ReservePc.step]
    split
    · exact rfl
    · split
      · exact rfl
      · split <;> trivial
  | buffers next => trivial
  | peak next => trivial
  | allocate =>
    simp only [ReservePc.step]
    split <;> trivial

theorem Task.step_rejecting {p : Platform} {task : Task} {next : TaskStep}
    (h : task.step p process ok = some next) : next.Rejecting process := by
  cases task with
  | preparing purpose pc | reserving bytes pc =>
    cases h
    exact pc.step_rejecting
  | freeing bytes =>
    cases h
    split <;> trivial
  | releasing bytes buffers =>
    cases buffers with
    | true | false =>
      cases h
      trivial
  | output bytes | leaked bytes | rejected error | finished => cases h

theorem Slot.step_dropped {next : SlotStep} {bytes : Nat}
    (h : slot.step p process module ok = some next) (hdropped : next.dropped = some bytes) :
    next.process = process ∧ next.module = module ∧ next.slot.state = slot.state := by
  unfold Slot.step at h
  split at h
  · cases h
  · next hpc =>
    cases h
    revert hdropped
    rename_i pc
    cases pc with
    | exchange current =>
      simp only [publishStep]
      split
      · exact fun _ => ⟨rfl, rfl, rfl⟩
      · split <;> exact (fun h => by cases h)
    | _ => exact (fun h => by cases h)
  · cases h
    cases hdropped
  · split at h <;> cases h <;> cases hdropped
  · next pc hpc =>
    cases h
    cases pc <;> cases hdropped

-- ---- Every reachable state.

namespace NumericSystem

variable {p : Platform} {s s' : NumericSystem} {i : Nat} {slot' : Slot}

theorem set_moves {l : List Slot} (hslot : l[i]? = some slot)
    (hmove : slot.places.Move slot'.places) (j : Nat) (next : Slot)
    (h : (l.set i slot')[j]? = some next) :
    ∃ old, l[j]? = some old ∧ old.places.Move next.places := by
  rcases getElem?_set_cases hslot h with ⟨rfl, rfl⟩ | hold
  · exact ⟨slot, hslot, hmove⟩
  · exact ⟨next, hold.2, .stay _⟩

variable {action : Action}

/-- **Every step moves the blocks of a slot by one of the moves.** -/
theorem step_moves (h : step p s action = some s') (hslot' : s'.slots[i]? = some slot') :
    (∃ slot, s.slots[i]? = some slot ∧ slot.places.Move slot'.places) ∨
      s.slots[i]? = none ∧ ∃ module, slot' = Slot.new module := by
  have hkeep : s'.slots = s.slots →
      ∃ slot, s.slots[i]? = some slot ∧ slot.places.Move slot'.places := fun heq =>
    ⟨slot', heq ▸ hslot', .stay _⟩
  cases action with
  | create rows columns attached =>
    simp only [step] at h
    cases hbytes : blockBytes p rows columns with
    | error error =>
      rw [hbytes] at h
      cases h
      exact .inl (hkeep rfl)
    | ok bytes =>
      rw [hbytes] at h
      obtain ⟨task, -, h⟩ := bind_eq_some_iff.mp h
      cases h
      exact .inl (hkeep rfl)
  | readMetrics attached =>
    obtain ⟨task, -, h⟩ := bind_eq_some_iff.mp h
    cases h
    exact .inl (hkeep rfl)
  | task k ok =>
    obtain ⟨task, -, h⟩ := bind_eq_some_iff.mp h
    obtain ⟨next, -, h⟩ := bind_eq_some_iff.mp h
    cases h
    exact .inl (hkeep rfl)
  | drop k =>
    obtain ⟨task, -, h⟩ := bind_eq_some_iff.mp h
    split at h
    · cases h
      exact .inl (hkeep rfl)
    · cases h
  | attach module =>
    cases h
    rcases getElem?_append_singleton_cases hslot' with hold | ⟨rfl, hnew⟩
    · exact .inl ⟨slot', hold, .stay _⟩
    · exact .inr ⟨getElem?_eq_none (Nat.le_refl _), module, hnew⟩
  | enter j =>
    obtain ⟨slot, hslot, h⟩ := bind_eq_some_iff.mp h
    split at h
    · next hpc =>
      cases h
      exact .inl (set_moves hslot (enter_moves hpc) i slot' hslot')
    · cases h
  | leave j =>
    obtain ⟨slot, hslot, h⟩ := bind_eq_some_iff.mp h
    split at h
    · split at h
      · cases h
      · cases h
        have hmove : slot.places.Move slot.leave.places := .stay _
        exact .inl (set_moves hslot hmove i slot' hslot')
    · cases h
  | publish j k =>
    simp only [step, publish] at h
    obtain ⟨slot, hslot, h⟩ := bind_eq_some_iff.mp h
    obtain ⟨task, -, h⟩ := bind_eq_some_iff.mp h
    split at h
    · next bytes hpc =>
      split at h
      · cases h
      · split at h
        · cases h
          exact .inl (hkeep rfl)
        · next threadBytes _ =>
          cases h
          have hmove : slot.places.Move
              (places { slot with pc := .publishing bytes threadBytes .load }) :=
            places_of_pc (congrArg SlotPc.taken hpc).symm
          exact .inl (set_moves hslot hmove i slot' hslot')
    · cases h
  | slot j ok =>
    obtain ⟨slot, hslot, h⟩ := bind_eq_some_iff.mp h
    obtain ⟨next, hnext, h⟩ := bind_eq_some_iff.mp h
    cases h
    exact .inl (set_moves hslot (Slot.step_moves hnext) i slot' hslot')

theorem ordered_of_reachable (h : Reachable (NumericSystem.step p) new s) :
    ∀ (i : Nat) (slot : Slot), s.slots[i]? = some slot → slot.places.Ordered := by
  refine Reachable.invariant
    (I := fun s => ∀ (i : Nat) (slot : Slot), s.slots[i]? = some slot → slot.places.Ordered)
    (fun s action s' hinv hstep i slot' hslot' => ?_) (by rintro i slot ⟨⟩) h
  rcases step_moves hstep hslot' with ⟨slot, hslot, hmove⟩ | ⟨-, module, rfl⟩
  · exact (hinv i slot hslot).move hmove
  · exact ⟨.refl _, by rintro n b ⟨⟩, by rintro b ⟨⟩, by rintro b ⟨⟩, by rintro b ⟨⟩⟩

/-- **The ledger**: what the totals are, and the limits they keep. -/
structure Accounted (s : NumericSystem) : Prop where
  published   : s.process.counter .publishedBytes ≤ s.process.counter .reservedBytes
  reserved    : s.process.counter .reservedBytes ≤ maxProcessNumericReturnBytes
  process     : ∀ c, s.process.counter c =
    (s.tasks.map (·.held c)).sum + (s.slots.map (·.held c)).sum
  module      : ∀ m t, (s.modules m).total t = (s.slots.map (Slot.heldOf m t)).sum
  moduleLimit : ∀ m, (s.modules m).bytes ≤ maxModuleNumericReturnBytes
  thread      : ∀ slot ∈ s.slots, slot.state.bytes = blockBytesSum slot.state.epoch ∧
    slot.state.buffers = slot.state.epoch.length ∧
    slot.state.bytes ≤ maxThreadNumericReturnBytes
  underflow   : s.underflow = false
  valid       : s.process.Attached → ∀ field : Field, field.valid s.process = true
  answers     : ∀ error, Task.rejected error ∈ s.tasks → error ≠ .protocol

/-- What a step frees, and what it leaves where it rejects. -/
structure Bounded (s s' : NumericSystem) : Prop where
  /-- The heap gets a block from the outermost entry next to the block's own. -/
  frees : ∀ (i : Nat) (slot slot' : Slot), s.slots[i]? = some slot → s'.slots[i]? = some slot' →
    slot'.freed = slot.freed ∨
      ∃ b, slot'.freed = b :: slot.freed ∧ b ∈ slot.published ∧ b ∉ slot.freed ∧
        slot.state.depth = 1 ∧ b.entry + 1 = slot.entries
  /-- A rejected reservation. -/
  reserve : ∀ (k : Nat) (error : XllError), s'.tasks[k]? = some (.rejected error) →
    s.tasks[k]? ≠ some (.rejected error) →
    s'.process.counter = s.process.counter ∧ s'.modules = s.modules ∧ s'.slots = s.slots
  /-- A rejected publication gives its output to be freed. -/
  publish : ∀ (k bytes : Nat), s'.tasks[k]? = some (.freeing bytes) →
    s.tasks[k]? ≠ some (.freeing bytes) →
    s'.process = s.process ∧ s'.modules = s.modules ∧
      s'.slots.map Slot.state = s.slots.map Slot.state

variable {k : Nat}

theorem step_changed (h : step p s action = some s') {task' : Task}
    (hnow : s'.tasks[k]? = some task') (hbefore : s.tasks[k]? ≠ some task') :
    (s'.process = s.process ∧ s'.modules = s.modules ∧ s'.slots = s.slots) ∨
      (∃ (task : Task) (ok : Bool) (next : TaskStep), task.step p s.process ok = some next ∧
        task' = next.task ∧ s'.process = next.process ∧ s'.modules = s.modules ∧
        s'.slots = s.slots) ∨
      task' = .finished ∨
      ∃ bytes, task' = .freeing bytes ∧ s'.process = s.process ∧ s'.modules = s.modules ∧
        s'.slots.map state = s.slots.map state := by
  have hsame : s'.tasks ≠ s.tasks := fun heq => hbefore (heq ▸ hnow)
  cases action with
  | create rows columns attached =>
    simp only [step] at h
    cases hbytes : blockBytes p rows columns with
    | error error =>
      rw [hbytes] at h
      cases h
      exact .inl ⟨rfl, rfl, rfl⟩
    | ok bytes =>
      rw [hbytes] at h
      obtain ⟨task, -, h⟩ := bind_eq_some_iff.mp h
      cases h
      exact .inl ⟨rfl, rfl, rfl⟩
  | readMetrics attached =>
    obtain ⟨task, -, h⟩ := bind_eq_some_iff.mp h
    cases h
    exact .inl ⟨rfl, rfl, rfl⟩
  | task j ok =>
    obtain ⟨task, htask, h⟩ := bind_eq_some_iff.mp h
    obtain ⟨next, hnext, h⟩ := bind_eq_some_iff.mp h
    cases h
    rcases getElem?_set_cases htask hnow with ⟨-, htask'⟩ | ⟨-, hold⟩
    · exact .inr (.inl ⟨task, ok, next, hnext, htask', rfl, rfl, rfl⟩)
    · exact absurd hold hbefore
  | drop j =>
    obtain ⟨task, htask, h⟩ := bind_eq_some_iff.mp h
    split at h
    · cases h
      exact .inl ⟨rfl, rfl, rfl⟩
    · cases h
  | attach module =>
    cases h
    exact absurd rfl hsame
  | enter j =>
    obtain ⟨slot, -, h⟩ := bind_eq_some_iff.mp h
    split at h
    · cases h
      exact absurd rfl hsame
    · cases h
  | leave j =>
    obtain ⟨slot, -, h⟩ := bind_eq_some_iff.mp h
    split at h
    · split at h
      · cases h
      · cases h
        exact absurd rfl hsame
    · cases h
  | publish j l =>
    simp only [step, publish] at h
    obtain ⟨slot, -, h⟩ := bind_eq_some_iff.mp h
    obtain ⟨task, htask, h⟩ := bind_eq_some_iff.mp h
    split at h
    · split at h
      · cases h
      · split at h
        · cases h
          exact .inl ⟨rfl, rfl, rfl⟩
        · cases h
          rcases getElem?_set_cases htask hnow with ⟨-, hfinished⟩ | ⟨-, hold⟩
          · exact .inr (.inr (.inl hfinished))
          · exact absurd hold hbefore
    · cases h
  | slot j ok =>
    obtain ⟨slot, hslot, h⟩ := bind_eq_some_iff.mp h
    obtain ⟨next, hnext, h⟩ := bind_eq_some_iff.mp h
    cases h
    cases hdropped : next.dropped with
    | none =>
      rw [hdropped] at hsame
      exact absurd (append_nil _) hsame
    | some bytes =>
      rw [hdropped] at hnow
      obtain ⟨hprocess, hmodule, hstate⟩ := step_dropped hnext hdropped
      rcases getElem?_append_singleton_cases hnow with hold | ⟨-, hfreeing⟩
      · exact absurd hold hbefore
      · refine .inr (.inr (.inr ⟨bytes, hfreeing, hprocess, ?_, ?_⟩))
        · dsimp only
          rw [hmodule]
          exact Function.update_eq_self ..
        · obtain ⟨hlt, rfl⟩ := List.getElem_of_getElem? hslot
          dsimp only
          rw [map_set, hstate, ← getElem_map state (h := by simpa using hlt)]
          exact set_getElem_self _

/-- **A rejected reservation has moved no total.** -/
theorem step_reserve (h : step p s action = some s') {error : XllError}
    (hnow : s'.tasks[k]? = some (.rejected error))
    (hbefore : s.tasks[k]? ≠ some (.rejected error)) :
    s'.process.counter = s.process.counter ∧ s'.modules = s.modules ∧ s'.slots = s.slots := by
  rcases step_changed h hnow hbefore with ⟨hprocess, hmodules, hslots⟩ |
    ⟨task, ok, next, hnext, htask, hprocess, hmodules, hslots⟩ | ⟨⟨⟩⟩ | ⟨bytes, ⟨⟩, -⟩
  · exact ⟨congrArg ProcessState.counter hprocess, hmodules, hslots⟩
  · have hrejecting := Task.step_rejecting hnext
    rw [TaskStep.Rejecting, ← htask] at hrejecting
    exact ⟨(congrArg ProcessState.counter hprocess).trans hrejecting, hmodules, hslots⟩

/-- **A rejected publication has moved no total** when the drop of its output begins. -/
theorem step_publish (h : step p s action = some s') {bytes : Nat}
    (hnow : s'.tasks[k]? = some (.freeing bytes)) (hbefore : s.tasks[k]? ≠ some (.freeing bytes)) :
    s'.process = s.process ∧ s'.modules = s.modules ∧
      s'.slots.map state = s.slots.map state := by
  rcases step_changed h hnow hbefore with ⟨hprocess, hmodules, hslots⟩ |
    ⟨task, ok, next, hnext, htask, -⟩ | ⟨⟨⟩⟩ | ⟨-, -, hsame⟩
  · exact ⟨hprocess, hmodules, congrArg (List.map state) hslots⟩
  · have hrejecting := Task.step_rejecting hnext
    rw [TaskStep.Rejecting, ← htask] at hrejecting
    exact hrejecting.elim
  · exact hsame

/-- **The heap gets a block from the outermost entry next to the block's own**, never from a
nested one, and never twice. -/
theorem step_frees (hinv : s.Inv p)
    (hordered : ∀ (i : Nat) (slot : Slot), s.slots[i]? = some slot → slot.places.Ordered)
    (h : step p s action = some s') (hslot : s.slots[i]? = some slot)
    (hslot' : s'.slots[i]? = some slot') : slot'.freed = slot.freed ∨
      ∃ b, slot'.freed = b :: slot.freed ∧ b ∈ slot.published ∧ b ∉ slot.freed ∧
        slot.state.depth = 1 ∧ b.entry + 1 = slot.entries := by
  rcases step_moves h hslot' with ⟨old, hold, hmove⟩ | ⟨hnone, -⟩
  · cases hold.symm.trans hslot
    have hplaces := hordered i slot hslot
    rcases hmove.freed_cases with hsame | ⟨b, rest, htaken, hfreed⟩
    · exact .inl hsame
    · have hb : b ∈ slot.places.taken := htaken ▸ mem_cons_self
      have hpublished : b ∈ slot.published :=
        hplaces.placed.mem_iff.mpr (mem_append_left _ hb)
      refine .inr ⟨b, hfreed, hpublished, fun hfreed => ?_, ?_, hplaces.taken b hb⟩
      · exact ((hplaces.released_iff hpublished).mp (mem_append_left _ hfreed)).2 hb
      · exact Slot.CallOk.depth (hinv.slots slot (mem_of_getElem? hslot)).call htaken
  · cases hnone.symm.trans hslot

theorem Inv.accounted (hinv : s.Inv p) : Accounted s where
  published   := hinv.covered .publishedBytes
  reserved    := hinv.process.reserved
  process     := hinv.totals
  module      := hinv.moduleTotals
  moduleLimit := hinv.moduleLimit
  thread slot hslot :=
    have hok := hinv.slots slot hslot
    ⟨hok.bytes, hok.buffers, hok.limit⟩
  underflow   := hinv.sound
  valid       := hinv.valid
  answers _ herror := hinv.tasks _ herror

/-- **Numeric return memory.** In every state of every interleaving the totals are the sums
of what the tasks and slots hold and keep their limits, and every block is where its age puts
it; a step frees at most the one block in hand, and what it rejects has moved no total. -/
theorem numeric_returns_accounted (h : Reachable (NumericSystem.step p) new s) :
    Accounted s ∧ (∀ slot ∈ s.slots, slot.Released) ∧
      ∀ (action : Action) (s' : NumericSystem), step p s action = some s' → Bounded s s' := by
  have hinv := inv_of_reachable h
  have hordered := ordered_of_reachable h
  refine ⟨hinv.accounted, fun slot hslot => ?_, fun action s' hstep => ?_⟩
  · obtain ⟨i, hi⟩ := getElem?_of_mem hslot
    exact (hordered i slot hi).released_slot
  · exact ⟨fun i slot slot' => step_frees hinv hordered hstep,
      fun k error => step_reserve hstep, fun k bytes => step_publish hstep⟩

-- ---- What the design gives up.

/-- A 64-bit target. -/
def platform64 : Platform := ⟨2 ^ 64 - 1, 24, by decide⟩

/-- The steps of one more output of an attached image, as task `k`. -/
def outputRun (k rows columns : Nat) : List Action :=
  .create rows columns true :: List.replicate 13 (.task k true)

/-- The first output of an image, and an outermost entry of a thread. -/
def openingRun (rows columns : Nat) : List Action :=
  [.attach 0, .create rows columns false] ++ List.replicate 23 (.task 0 true) ++
    [.enter 0, .slot 0 true]

/-- The publication of the output of task `k`. -/
def publishRun (k : Nat) : List Action := .publish 0 k :: List.replicate 8 (.slot 0 true)

/-- The heap refuses the block of the entry before. -/
def refusedRun : List Action :=
  openingRun 1 1 ++ publishRun 0 ++ [.leave 0, .enter 0, .slot 0 false, .slot 0 true]

/-- Three publications near the limit of the thread, and a fourth output. -/
def fullRun : List Action :=
  openingRun 1048575 2 ++ outputRun 1 1048575 2 ++ outputRun 2 1048575 2 ++
    outputRun 3 1048575 2 ++ publishRun 0 ++ publishRun 1 ++ publishRun 2

/-- **A block the heap refuses is never freed and stays charged**, and a rejected publication
gives up the reservation of its output: here the block of entry 1 is not free after the
reclamation of entry 2, and the reserved bytes fall by the rejected 16777232. -/
theorem refused_and_rejected : (run (step platform64) new refusedRun).map (fun s =>
        (s.slots.map fun slot => (slot.entries, slot.published, slot.freed),
          s.process.counter .reservedBytes)) = some ([(2, [⟨0, 40, 1⟩], [])], 40) ∧
      (run (step platform64) new fullRun).map (·.process.counter .reservedBytes) =
        some 67108928 ∧
      (run (step platform64) new (fullRun ++ .publish 0 3 :: List.replicate 3 (.task 3 true))).map
        (·.process.counter .reservedBytes) = some 50331696 := by
  refine ⟨?_, ?_, ?_⟩ <;> decide +kernel

theorem numeric_returns_accounted_refused :
    ∃ s : NumericSystem, run (step platform64) new refusedRun = some s ∧ Accounted s := by
  have hrun : (run (step platform64) new refusedRun).isSome = true := by decide +kernel
  obtain ⟨s, hs⟩ := isSome_iff_exists.mp hrun
  exact ⟨s, hs, (numeric_returns_accounted ⟨refusedRun, hs⟩).1⟩

end NumericSystem

end Xlfn.ReturnAbi
