import Xlfn.Handle.Object

/-!
# Xlfn — the handle binding table

`handle/binding.rs` and `handle/binding/transaction.rs` keep the formula-owned
bindings. A slot owns at most one `BindingRecord`; a table of atomic pointers, in
pages that are made on first use, exposes the record to readers that take no lock.

This module is the machine of a `BindingTable`. Reservations, removals and
`retire_all` hold the table's writer lock from their start to their end, so at most
one of them is under way (`writer`); the steps of the one that is, and the steps of
any number of lookups, interleave freely. The constructors of `Writer` follow the
source from one access that a reader could notice to the next.

* A record is named by its place in the order of allocation. That an address is not
  given to another record while a reader holds it is the grace period of the read
  domain; here no record is ever freed.
* Whether the deferred reclamation debt is at its hard limit is the input `overloaded`
  of a reservation.
* `exposedIds`, `removed` and `exhausted` are history.

A failing `expect`, an index out of bounds and a `fail_stop` set `aborted`.
-/

namespace Xlfn.Handle

open Lib Kernel

-- ---- Identities, records and slots.

structure HandleId where
  slot       : Nat
  generation : Nat
deriving DecidableEq

/-- `BindingGeneration::next`. -/
def nextGeneration (generation : Nat) : Option Nat := checkedIncrement generation

inductive BindingState where
  | live
  | retired
deriving DecidableEq

/-- `object` names the object binding the record owns. -/
structure BindingRecord where
  id     : HandleId
  object : Nat
  state  : BindingState
deriving DecidableEq

structure BindingSlot where
  nextGeneration : Nat
  record         : Option Nat
deriving DecidableEq

/-- Advance the generation of a slot whose record is gone, and tell whether the slot
can be used again. -/
def BindingSlot.advance (slot : BindingSlot) : BindingSlot × Bool :=
  match Handle.nextGeneration slot.nextGeneration with
  | some next => ({ slot with nextGeneration := next }, true)
  | none => (slot, false)

-- ---- The published pointers.

def bindingsPerPage : Nat := 256

/-- `PublishedBindings`: `count` pages, each made on first use. -/
structure PublishedBindings where
  count : Nat
  pages : Nat → Option (Nat → Option Nat)

namespace PublishedBindings

def new (maximumBindings : UInt32) : PublishedBindings where
  count := (maximumBindings.toNat + bindingsPerPage - 1) / bindingsPerPage
  pages := fun _ => none

section

variable (p : PublishedBindings)

/-- The atomic pointer of a slot, if its page exists. -/
def entry (slot : Nat) : Option (Option Nat) :=
  if slot / bindingsPerPage < p.count then
    (p.pages (slot / bindingsPerPage)).map fun page => page (slot % bindingsPerPage)
  else
    none

def load (slot : Nat) : Option Nat := (p.entry slot).join

/-- `page.get_or_init`, for a page that exists or that is made of null pointers. -/
def page (slot : Nat) : Nat → Option Nat :=
  (p.pages (slot / bindingsPerPage)).getD fun _ => none

/-- Write the pointer of a slot of an existing page. -/
def store (slot : Nat) (pointer : Option Nat) : PublishedBindings :=
  let page := Function.update (p.page slot) (slot % bindingsPerPage) pointer
  { p with pages := Function.update p.pages (slot / bindingsPerPage) (some page) }

/-- `publish_slot`: only into a null pointer; `none` is `fail_stop`. -/
def publish (slot pointer : Nat) : Option PublishedBindings :=
  if slot / bindingsPerPage < p.count ∧ p.page slot (slot % bindingsPerPage) = none then
    some (p.store slot (some pointer))
  else
    none

/-- The compare-exchange of `withdraw_slot`; `none` is `fail_stop`. -/
def withdraw (slot pointer : Nat) : Option PublishedBindings :=
  if p.entry slot = some (some pointer) then some (p.store slot none) else none

end

end PublishedBindings

-- ---- The table.

inductive ReservationOrigin where
  | reused
  | appended
deriving DecidableEq

/-- Whether `withdraw_slot` serves a removal or `retire_all`. -/
inductive Withdrawal where
  | removal
  | bulk
deriving DecidableEq

/-- Where the holder of the writer lock stands. -/
inductive Writer where
  | reserved (index : Nat) (id : HandleId) (origin : ReservationOrigin)
  | owning (index : Nat) (id : HandleId)
  | exposed (index : Nat)
  | removing (id : HandleId)
  | taken (index pointer : Nat) (mode : Withdrawal)
  | marked (index pointer : Nat) (mode : Withdrawal)
  | withdrawn (index : Nat) (mode : Withdrawal)
  | retiring (index : Nat)
deriving DecidableEq

/-- `RegistryState`, the published pointers, and every record ever allocated. -/
structure BindingTable where
  slots           : List BindingSlot
  free            : List Nat
  liveBindings    : Nat
  published       : PublishedBindings
  maximumBindings : UInt32
  records         : List BindingRecord

def BindingTable.new (maximumBindings : UInt32) : BindingTable where
  slots           := []
  free            := []
  liveBindings    := 0
  published       := .new maximumBindings
  maximumBindings := maximumBindings
  records         := []

/-- Where a lookup stands; `answered none` is `StaleHandle`. -/
inductive LookupPc where
  | start
  | loaded (pointer : Nat)
  | answered (binding : Option Nat)
deriving DecidableEq

structure Lookup where
  id : HandleId
  pc : LookupPc
deriving DecidableEq

structure BindingSystem where
  table      : BindingTable
  writer     : Option Writer
  lookups    : List Lookup
  aborted    : Bool
  exposedIds : List HandleId
  removed    : List HandleId
  exhausted  : List Nat

namespace BindingSystem

def new (maximumBindings : UInt32) : BindingSystem where
  table      := .new maximumBindings
  writer     := none
  lookups    := []
  aborted    := false
  exposedIds := []
  removed    := []
  exhausted  := []

inductive Action where
  | reserve (overloaded : Bool)
  | publish (object : Nat)
  | beginRemoval (id : HandleId)
  | commit
  | drop
  | retireAll
  | proceed
  | startLookup (id : HandleId)
  | lookup (n : Nat)

section

variable (s : BindingSystem)

def abort : BindingSystem := { s with aborted := true }

/-- `BindingReservation::acquire`. An error gives the lock back at once. -/
def reserve (overloaded : Bool) : BindingSystem :=
  let t := s.table
  if overloaded then
    s
  else if t.maximumBindings.toNat ≤ t.liveBindings then
    s
  else
    match t.free.getLast? with
    | some slot =>
      match t.slots[slot]? with
      | none => s.abort
      | some owner =>
        { s with
          table  := { t with free := t.free.dropLast }
          writer := some (.reserved slot ⟨slot, owner.nextGeneration⟩ .reused) }
    | none =>
      let index := t.slots.length
      if t.maximumBindings.toNat ≤ index ∨ u32Max < index then
        s
      else
        { s with
          table  := { t with slots := t.slots ++ [⟨1, none⟩] }
          writer := some (.reserved index ⟨index, 1⟩ .appended) }

/-- `BindingReservation::publish` up to the write of the slot's owner. -/
def publish (object : Nat) : Option BindingSystem :=
  match s.writer with
  | some (.reserved index id _) =>
    match s.table.slots[index]? with
    | none => some s.abort
    | some slot =>
      some { s with
        table  := { s.table with
          records := s.table.records ++ [⟨id, object, .live⟩]
          slots   := s.table.slots.set index { slot with record := some s.table.records.length } }
        writer := some (.owning index id) }
  | _ => none

/-- The drop of a reservation or of a removal that is not carried out. -/
def drop : Option BindingSystem :=
  match s.writer with
  | some (.reserved _ _ .appended) =>
    match s.table.slots with
    | [] => some s.abort
    | slots => some { s with table := { s.table with slots := slots.dropLast }, writer := none }
  | some (.reserved _ id .reused) =>
    some { s with table := { s.table with free := s.table.free ++ [id.slot] }, writer := none }
  | some (.removing _) => some { s with writer := none }
  | _ => none

/-- `BindingRemoval::acquire`. -/
def beginRemoval (id : HandleId) : BindingSystem :=
  match (s.table.slots[id.slot]?).bind (·.record) with
  | none => s
  | some pointer =>
    if s.table.records[pointer]?.any (·.id = id) then
      { s with writer := some (.removing id) }
    else
      s

/-- `withdraw_slot` up to the take of the slot's owner. -/
def take (index : Nat) (mode : Withdrawal) : BindingSystem :=
  match s.table.slots[index]? with
  | some ⟨generation, some pointer⟩ =>
    { s with
      table  := { s.table with slots := s.table.slots.set index ⟨generation, none⟩ }
      writer := some (.taken index pointer mode) }
  | _ => s.abort

/-- `BindingRemoval::commit` up to the take. -/
def commit : Option BindingSystem :=
  match s.writer with
  | some (.removing id) => some (s.take id.slot .removal)
  | _ => none

/-- Advance the generation of an empty slot and give the slot back if it can be used
again; `retire_all` converts the index it gives back. `none` is a failing `expect`. -/
def recycle (index : Nat) (mode : Withdrawal) : Option BindingSystem := do
  let slot ← s.table.slots[index]?
  match slot.advance with
  | (slot, true) =>
    if mode = .bulk ∧ u32Max < index then
      none
    else
      some { s with table := { s.table with
          slots := s.table.slots.set index slot
          free  := s.table.free ++ [index] } }
  | (_, false) => some { s with exhausted := s.exhausted ++ [index] }

/-- The next step of the holder of the writer lock. -/
def proceed : Option BindingSystem :=
  match s.writer with
  | some (.owning index id) =>
    match (s.table.slots[index]?).bind (·.record) with
    | none => some s.abort
    | some pointer =>
      match s.table.published.publish id.slot pointer with
      | none => some s.abort
      | some published =>
        some { s with
          table      := { s.table with published }
          writer     := some (.exposed index)
          exposedIds := s.exposedIds ++ [id] }
  | some (.exposed _) =>
    match checkedAdd u32Max s.table.liveBindings with
    | none => some s.abort
    | some liveBindings =>
      some { s with table := { s.table with liveBindings }, writer := none }
  | some (.taken index pointer mode) =>
    match s.table.records[pointer]? with
    | none => some s.abort
    | some record =>
      some { s with
        table   := { s.table with
          records := s.table.records.set pointer { record with state := .retired } }
        writer  := some (.marked index pointer mode)
        removed := s.removed ++ [record.id] }
  | some (.marked index pointer mode) =>
    match (s.table.records[pointer]?).bind fun record =>
      s.table.published.withdraw record.id.slot pointer with
    | none => some s.abort
    | some published =>
      some { s with table := { s.table with published }, writer := some (.withdrawn index mode) }
  | some (.withdrawn index .removal) =>
    match s.recycle index .removal, checkedAtomicDec s.table.liveBindings with
    | some s', some liveBindings =>
      some { s' with table := { s'.table with liveBindings }, writer := none }
    | _, _ => some s.abort
  | some (.withdrawn index .bulk) =>
    match s.recycle index .bulk with
    | none => some s.abort
    | some s' => some { s' with writer := some (.retiring (index + 1)) }
  | some (.retiring index) =>
    match s.table.slots[index]? with
    | none => some { s with table := { s.table with liveBindings := 0 }, writer := none }
    | some slot =>
      if slot.record.isSome then
        some (s.take index .bulk)
      else
        match s.recycle index .bulk with
        | none => some s.abort
        | some s' => some { s' with writer := some (.retiring (index + 1)) }
  | _ => none

/-- `read_scoped`: load the pointer, then check identity and state. -/
def lookup (s : BindingSystem) (n : Nat) : Option BindingSystem := do
  let lookup ← s.lookups[n]?
  let goto (pc : LookupPc) : BindingSystem :=
    { s with lookups := s.lookups.set n { lookup with pc } }
  match lookup.pc with
  | .start =>
    match s.table.published.load lookup.id.slot with
    | none => some (goto (.answered none))
    | some pointer => some (goto (.loaded pointer))
  | .loaded pointer =>
    let record ← s.table.records[pointer]?
    if record.id = lookup.id ∧ record.state = .live then
      some (goto (.answered (some pointer)))
    else
      some (goto (.answered none))
  | .answered _ => none

/-- One step of the system. A call that takes the writer lock begins where nobody
holds it; an aborted process takes no step. -/
def step (action : Action) : Option BindingSystem :=
  if s.aborted then
    none
  else
    match action with
    | .reserve overloaded => if s.writer.isNone then some (s.reserve overloaded) else none
    | .beginRemoval id => if s.writer.isNone then some (s.beginRemoval id) else none
    | .retireAll =>
      if s.writer.isNone then
        some { s with table := { s.table with free := [] }, writer := some (.retiring 0) }
      else
        none
    | .publish object => s.publish object
    | .commit => s.commit
    | .drop => s.drop
    | .proceed => s.proceed
    | .startLookup id => some { s with lookups := s.lookups ++ [⟨id, .start⟩] }
    | .lookup n => s.lookup n

end

end BindingSystem

end Xlfn.Handle
