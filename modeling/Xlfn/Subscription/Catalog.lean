import Xlfn.Subscription.Budget
import Xlfn.Subscription.Delivery

/-!
# Xlfn — the subscription catalog

`subscription/catalog.rs` and `subscription/identity.rs`: the entries of a
runtime's subscriptions, the index that finds an entry by its source and topic,
and two aggregate counters over the entries that are still pending.

A source id is a value of `S` and a topic one of `T`, whose hash and length in
bytes are those of its parts (`TopicMetadata`). Two topics are equal when their
parts are. A function that can reach `fail_stop`, or an `expect`, returns an
`Option`, and `none` is the stopped process.

* `SubscriptionEntry` — one subscription and the transitions of its phase.
* `SubscriptionIdentityIndex` — the buckets of ids, and how often a source is used.
* `SubscriptionCatalog` — the table, the index and the counters.

Left out: `SubscriptionKey`, which only pairs an id with the runtime's number, and
the unwinding of a user's `AsRef`, which comes before anything is written.
-/

namespace Xlfn.Subscription

open Xlfn.Lib Xlfn.Kernel

-- ---- Identities, limits and errors.

@[ext]
structure ServerGeneration where
  raw     : Nat
  nonZero : raw ≠ 0

instance : DecidableEq ServerGeneration := fun a b =>
  decidable_of_iff (a.raw = b.raw) ServerGeneration.ext_iff.symm

@[ext]
structure NonZeroUsize where
  get     : Nat
  nonZero : get ≠ 0

instance : DecidableEq NonZeroUsize := fun a b =>
  decidable_of_iff (a.get = b.get) NonZeroUsize.ext_iff.symm

/-- What `RtdTopic` keeps of its parts. -/
class TopicMetadata (T : Type) where
  identityHash : T → Nat
  byteLen      : T → Nat

/-- The part of `RtdLimits` that the catalog checks. -/
structure CatalogLimits where
  maxPending         : Nat
  maxTotalTopicBytes : Nat
  maxSourceIds       : Nat
deriving DecidableEq

inductive CatalogDiagnostic where
  | activeKeyDuplicate
  | reservationOverflow
  | serverGenerationMismatch
  | connectionInflight
  | rtdIndexOrphan
  | rtdIndexDuplicate
  | rtdSubscriptionOverflow
deriving DecidableEq

/-- The errors the catalog and its callers return. -/
inductive CatalogError where
  | closing
  | overloaded
  | staleHandle
  | internal (diagnosticId : CatalogDiagnostic)
deriving DecidableEq

-- ---- Entries.

inductive PendingCommitment where
  | uncommitted
  | committed
deriving DecidableEq

inductive SubscriptionPhase where
  | pending (reservations : Option NonZeroUsize) (server : Option ServerGeneration)
      (commitment : PendingCommitment)
  | connecting (reservations : Option NonZeroUsize) (server : ServerGeneration)
      (connection : ConnectionGeneration) (commitment : PendingCommitment)
  | active (server : ServerGeneration) (connection : ConnectionGeneration)
      (reservation : Option NonZeroUsize)
deriving DecidableEq

/-- Authority of one connection attempt. -/
structure ConnectionTicket where
  server     : ServerGeneration
  connection : ConnectionGeneration
deriving DecidableEq

structure SubscriptionEntry (S T : Type) where
  sourceId : S
  topic    : T
  phase    : SubscriptionPhase
deriving DecidableEq

namespace SubscriptionEntry

variable {S T : Type}

section

variable (entry : SubscriptionEntry S T)

def isConnected : Bool :=
  match entry.phase with
  | .pending _ _ _ => false
  | .connecting _ _ _ _ => true
  | .active _ _ _ => true

def isActive : Bool :=
  match entry.phase with
  | .active _ _ _ => true
  | _ => false

def tracksPendingBytes : Bool :=
  match entry.phase with
  | .active _ _ none => false
  | _ => true

def canRemove : Bool :=
  match entry.phase with
  | .pending none _ .uncommitted => true
  | _ => false

def serverGeneration : Option ServerGeneration :=
  match entry.phase with
  | .pending _ server _ => server
  | .connecting _ server _ _ => some server
  | .active server _ _ => some server

def connectionGeneration : Option ConnectionGeneration :=
  match entry.phase with
  | .pending _ _ _ => none
  | .connecting _ _ connection _ => some connection
  | .active _ connection _ => some connection

/-- The reservations of an entry, in whatever phase it is. -/
def reservations (entry : SubscriptionEntry S T) : Option NonZeroUsize :=
  match entry.phase with
  | .pending reservations _ _ => reservations
  | .connecting reservations _ _ _ => reservations
  | .active _ _ reservation => reservation

/-- One more reservation. -/
def nextReservation (reservations : Option NonZeroUsize) : Except CatalogError NonZeroUsize :=
  let count := (reservations.map (·.get)).getD 0
  if count + 1 ≤ usizeMax then .ok ⟨count + 1, Nat.succ_ne_zero _⟩
  else .error (.internal .reservationOverflow)

/-- One reservation less; the last one leaves none. -/
def lessReservation (reservations : Option NonZeroUsize) : Option NonZeroUsize :=
  match reservations with
  | none => none
  | some current =>
    if h : current.get = 1 then none
    else some ⟨current.get - 1, by have := current.nonZero; omega⟩

def addReservation : SubscriptionEntry S T × Except CatalogError Unit :=
  match entry.phase with
  | .pending reservations server commitment =>
    match nextReservation reservations with
    | .ok next => ({ entry with phase := .pending (some next) server commitment }, .ok ())
    | .error error => (entry, .error error)
  | .connecting reservations server connection commitment =>
    match nextReservation reservations with
    | .ok next =>
      ({ entry with phase := .connecting (some next) server connection commitment }, .ok ())
    | .error error => (entry, .error error)
  | .active _ _ _ => (entry, .error (.internal .activeKeyDuplicate))

end

/-- `finish_preparation`; the flag is `PreparationFinish::Remove`. -/
def finishPreparation (committed : Bool) (entry : SubscriptionEntry S T) :
    SubscriptionEntry S T × Bool :=
  match entry.phase with
  | .pending reservations server commitment =>
    let entry := { entry with
      phase := .pending (lessReservation reservations) server
        (if committed then .committed else commitment) }
    (entry, !committed && entry.canRemove)
  | .connecting reservations server connection commitment =>
    let entry := { entry with
      phase := .connecting (lessReservation reservations) server connection
        (if committed then .committed else commitment) }
    (entry, !committed && entry.canRemove)
  | .active server connection reservation =>
    ({ entry with phase := .active server connection (lessReservation reservation) }, false)

def claimServer (generation : ServerGeneration) (entry : SubscriptionEntry S T) :
    SubscriptionEntry S T × Except CatalogError Unit :=
  match entry.phase with
  | .pending reservations server commitment =>
    match server with
    | some existing =>
      if existing ≠ generation then (entry, .error (.internal .serverGenerationMismatch))
      else (entry, .ok ())
    | none => ({ entry with phase := .pending reservations (some generation) commitment }, .ok ())
  | .connecting _ server _ _ =>
    if server ≠ generation then (entry, .error (.internal .serverGenerationMismatch))
    else (entry, .ok ())
  | .active server _ _ =>
    if server ≠ generation then (entry, .error (.internal .serverGenerationMismatch))
    else (entry, .ok ())

def beginConnection (server : ServerGeneration) (connection : ConnectionGeneration)
    (entry : SubscriptionEntry S T) : SubscriptionEntry S T × Except CatalogError ConnectionTicket :=
  match entry.phase with
  | .pending reservations existing commitment =>
    if existing.any (· ≠ server) then (entry, .error (.internal .serverGenerationMismatch))
    else
      ({ entry with phase := .connecting reservations server connection commitment },
        .ok ⟨server, connection⟩)
  | .connecting _ _ _ _ => (entry, .error (.internal .connectionInflight))
  | .active _ _ _ => (entry, .error (.internal .activeKeyDuplicate))

/-- `rollback_connection`; the flag says that the ticket was the entry's. -/
def rollbackConnection (ticket : ConnectionTicket) (entry : SubscriptionEntry S T) :
    SubscriptionEntry S T × Bool :=
  match entry.phase with
  | .connecting reservations server current commitment =>
    if current = ticket.connection ∧ server = ticket.server then
      ({ entry with phase := .pending reservations (some server) commitment }, true)
    else (entry, false)
  | _ => (entry, false)

/-- `finish_connection`; the flag says that the ticket was the entry's. -/
def finishConnection (ticket : ConnectionTicket) (entry : SubscriptionEntry S T) :
    SubscriptionEntry S T × Bool :=
  match entry.phase with
  | .connecting reservations server current _ =>
    if current = ticket.connection ∧ server = ticket.server then
      ({ entry with phase := .active server ticket.connection reservations }, true)
    else (entry, false)
  | _ => (entry, false)

/-- `reset_for_server_termination`; the flag says that the entry was the server's. -/
def resetForServerTermination (server : ServerGeneration) (entry : SubscriptionEntry S T) :
    SubscriptionEntry S T × Bool :=
  match entry.phase with
  | .pending reservations current _ =>
    if current = some server then
      ({ entry with phase := .pending reservations none .uncommitted }, true)
    else (entry, false)
  | .connecting reservations current _ _ =>
    if current = server then
      ({ entry with phase := .pending reservations none .uncommitted }, true)
    else (entry, false)
  | .active _ _ _ => (entry, false)

/-- `cleanup_connection`; the flag is its second result, that the entry is to be
removed. An active entry without a reservation is removed as it is. -/
def cleanupConnection (server : ServerGeneration) (connection : ConnectionGeneration)
    (entry : SubscriptionEntry S T) : SubscriptionEntry S T × Bool :=
  match entry.phase with
  | .connecting reservations currentServer currentConnection _ =>
    if currentServer = server ∧ currentConnection = connection then
      let entry := { entry with phase := .pending reservations none .uncommitted }
      (entry, entry.canRemove)
    else (entry, false)
  | .active currentServer currentConnection reservation =>
    if currentServer = server ∧ currentConnection = connection then
      match reservation with
      | none => (entry, true)
      | some reservations =>
        ({ entry with phase := .pending (some reservations) none .uncommitted }, false)
    else (entry, false)
  | _ => (entry, false)

end SubscriptionEntry

-- ---- The identity index.

structure SubscriptionIdentityKey (S : Type) where
  sourceId  : S
  topicHash : Nat
deriving DecidableEq

/-- `SmallVec::swap_remove`. -/
def swapRemove {α : Type} (l : List α) (position : Nat) : List α :=
  match l.getLast? with
  | some last => (l.set position last).dropLast
  | none => l

structure SubscriptionIdentityIndex (S : Type) [DecidableEq S] where
  idsByKey   : Table (SubscriptionIdentityKey S) (List SubscriptionId)
  sourceRefs : Table S NonZeroUsize

/-- The key of a source and a topic. -/
def identityKey {S T : Type} [TopicMetadata T] (sourceId : S) (topic : T) :
    SubscriptionIdentityKey S :=
  ⟨sourceId, TopicMetadata.identityHash topic⟩

namespace SubscriptionIdentityIndex

variable {S : Type} [DecidableEq S]

def candidates (index : SubscriptionIdentityIndex S) (key : SubscriptionIdentityKey S) :
    List SubscriptionId :=
  (index.idsByKey.lookup key).getD []

/-- `prepare_insert` and `IdentityInsertion::commit`. -/
def insert (index : SubscriptionIdentityIndex S) (key : SubscriptionIdentityKey S)
    (id : SubscriptionId) (maxSourceIds : Nat) :
    Except CatalogError (SubscriptionIdentityIndex S) :=
  if id ∈ index.candidates key then .error (.internal .rtdIndexDuplicate)
  else
    let idsByKey := index.idsByKey.insert key (index.candidates key ++ [id])
    match index.sourceRefs.lookup key.sourceId with
    | some refs =>
      if refs.get + 1 ≤ usizeMax then
        .ok ⟨idsByKey, index.sourceRefs.insert key.sourceId ⟨refs.get + 1, Nat.succ_ne_zero _⟩⟩
      else .error (.internal .rtdSubscriptionOverflow)
    | none =>
      if index.sourceRefs.size ≥ maxSourceIds then .error .overloaded
      else .ok ⟨idsByKey, index.sourceRefs.insert key.sourceId ⟨1, Nat.one_ne_zero⟩⟩

/-- `release_ref`; `none` is `fail_stop`. -/
def releaseRef (refs : Table S NonZeroUsize) (sourceId : S) : Option (Table S NonZeroUsize) :=
  match refs.lookup sourceId with
  | none => none
  | some count =>
    if h : count.get = 1 then some (refs.erase sourceId)
    else some (refs.insert sourceId ⟨count.get - 1, by have := count.nonZero; omega⟩)

/-- `remove`; the flag says that the id was found. -/
def remove (index : SubscriptionIdentityIndex S) (key : SubscriptionIdentityKey S)
    (id : SubscriptionId) : Option (SubscriptionIdentityIndex S × Bool) :=
  match index.idsByKey.lookup key with
  | none => some (index, false)
  | some ids =>
    match ids.idxOf? id with
    | none => some (index, false)
    | some position =>
      let ids := swapRemove ids position
      (releaseRef index.sourceRefs key.sourceId).map fun refs =>
        (⟨if ids = [] then index.idsByKey.erase key else index.idsByKey.insert key ids, refs⟩, true)

end SubscriptionIdentityIndex

-- ---- The catalog.

structure SubscriptionCatalog (S T : Type) [DecidableEq S] where
  entries            : Table SubscriptionId (SubscriptionEntry S T)
  pendingTopicBytes  : Nat
  pendingCount       : Nat
  identities         : SubscriptionIdentityIndex S
  nextSubscriptionId : Nat

namespace SubscriptionCatalog

variable {S T : Type} [DecidableEq S] [DecidableEq T] [TopicMetadata T]

/-- The catalog of a new runtime. -/
def new : SubscriptionCatalog S T where
  entries            := ∅
  pendingTopicBytes  := 0
  pendingCount       := 0
  identities         := ⟨∅, ∅⟩
  nextSubscriptionId := 1

section

variable (catalog : SubscriptionCatalog S T)

/-- The loop of `find_identity` over the candidates that are left. -/
def findAmong (sourceId : S) (topic : T) :
    List SubscriptionId → Except CatalogError (Option (SubscriptionId × SubscriptionEntry S T))
  | [] => .ok none
  | id :: ids =>
    match catalog.entries.lookup id with
    | none => .error (.internal .rtdIndexOrphan)
    | some entry =>
      if entry.sourceId = sourceId ∧ entry.topic = topic then .ok (some (id, entry))
      else findAmong sourceId topic ids

def findIdentity (sourceId : S) (topic : T) :
    Except CatalogError (Option (SubscriptionId × SubscriptionEntry S T)) :=
  catalog.findAmong sourceId topic (catalog.identities.candidates (identityKey sourceId topic))

/-- `plan_pending_insert`, then `PendingInsertPlan::commit`. -/
def insertPending (limits : CatalogLimits) (sourceId : S)
    (topic : T) : Except CatalogError (SubscriptionCatalog S T × SubscriptionId) :=
  if catalog.pendingCount ≥ limits.maxPending then .error .overloaded
  else
    match (checkedAdd catalog.pendingTopicBytes (TopicMetadata.byteLen topic)).filter
      (· ≤ limits.maxTotalTopicBytes) with
    | none => .error .overloaded
    | some pendingTopicBytes =>
      match checkedIncrement catalog.nextSubscriptionId with
      | none => .error (.internal .rtdSubscriptionOverflow)
      | some nextSubscriptionId =>
        let id : SubscriptionId := ⟨catalog.nextSubscriptionId⟩
        match catalog.identities.insert (identityKey sourceId topic) id limits.maxSourceIds with
        | .error error => .error error
        | .ok identities =>
          if (catalog.entries.lookup id).isSome then .error (.internal .rtdIndexDuplicate)
          else
            .ok (⟨catalog.entries.insert id
                ⟨sourceId, topic, .pending (some ⟨1, Nat.one_ne_zero⟩) none .uncommitted⟩,
              pendingTopicBytes, catalog.pendingCount + 1, identities, nextSubscriptionId⟩, id)

/-- The accounting of `with_entry` after the entry was updated. -/
def account (wasPending isPending : Bool) (topicBytes : Nat) : Option (SubscriptionCatalog S T) :=
  match wasPending, isPending with
  | false, true => do
    let pendingTopicBytes ← checkedAdd catalog.pendingTopicBytes topicBytes
    some { catalog with
      pendingCount      := catalog.pendingCount + 1
      pendingTopicBytes := pendingTopicBytes }
  | true, false => do
    let pendingCount ← checkedSubOrAbort catalog.pendingCount 1
    let pendingTopicBytes ← checkedSubOrAbort catalog.pendingTopicBytes topicBytes
    some { catalog with pendingCount := pendingCount, pendingTopicBytes := pendingTopicBytes }
  | _, _ => some catalog

/-- `with_entry`; the inner `none` is a missing entry. -/
def withEntry {R : Type} (id : SubscriptionId)
    (update : SubscriptionEntry S T → SubscriptionEntry S T × R) :
    Option (SubscriptionCatalog S T × Option R) :=
  match catalog.entries.lookup id with
  | none => some (catalog, none)
  | some entry =>
    let updated := update entry
    (({ catalog with entries := catalog.entries.insert id updated.1 }).account
        entry.tracksPendingBytes updated.1.tracksPendingBytes
        (TopicMetadata.byteLen entry.topic)).map fun catalog => (catalog, some updated.2)

/-- `remove_entry`; the inner `none` is a missing entry. -/
def removeEntry (id : SubscriptionId) :
    Option (SubscriptionCatalog S T × Option (SubscriptionEntry S T)) :=
  match catalog.entries.lookup id with
  | none => some (catalog, none)
  | some removed => do
    let catalog ← ({ catalog with entries := catalog.entries.erase id }).account
      removed.tracksPendingBytes false (TopicMetadata.byteLen removed.topic)
    match ← catalog.identities.remove (identityKey removed.sourceId removed.topic) id with
    | (identities, true) => some ({ catalog with identities := identities }, some removed)
    | (_, false) => none

/-- `with_entry` by an update that says whether the entry is to be removed, then
`remove_entry` if it does. The second result is the removed entry. -/
def settle (id : SubscriptionId) (update : SubscriptionEntry S T → SubscriptionEntry S T × Bool) :
    Option (SubscriptionCatalog S T × Option (SubscriptionEntry S T)) := do
  match ← catalog.withEntry id update with
  | (catalog, some true) => catalog.removeEntry id
  | (catalog, _) => some (catalog, none)

end

end SubscriptionCatalog

end Xlfn.Subscription
