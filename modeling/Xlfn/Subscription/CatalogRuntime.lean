import Xlfn.Lib.Machine
import Xlfn.Subscription.Catalog

/-!
# Xlfn — the catalog as the subscription runtime uses it

`subscription/runtime.rs` and the end of `subscription/server.rs`: preparations with
their reservation tokens, connection transactions, disconnection and the termination
of a server, over one catalog. The catalog is only used under its lock, so a step is
one section under that lock, or one access to the data plane between two of them.

Of the data plane the model keeps the bindings: `reserve_connection` makes one, and
rolling back, disconnecting and terminating each take one away before the catalog
hears of it. Everything else there, and a source that refuses, may happen at any
point of a transaction: it can be rolled back at every stage.

`created` and `removals` are not in the source: they record the ids that
`insert_pending` gave out and the entries that `remove_entry` returned. `aborted` is
set by a `fail_stop`, an underflow or a failing `expect`.

Left out: the gates that refuse an operation before it reaches the catalog, and
`finish` of the runtime's termination, which empties the catalog.
-/

namespace Xlfn.Subscription

open Xlfn.Lib Xlfn.Kernel SubscriptionEntry

/-- `PreparedSubscription`. The flag is the live `PreparationReservation`. -/
structure PreparedSubscription where
  id          : SubscriptionId
  reservation : Bool
deriving DecidableEq

inductive TransactionStage where
  /-- The connection has its generation and has not reached the catalog. -/
  | allocated
  | catalogReserved
  /-- `PublishReserved` and `InstalledConnection`. -/
  | publishReserved
  /-- `rollback_connection` has given up the binding and goes to the catalog. -/
  | unbound
  | finished
deriving DecidableEq

/-- `ConnectionTransaction`. -/
structure ConnectionTransaction where
  id     : SubscriptionId
  ticket : ConnectionTicket
  stage  : TransactionStage
deriving DecidableEq

/-- A connection of the data plane. -/
structure Binding where
  id     : SubscriptionId
  ticket : ConnectionTicket
deriving DecidableEq

/-- An entry that `remove_entry` returned. -/
structure Removal (S T : Type) where
  id    : SubscriptionId
  entry : SubscriptionEntry S T
deriving DecidableEq

structure CatalogRuntime (S T : Type) [DecidableEq S] where
  catalog                  : SubscriptionCatalog S T
  nextConnectionGeneration : Nat
  prepared                 : List PreparedSubscription
  transactions             : List ConnectionTransaction
  bindings                 : List Binding
  /-- Connections that were disconnected and are still to be cleaned up. -/
  retiring                 : List Binding
  /-- Servers being terminated, with the connections they had. -/
  terminating              : List (ServerGeneration × List Binding)
  created                  : List SubscriptionId
  removals                 : List (Removal S T)
  aborted                  : Bool

-- ---- What the runtime does to an entry under the lock.

namespace SubscriptionEntry

variable {S T : Type}

/-- The update of `connect_from_handle`. -/
def connectFrom (resolves : S → Bool) (ticket : ConnectionTicket) (entry : SubscriptionEntry S T) :
    SubscriptionEntry S T × Except CatalogError ConnectionTicket :=
  if resolves entry.sourceId then entry.beginConnection ticket.server ticket.connection
  else (entry, .error .staleHandle)

/-- The update of `rollback_catalog_connection_reservation`. -/
def rollbackCatalogConnectionReservation (ticket : ConnectionTicket)
    (entry : SubscriptionEntry S T) : SubscriptionEntry S T × Bool :=
  let entry := (entry.rollbackConnection ticket).1
  (entry, entry.canRemove)

/-- The update of the runtime's `rollback_connection`. -/
def rollbackPublished (ticket : ConnectionTicket) (entry : SubscriptionEntry S T) :
    SubscriptionEntry S T × Bool :=
  let (entry, transitioned) := entry.rollbackConnection ticket
  (entry, transitioned && entry.canRemove)

/-- The update of `cleanup_catalog_binding_and_pending`. -/
def cleanupCatalogBindingAndPending (ticket : ConnectionTicket) (entry : SubscriptionEntry S T) :
    SubscriptionEntry S T × Bool :=
  if entry.connectionGeneration ≠ some ticket.connection ∨
      entry.serverGeneration ≠ some ticket.server then (entry, false)
  else entry.cleanupConnection ticket.server ticket.connection

/-- The update of the last loop of a server's termination. -/
def terminationReset (server : ServerGeneration) (entry : SubscriptionEntry S T) :
    SubscriptionEntry S T × Bool :=
  let (entry, reset) := entry.resetForServerTermination server
  (entry, reset && entry.canRemove)

end SubscriptionEntry

namespace CatalogRuntime

variable {S T : Type} [DecidableEq S] [DecidableEq T] [TopicMetadata T]

def new : CatalogRuntime S T where
  catalog                  := .new
  nextConnectionGeneration := 1
  prepared                 := []
  transactions             := []
  bindings                 := []
  retiring                 := []
  terminating              := []
  created                  := []
  removals                 := []
  aborted                  := false

-- ---- Operations.

section

variable (s : CatalogRuntime S T)

/-- A section under the lock, and what its result is used for. -/
def locked {R : Type} (outcome : Option (SubscriptionCatalog S T × R))
    (next : R → CatalogRuntime S T → CatalogRuntime S T) : CatalogRuntime S T :=
  match outcome with
  | some (catalog, result) => next result { s with catalog := catalog }
  | none => { s with aborted := true }

/-- A section that updates an entry and may remove it. -/
def settling (id : SubscriptionId)
    (update : SubscriptionEntry S T → SubscriptionEntry S T × Bool) : CatalogRuntime S T :=
  s.locked (s.catalog.settle id update) fun removed s =>
    { s with removals := s.removals ++ (removed.map (⟨id, ·⟩)).toList }

def addPrepared (prepared : PreparedSubscription) : CatalogRuntime S T :=
  { s with prepared := s.prepared ++ [prepared] }

def setTransaction (k : Nat) (transaction : ConnectionTransaction) : CatalogRuntime S T :=
  { s with transactions := s.transactions.set k transaction }

def prepare (limits : CatalogLimits) (resolves : S → Bool) (s : CatalogRuntime S T) (sourceId : S)
    (topic : T) : CatalogRuntime S T :=
  if !resolves sourceId then s
  else
    match s.catalog.findIdentity sourceId topic with
    | .error _ => s
    | .ok (some (id, entry)) =>
      if entry.isConnected then s.addPrepared ⟨id, false⟩
      else
        s.locked (s.catalog.withEntry id addReservation) fun result s =>
          match result with
          | some (.ok ()) => s.addPrepared ⟨id, true⟩
          | _ => s
    | .ok none =>
      match s.catalog.insertPending limits sourceId topic with
      | .error _ => s
      | .ok (catalog, id) =>
        { s with catalog := catalog, created := s.created ++ [id] }.addPrepared ⟨id, true⟩

/-- `PreparedSubscription::finish`, by a commit, a rollback or a drop. -/
def finish (k : Nat) (prepared : PreparedSubscription) (committed : Bool) : CatalogRuntime S T :=
  if prepared.reservation then
    { s with prepared := s.prepared.set k { prepared with reservation := false } }.settling
      prepared.id (finishPreparation committed)
  else s

def claimServer (server : ServerGeneration) (id : SubscriptionId) : CatalogRuntime S T :=
  s.locked (s.catalog.withEntry id (SubscriptionEntry.claimServer server)) fun _ s => s

/-- The start of `connect_from_handle`. -/
def allocate (server : ServerGeneration) (id : SubscriptionId) : CatalogRuntime S T :=
  match checkedIncrement s.nextConnectionGeneration,
    ConnectionGeneration.new s.nextConnectionGeneration with
  | some next, some connection =>
    { s with
      nextConnectionGeneration := next
      transactions := s.transactions ++ [⟨id, ⟨server, connection⟩, .allocated⟩] }
  | some next, none => { s with nextConnectionGeneration := next }
  | none, _ => s

/-- The section of `connect_from_handle`. -/
def reserveCatalog (resolves : S → Bool) (s : CatalogRuntime S T) (k : Nat)
    (t : ConnectionTransaction) : CatalogRuntime S T :=
  s.locked (s.catalog.withEntry t.id (connectFrom resolves t.ticket))
    fun result s =>
      match result with
      | some (.ok _) => s.setTransaction k { t with stage := .catalogReserved }
      | _ => s.setTransaction k { t with stage := .finished }

/-- `reserve_publication`, when the data plane accepts. -/
def reservePublication (k : Nat) (t : ConnectionTransaction) : CatalogRuntime S T :=
  let bound : CatalogRuntime S T := { s with bindings := s.bindings ++ [⟨t.id, t.ticket⟩] }
  bound.setTransaction k { t with stage := .publishReserved }

/-- The section of `commit_connection`. A refused commit is rolled back. -/
def commitConnection (k : Nat) (t : ConnectionTransaction) : CatalogRuntime S T :=
  s.locked (s.catalog.withEntry t.id (finishConnection t.ticket))
    fun result s =>
      if result = some true then s.setTransaction k { t with stage := .finished } else s

/-- The access of `rollback_connection` to the data plane. -/
def unbind (k : Nat) (t : ConnectionTransaction) : CatalogRuntime S T :=
  let unbound : CatalogRuntime S T := { s with bindings := s.bindings.erase ⟨t.id, t.ticket⟩ }
  unbound.setTransaction k { t with stage := .unbound }

/-- The termination of a server under the lock. -/
def terminate (server : ServerGeneration) (active : List Binding) : CatalogRuntime S T :=
  let cleaned := active.foldl
    (fun s topic => s.settling topic.id
      (cleanupCatalogBindingAndPending ⟨server, topic.ticket.connection⟩)) s
  let pendingIds := (cleaned.catalog.entries.entries.filter fun x =>
    !x.2.isActive && x.2.serverGeneration == some server).map (·.1)
  pendingIds.foldl (fun s id => s.settling id (terminationReset server)) cleaned

end

-- ---- The machine.

inductive Action (S T : Type) where
  | prepare (sourceId : S) (topic : T)
  | finish (k : Nat) (committed : Bool)
  | claimServer (server : ServerGeneration) (id : SubscriptionId)
  | allocate (server : ServerGeneration) (id : SubscriptionId)
  | reserveCatalog (k : Nat)
  | reservePublication (k : Nat)
  | commit (k : Nat)
  | unbind (k : Nat)
  | rollback (k : Nat)
  /-- `disconnect_connection` of the data plane. -/
  | disconnect (b : Nat)
  /-- The section of a disconnection. -/
  | cleanup (r : Nat)
  /-- The data plane of a server has drained. -/
  | drain (server : ServerGeneration)
  /-- The section of a server's termination. -/
  | terminate (r : Nat)
deriving DecidableEq

def step (limits : CatalogLimits) (resolves : S → Bool) (s : CatalogRuntime S T)
    (action : Action S T) : Option (CatalogRuntime S T) :=
  if s.aborted then none
  else match action with
  | .prepare sourceId topic => some (s.prepare limits resolves sourceId topic)
  | .finish k committed => (s.prepared[k]?).map fun prepared => s.finish k prepared committed
  | .claimServer server id => some (s.claimServer server id)
  | .allocate server id => some (s.allocate server id)
  | .reserveCatalog k =>
    match s.transactions[k]? with
    | some t => if t.stage = .allocated then some (s.reserveCatalog resolves k t) else none
    | none => none
  | .reservePublication k =>
    match s.transactions[k]? with
    | some t => if t.stage = .catalogReserved then some (s.reservePublication k t) else none
    | none => none
  | .commit k =>
    match s.transactions[k]? with
    | some t => if t.stage = .publishReserved then some (s.commitConnection k t) else none
    | none => none
  | .unbind k =>
    match s.transactions[k]? with
    | some t => if t.stage = .publishReserved then some (s.unbind k t) else none
    | none => none
  | .rollback k =>
    match s.transactions[k]? with
    | some t =>
      if t.stage = .catalogReserved then
        some ((s.setTransaction k { t with stage := .finished }).settling t.id
          (rollbackCatalogConnectionReservation t.ticket))
      else if t.stage = .unbound then
        some ((s.setTransaction k { t with stage := .finished }).settling t.id
          (rollbackPublished t.ticket))
      else none
    | none => none
  | .disconnect b =>
    (s.bindings[b]?).map fun binding =>
      { s with bindings := s.bindings.erase binding, retiring := s.retiring ++ [binding] }
  | .cleanup r =>
    (s.retiring[r]?).map fun binding =>
      { s with retiring := s.retiring.eraseIdx r }.settling binding.id
        (cleanupCatalogBindingAndPending binding.ticket)
  | .drain server =>
    some { s with
      bindings    := s.bindings.filter (·.ticket.server ≠ server)
      terminating :=
        s.terminating ++ [(server, s.bindings.filter (·.ticket.server = server))] }
  | .terminate r =>
    (s.terminating[r]?).map fun t =>
      { s with terminating := s.terminating.eraseIdx r }.terminate t.1 t.2

end CatalogRuntime

end Xlfn.Subscription
