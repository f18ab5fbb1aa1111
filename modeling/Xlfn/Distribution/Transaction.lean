import Xlfn.Distribution.World

/-!
# Xlfn — transaction directories

A commit works in a directory next to its destination. The directory is made under a private name,
gets its first journal, and is renamed to its public name; both names begin with the name of the
destination, and recovery finds the directories of a destination by that beginning. Who a directory
belongs to is in its journal.

* `transactionName`, `privateName`, `quarantineName` — the names.
* `createTransaction` — a new directory.
* `validateTransactionProvenance` — whether a journal belongs to its directory.
* `quarantineTransaction` — a directory that is put aside.
-/

namespace Xlfn.Distribution

open Xlfn.Lib.Act
open Xlfn.Lib (Act)
open Xlfn.Package (Name)

variable {I : Type}

-- ---- Names.

/-- `.transaction-`. -/
def transactionInfix : Name :=
  ['.', 't', 'r', 'a', 'n', 's', 'a', 'c', 't', 'i', 'o', 'n', '-']

/-- `private-`. -/
def privateMark : Name := ['p', 'r', 'i', 'v', 'a', 't', 'e', '-']

/-- `.quarantine-transaction-`. -/
def quarantineInfix : Name :=
  ['.', 'q', 'u', 'a', 'r', 'a', 'n', 't', 'i', 'n', 'e', '-', 't', 'r', 'a', 'n', 's', 'a', 'c',
    't', 'i', 'o', 'n', '-']

/-- A number in a name. -/
def decimal (n : Nat) : Name := Nat.toDigits 10 n

/-- `{process}-{timestamp}-{counter}`. -/
def transactionId (process timestamp counter : Nat) : Name :=
  decimal process ++ '-' :: decimal timestamp ++ '-' :: decimal counter

/-- `.{destination_name}.transaction-`. -/
def transactionPrefix (destinationName : Name) : Name :=
  '.' :: destinationName ++ transactionInfix

def transactionName (destinationName id : Name) : Name := transactionPrefix destinationName ++ id

def privateName (destinationName id : Name) : Name :=
  transactionPrefix destinationName ++ privateMark ++ id

/-- `.{destination_name}.quarantine-transaction-{id}-{counter}`. -/
def quarantineName (destinationName id : Name) (counter : Nat) : Name :=
  '.' :: destinationName ++ quarantineInfix ++ id ++ '-' :: decimal counter

/-- A destination and its parent. -/
structure Location where
  parent          : Path
  destinationName : Name
deriving DecidableEq

def Location.destination (location : Location) : Path :=
  location.parent ++ [location.destinationName]

/-- `strip_prefix`. -/
def stripPrefix (start name : Name) : Option Name :=
  if start <+: name then some (name.drop start.length) else none

/-- What follows the prefix in the name of a transaction directory. -/
def transactionSuffix (start : Name) (transaction : Path) : Run I Name :=
  match transaction.getLast? with
  | none => fail (.package "transaction directory name is not valid UTF-8" transaction)
  | some name =>
    match (stripPrefix start name).filter (· ≠ []) with
    | none => fail (.package "transaction directory has an invalid name" transaction)
    | some suffix => pure suffix

/-- `transaction_id`. -/
def transactionIdOf (start : Name) (transaction : Path) : Run I Name := do
  let suffix ← transactionSuffix start transaction
  pure ((stripPrefix privateMark suffix).getD suffix)

/-- `is_private_transaction`. -/
def isPrivateTransaction (start : Name) (transaction : Path) : Run I Bool := do
  let suffix ← transactionSuffix start transaction
  pure (decide (privateMark <+: suffix))

-- ---- The lock.

/-- `.lock`. -/
def lockSuffix : Name := ['.', 'l', 'o', 'c', 'k']

/-- `DistributionCommitGuard`. -/
structure DistributionCommitGuard where
  lockPath    : Path
  destination : Path
deriving DecidableEq

section

variable (location : Location)

/-- `DistributionCommitGuard::acquire`. -/
def acquire : Run I DistributionCommitGuard := do
  let lockPath := location.parent ++ ['.' :: location.destinationName ++ lockSuffix]
  check (.io lockPath)
  let world ← get
  match world.files.lookup lockPath with
  | some (.directory _ _) => fail (.io lockPath)
  | some (.file _) => pure ()
  | none =>
    if isDirectory world.files location.parent then
      setFiles (world.files.put lockPath (.file none))
    else fail (.io lockPath)
  check (.io lockPath)
  pure ⟨lockPath, location.destination⟩

/-- `ensure_held`. -/
def ensureHeld (guard : DistributionCommitGuard) : Run I Unit := check (.io guard.lockPath)

-- ---- Transaction directories.

/-- `TRANSACTION_COUNTER.fetch_add`. -/
def nextCounter : Run I Nat := do
  let world ← get
  modify fun world => { world with counter := world.counter + 1 }
  pure world.counter

/-- The body of the loop of `create`, once the private directory is there. -/
def publishTransaction (id : Name) (destinationIdentity : Option I) :
    Run I (Path × TransactionJournal I) := do
  let finalPath := location.parent ++ [transactionName location.destinationName id]
  let privatePath := location.parent ++ [privateName location.destinationName id]
  let parentIdentity ← directoryIdentity location.parent
  let transactionIdentity ← directoryIdentity privatePath
  let journal := TransactionJournal.new id location.destinationName parentIdentity
    transactionIdentity destinationIdentity
  let journal ← writeTransactionState location.parent privatePath journal .prepared
  openPrivate privatePath
  rename privatePath finalPath
  syncRenameParents privatePath finalPath
  openPrivate finalPath
  pure (finalPath, journal)

/-- The loop of `create`, with its attempts left. -/
def createAttempts (location : Location) (timestamp : Nat) (destinationIdentity : Option I) :
    Nat → Run I (Path × TransactionJournal I)
  | 0 => fail (.invalid "failed to allocate a unique distribution transaction directory")
  | attempts + 1 => do
    let counter ← nextCounter
    let id := transactionId (← get).process timestamp counter
    let finalPath := location.parent ++ [transactionName location.destinationName id]
    let privatePath := location.parent ++ [privateName location.destinationName id]
    if ← isPresent finalPath then createAttempts location timestamp destinationIdentity attempts
    else if ← isPresent privatePath then
      createAttempts location timestamp destinationIdentity attempts
    else
      match ← attempt (createPrivate privatePath) with
      | .ok () => publishTransaction location id destinationIdentity
      | .error error =>
        if ← isPresent privatePath then
          createAttempts location timestamp destinationIdentity attempts
        else if ← isPresent finalPath then
          createAttempts location timestamp destinationIdentity attempts
        else fail error

/-- `DistributionTransactionDirectory::create`. -/
def createTransaction (destinationIdentity : Option I) : Run I (Path × TransactionJournal I) := do
  let answer ← ask
  createAttempts location answer.timestamp destinationIdentity 64

/-- `cleanup_now`. -/
def cleanupNow (parent transaction : Path) : Run I Unit := do
  removeDirAll transaction
  syncDirectory parent

/-- `transaction_payloads`, by their names. -/
def transactionPayloads (transaction : Path) : Run I (List Name) := do
  let names ← readDir transaction
  pure (names.filter fun name => name ≠ transactionJournal ∧ name ≠ journalNext)

/-- `validate_transaction_provenance`. -/
def validateTransactionProvenance [DecidableEq I] (transaction : Path)
    (journal : TransactionJournal I) : Run I Unit := do
  openPrivate transaction
  let expectedId ← transactionIdOf (transactionPrefix location.destinationName) transaction
  if journal.transactionId ≠ expectedId then
    fail (.package "distribution transaction ID does not match its directory" transaction)
  else if journal.destinationName ≠ location.destinationName then
    fail (.package "distribution transaction destination does not match its directory" transaction)
  else do
    requireDirectoryIdentity location.parent journal.parentIdentity "transaction parent"
    requireDirectoryIdentity transaction journal.transactionIdentity "transaction directory"

/-- `remove_empty_transaction`. -/
def removeEmptyTransaction (parent transaction : Path) : Run I Unit := do
  openPrivate transaction
  removeDirAll transaction
  syncDirectory parent

/-- The loop of `quarantine_transaction`, with its attempts left. -/
def quarantineAttempts (location : Location) (transaction : Path) (id : Name) (reason : String) :
    Nat → Run I Unit
  | 0 =>
    fail (.quarantined transaction none (reason ++ "; could not allocate a quarantine name"))
  | attempts + 1 => do
    let counter ← nextCounter
    let quarantine := location.parent ++ [quarantineName location.destinationName id counter]
    if ← isPresent quarantine then quarantineAttempts location transaction id reason attempts
    else
      match ← attempt (rename transaction quarantine) with
      | .error _ =>
        fail (.quarantined transaction none (reason ++ "; quarantine rename failed"))
      | .ok () =>
        match ← attempt (syncDirectory location.parent) with
        | .error _ =>
          fail (.quarantined transaction (some quarantine)
            (reason ++ "; quarantine directory sync failed"))
        | .ok () => fail (.quarantined transaction (some quarantine) reason)

/-- `unknown`. -/
def unknownId : Name := ['u', 'n', 'k', 'n', 'o', 'w', 'n']

/-- `quarantine_transaction`; it never succeeds. -/
def quarantineTransaction (transaction : Path) (reason : String) : Run I Unit := do
  let id ← attempt (transactionIdOf (transactionPrefix location.destinationName) transaction)
  quarantineAttempts location transaction (id.toOption.getD unknownId) reason 64

end

end Xlfn.Distribution
