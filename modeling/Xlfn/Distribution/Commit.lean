import Xlfn.Distribution.Recovery

/-!
# Xlfn — the commit of a distribution

A prepared directory is renamed to its destination. What was there before is saved in the
transaction directory first, and the journal is written before and after every rename; where a
step fails, what was saved is put back. Whether the destination was changed is kept in one variable
that is set after a rename and reset after a completed rollback; an error that is returned while it
is set is an interruption.

* `commitPrelude` — the lock and the recovery of stale transactions.
* `savePrevious`, `installFailed`, `verificationFailed`, `finishCommit` — the parts of the commit.
* `commitPreparedDirectory` — all of it.
-/

namespace Xlfn.Distribution

open Xlfn.Lib.Act
open Xlfn.Lib (Act)
open Xlfn.Package (Name)

variable {I : Type} [DecidableEq I]

/-- `PreparedDirectoryCommit`: the staging directory and its identity. -/
structure Prepared (I : Type) where
  stagingDirectory : Path
  identity         : I
deriving DecidableEq

/-- `CommitOutcome`. -/
inductive CommitOutcome where
  | complete
  | backupRetained (backup transaction : Path)
deriving DecidableEq

/-- What a running commit works on, beside the journal. -/
structure Commit (I : Type) where
  location    : Location
  guard       : DistributionCommitGuard
  prepared    : Prepared I
  transaction : Path
  hadPrevious : Bool
deriving DecidableEq

/-- A part of the commit; the local variable is `output_changed`. -/
abbrev Part (I α : Type) : Type := Act (World I × Bool) DistributionError α

-- ---- Checks.

/-- `validate_commit_location`. -/
def validateCommitLocation (location : Location) : Run I Unit := do
  validateDirectoryPath location.parent
  validateOutputDestination location.destination

/-- `verify_source_contents` and `verify_source`. -/
def verifySource (prepared : Prepared I) : Run I Unit := do
  check (.package "prepared directory changed" prepared.stagingDirectory)
  match ← lookup prepared.stagingDirectory with
  | some (.directory identity _) =>
    if identity ≠ prepared.identity then
      fail (.package "prepared directory changed" prepared.stagingDirectory)
    else check (.package "prepared directory changed" prepared.stagingDirectory)
  | _ => fail (.package "prepared directory changed" prepared.stagingDirectory)

/-- `lock_source_for_commit`. -/
def lockSource (prepared : Prepared I) : Run I Unit :=
  check (.io prepared.stagingDirectory)

/-- `validate_output_destination` and `verify_destination`. -/
def verifyDestination (destination : Path) : Run I Unit := do
  validateOutputDestination destination
  check (.package "committed directory changed" destination)

namespace Commit

section

variable (commit : Commit I)

def destination : Path := commit.location.destination

def previous : Path := commit.transaction ++ [previousName]

/-- `failed-install`. -/
def failedInstall : Path :=
  commit.transaction ++
    [['f', 'a', 'i', 'l', 'e', 'd', '-', 'i', 'n', 's', 't', 'a', 'l', 'l']]

/-- `write_transaction_state` with one state for a replacement and one for a first install. -/
def record (journal : TransactionJournal I)
    (replacing first : TransactionState) : Run I (TransactionJournal I) :=
  writeTransactionState commit.location.parent commit.transaction journal
    (if commit.hadPrevious then replacing else first)

-- ---- The parts.

/-- What is at the destination is saved. -/
def savePrevious (journal : TransactionJournal I) : Part I (TransactionJournal I) :=
  if commit.hadPrevious then do
    lift (validateCommitLocation commit.location)
    lift (ensureHeld commit.guard)
    lift (rename commit.destination commit.previous)
    setLocal true
    lift (syncRenameParents commit.destination commit.previous)
    let identity ← lift (directoryIdentity commit.previous)
    lift (commit.record { journal with previousIdentity := some identity }
      .previousSaved .noPrevious)
  else lift (commit.record journal .previousSaved .noPrevious)

/-- The previous distribution goes back. -/
def restorePrevious (expected : Option I) : Run I Unit := do
  validateCommitLocation commit.location
  ensureDestinationAbsent commit.destination
  let expected ← required expected "transaction has no previous destination identity"
  requireDirectoryIdentity commit.previous expected "previous backup"
  rename commit.previous commit.destination
  syncRenameParents commit.previous commit.destination
  requireDirectoryIdentity commit.destination expected "restored destination"

/-- The installing rename failed. -/
def installFailed (journal : TransactionJournal I)
    (commitError : DistributionError) : Part I CommitOutcome := do
  match ← attempt (lift (commit.record journal .rollbackPending .rollbackPendingNoPrevious)) with
  | .error stateError =>
    fail (.stateRecordingFailure "distribution commit" commitError stateError)
  | .ok journal =>
    if commit.hadPrevious then
      match ← attempt (lift (commit.restorePrevious journal.previousIdentity)) with
      | .error rollbackError =>
        fail (.recovery commit.destination commit.previous commitError rollbackError)
      | .ok () =>
        match ← attempt (lift (commit.record journal .rolledBack .rolledBack)) with
        | .error stateError =>
          fail (.stateRecordingFailure "distribution commit rollback" commitError stateError)
        | .ok _ =>
          lift (cleanupNow commit.location.parent commit.transaction)
          setLocal false
          lift (syncDirectory commit.location.parent)
          fail commitError
    else do
      lift (syncDirectory commit.location.parent)
      fail commitError

/-- What was installed is put aside. -/
def moveFailedInstall (expected : I) : Run I Unit := do
  validateCommitLocation commit.location
  requireDirectoryIdentity commit.destination expected "installed destination"
  rename commit.destination commit.failedInstall
  syncRenameParents commit.destination commit.failedInstall

/-- The installed directory is not what was prepared. -/
def verificationFailed (journal : TransactionJournal I)
    (verificationError : DistributionError) : Part I CommitOutcome := do
  let recoveryFailed (rollbackError : DistributionError) : Part I CommitOutcome :=
    fail (.recovery commit.destination commit.previous verificationError rollbackError)
  match ← attempt (lift (commit.record journal .rollbackPending .rollbackPendingNoPrevious)) with
  | .error stateError =>
    fail (.stateRecordingFailure "post-commit verification" verificationError stateError)
  | .ok journal =>
    if commit.hadPrevious then do
      let expectedInstalled ← lift (required journal.installedIdentity
        "transaction has no installed destination identity")
      match ← attempt (lift (commit.moveFailedInstall expectedInstalled)) with
      | .error rollbackError => recoveryFailed rollbackError
      | .ok () => do
        let expectedPrevious ← lift (required
          (journal.previousIdentity.or journal.destinationIdentity)
          "transaction has no previous destination identity")
        match ← attempt (lift (commit.restorePrevious (some expectedPrevious))) with
        | .error rollbackError => recoveryFailed rollbackError
        | .ok () =>
          match ← attempt (lift (commit.record journal .rolledBack .rolledBack)) with
          | .error stateError =>
            fail (.stateRecordingFailure "post-commit verification rollback" verificationError
              stateError)
          | .ok journal =>
            lift (removeInstalledDistribution commit.failedInstall journal)
            lift (cleanupNow commit.location.parent commit.transaction)
            setLocal false
            fail verificationError
    else
      match ← attempt (lift (do
        validateCommitLocation commit.location
        removeInstalledDistribution commit.destination journal)) with
      | .error rollbackError => recoveryFailed rollbackError
      | .ok () =>
        lift (cleanupNow commit.location.parent commit.transaction)
        setLocal false
        fail verificationError

/-- What was saved is removed. -/
def finishCommit (journal : TransactionJournal I) : Part I CommitOutcome := do
  let _ ← lift (commit.record journal .committed .committed)
  if commit.hadPrevious then
    match ← attempt (lift (removeDirAll commit.previous)) with
    | .error _ => pure (.backupRetained commit.previous commit.transaction)
    | .ok () =>
      lift (syncDirectory commit.transaction)
      lift (cleanupNow commit.location.parent commit.transaction)
      pure .complete
  else do
    lift (cleanupNow commit.location.parent commit.transaction)
    pure .complete

/-- The staging directory is at the destination. -/
def installed (journal : TransactionJournal I) : Part I CommitOutcome := do
  setLocal true
  lift (syncRenameParents commit.prepared.stagingDirectory commit.destination)
  let identity ← lift (directoryIdentity commit.destination)
  let journal ← lift (commit.record { journal with installedIdentity := some identity }
    .installed .installedNoPrevious)
  match ← attempt (lift (verifyDestination commit.destination)) with
  | .error verificationError => commit.verificationFailed journal verificationError
  | .ok () => commit.finishCommit journal

/-- The closure of `commit_prepared_directory_with`. -/
def body (journal : TransactionJournal I) : Part I CommitOutcome := do
  let journal ← commit.savePrevious journal
  lift (verifySource commit.prepared)
  lift (validateCommitLocation commit.location)
  let identity ← lift (directoryIdentity commit.prepared.stagingDirectory)
  let journal ← lift (commit.record { journal with installedIdentity := some identity }
    .installPending .installPendingNoPrevious)
  lift (ensureHeld commit.guard)
  lift (lockSource commit.prepared)
  lift (verifySource commit.prepared)
  lift (ensureHeld commit.guard)
  match ← attempt (lift (rename commit.prepared.stagingDirectory commit.destination)) with
  | .error commitError => commit.installFailed journal commitError
  | .ok () => commit.installed journal

end

end Commit

-- ---- The call.

/-- `commit_prepared_directory_with`, until the stale transactions are recovered. -/
def commitPrelude (location : Location) : Run I DistributionCommitGuard := do
  validateOutputDestination location.destination
  validateCommitLocation location
  let guard ← acquire location
  recoverStaleTransactions location guard
  pure guard

/-- The rest of `commit_prepared_directory_with`. -/
def commitRecovered (prepared : Prepared I) (location : Location)
    (guard : DistributionCommitGuard) : Run I CommitOutcome := do
  validateCommitLocation location
  verifySource prepared
  let destinationIdentity ← optionalDirectoryIdentity location.destination
  let (transaction, journal) ← createTransaction location destinationIdentity
  openPrivate transaction
  validateCommitLocation location
  let commit : Commit I := ⟨location, guard, prepared, transaction, destinationIdentity.isSome⟩
  withLocal false
    (fun outputChanged error =>
      if outputChanged then
        interruptedDistribution location.destination transaction
          (if commit.hadPrevious then some commit.previous else none) error
      else error)
    (commit.body journal)

/-- `commit_prepared_directory_with`. -/
def commitPreparedDirectory (prepared : Prepared I) (location : Location) :
    Run I CommitOutcome := do
  let guard ← commitPrelude location
  commitRecovered prepared location guard

end Xlfn.Distribution
