import Xlfn.Distribution.Transaction

/-!
# Xlfn — recovery of stale transactions

Before a commit, every directory whose name begins as the transactions of the destination do is
recovered: its journal is read, and by the state in it the destination is restored or what was
installed is removed. A directory without a journal that can be read is removed where it is empty
and put aside where it is not.

* `restorePreviousDistribution`, `removeInstalledDistribution`, `removeRecoveryInstall` — the moves.
* `recoverJournal` — which journal counts.
* `recoverState` — what each state asks for.
* `recoverDistributionTransaction`, `recoverStaleTransactions` — one directory, and all of them.
-/

namespace Xlfn.Distribution

open Xlfn.Lib.Act
open Xlfn.Lib (Act)
open Xlfn.Package (Name)

variable {I : Type}

-- ---- Moves.

/-- `previous`. -/
def previousName : Name := ['p', 'r', 'e', 'v', 'i', 'o', 'u', 's']

/-- `recovery-install`. -/
def recoveryInstallName : Name :=
  ['r', 'e', 'c', 'o', 'v', 'e', 'r', 'y', '-', 'i', 'n', 's', 't', 'a', 'l', 'l']

/-- `ok_or_else`. -/
def required {α : Type} (value : Option α) (text : String) : Run I α :=
  match value with
  | some value => pure value
  | none => fail (.invalid text)

variable [DecidableEq I]

/-- `restore_previous_distribution` with a destination: it is put aside for the previous one. -/
def exchangeDestination (destination transaction previous : Path) (expectedPrevious : I)
    (journal : TransactionJournal I) : Run I Unit := do
  let recoveryInstall := transaction ++ [recoveryInstallName]
  let expectedInstalled ← required journal.installedIdentity
    "transaction has no installed destination identity"
  requireDirectoryIdentity destination expectedInstalled "installed destination"
  match ← optionalDirectoryIdentity recoveryInstall with
  | none => pure ()
  | some _ => do
    requireDirectoryIdentity recoveryInstall expectedInstalled "recovery installation"
    removeDirAll recoveryInstall
    syncDirectory transaction
  rename destination recoveryInstall
  syncRenameParents destination recoveryInstall
  requireDirectoryIdentity previous expectedPrevious "previous backup"
  rename previous destination
  syncRenameParents previous destination
  requireDirectoryIdentity destination expectedPrevious "restored destination"
  removeDirAll recoveryInstall
  syncDirectory transaction

/-- `restore_previous_distribution` without a destination. -/
def refillDestination (destination transaction previous : Path) (expectedPrevious : I)
    (journal : TransactionJournal I) : Run I Unit := do
  let recoveryInstall := transaction ++ [recoveryInstallName]
  match ← optionalDirectoryIdentity recoveryInstall with
  | none => pure ()
  | some _ => do
    let expectedInstalled ← required journal.installedIdentity
      "transaction has no installed identity"
    requireDirectoryIdentity recoveryInstall expectedInstalled "recovery installation"
  rename previous destination
  syncRenameParents previous destination
  requireDirectoryIdentity destination expectedPrevious "restored destination"
  match ← optionalDirectoryIdentity recoveryInstall with
  | none => pure ()
  | some _ => do
    removeDirAll recoveryInstall
    syncDirectory transaction

/-- `restore_previous_distribution`. -/
def restorePreviousDistribution (destination transaction previous : Path)
    (journal : TransactionJournal I) : Run I Unit := do
  validateOutputDestination destination
  let expectedPrevious ← required (journal.previousIdentity.or journal.destinationIdentity)
    "transaction has no previous destination identity"
  requireDirectoryIdentity previous expectedPrevious "previous backup"
  validatePathComponents (transaction ++ [recoveryInstallName])
  match ← optionalDirectoryIdentity destination with
  | some _ => exchangeDestination destination transaction previous expectedPrevious journal
  | none => refillDestination destination transaction previous expectedPrevious journal

/-- `remove_installed_distribution_with`. -/
def removeInstalledDistribution (destination : Path) (journal : TransactionJournal I) :
    Run I Unit := do
  match ← optionalDirectoryIdentity destination with
  | none => pure ()
  | some _ => do
    let expected ← required journal.installedIdentity
      "transaction has no installed destination identity"
    requireDirectoryIdentity destination expected "installed destination"
    removeDirAll destination
    syncDirectory destination.dropLast

/-- `remove_recovery_install`. -/
def removeRecoveryInstall (transaction : Path) (journal : TransactionJournal I) : Run I Unit := do
  let recoveryInstall := transaction ++ [recoveryInstallName]
  validatePathComponents recoveryInstall
  match ← optionalDirectoryIdentity recoveryInstall with
  | none => pure ()
  | some _ => do
    let expected ← required journal.installedIdentity
      "transaction has no installed identity for recovery installation"
    requireDirectoryIdentity recoveryInstall expected "recovery installation"
    removeDirAll recoveryInstall
    syncDirectory transaction

/-- `require_original_destination`. -/
def requireOriginalDestination (destination : Path) (journal : TransactionJournal I) :
    Run I Unit := do
  let expected ← required journal.destinationIdentity
    "transaction has no original destination identity"
  requireDirectoryIdentity destination expected "restored destination"

-- ---- The journal that counts.

section

variable (location : Location)

/-- `journal.next` becomes the journal. -/
def adoptNext (transaction : Path) : Run I Unit := do
  atomicReplaceFile (transaction ++ [journalNext]) (transaction ++ [transactionJournal])
  syncDirectory transaction
  syncDirectory location.parent

/-- The part of `recover_distribution_transaction` that finds the first journal; with it, whether a
`journal.next` is still to be looked at. `none` where the directory was removed. -/
def recoverJournal (transaction : Path) (payloads : List Name)
    (journal next : Option (Entry I)) : Run I (Option (TransactionJournal I × Bool)) :=
  let quarantine (reason : String) : Run I (Option (TransactionJournal I × Bool)) := do
    quarantineTransaction location transaction reason
    pure none
  match journal, next with
  | some (.directory _ _), _ => quarantine "transaction journal is not a regular file"
  | some (.file _), _ => do
    match ← attempt (readTransactionJournal (transaction ++ [transactionJournal])) with
    | .ok state => pure (some (state, next.isSome))
    | .error _ => quarantine "transaction journal is invalid"
  | none, some (.directory _ _) => quarantine "journal.next is not a regular file"
  | none, some (.file _) => do
    match ← attempt (readTransactionJournal (transaction ++ [journalNext])) with
    | .error _ =>
      if payloads = [] then do
        removeFile (transaction ++ [journalNext])
        syncDirectory transaction
        removeEmptyTransaction location.parent transaction
        pure none
      else quarantine "journal.next is invalid"
    | .ok state => do
      validateTransactionProvenance location transaction state
      openPrivate transaction
      adoptNext location transaction
      pure (some (state, false))
  | none, none =>
    if payloads = [] then do
      removeEmptyTransaction location.parent transaction
      pure none
    else quarantine "transaction journal is missing while recovery payloads remain"

/-- The part that looks at a `journal.next` beside a journal. -/
def recoverNext (transaction : Path) (journal : TransactionJournal I)
    (next : Option (Entry I)) : Run I (TransactionJournal I) :=
  match next with
  | none => pure journal
  | some (.directory _ _) => do
    quarantineTransaction location transaction "journal.next is not a regular file"
    pure journal
  | some (.file _) => do
    let drop : Run I (TransactionJournal I) := do
      removeFile (transaction ++ [journalNext])
      syncDirectory transaction
      pure journal
    match ← attempt (readTransactionJournal (transaction ++ [journalNext])) with
    | .error _ => drop
    | .ok state =>
      if journal.sequence < state.sequence then do
        validateTransactionProvenance location transaction state
        openPrivate transaction
        adoptNext location transaction
        pure state
      else drop

-- ---- The states.

/-- `prepared`. -/
def recoverPrepared (previous : Path) (journal : TransactionJournal I) : Run I Unit := do
  match ← optionalDirectoryIdentity previous with
  | some _ => do
    let expected ← required (journal.previousIdentity.or journal.destinationIdentity)
      "prepared transaction has no previous identity"
    requireDirectoryIdentity previous expected "previous backup"
    match ← optionalDirectoryIdentity location.destination with
    | some _ => fail (.invalid "distribution transaction journal is inconsistent")
    | none => do
      rename previous location.destination
      syncRenameParents previous location.destination
      requireDirectoryIdentity location.destination expected "restored destination"
  | none =>
    match journal.destinationIdentity with
    | some expected =>
      requireDirectoryIdentity location.destination expected "original destination"
    | none => pure ()

/-- `no-previous`. -/
def recoverNoPrevious (previous : Path) (journal : TransactionJournal I) : Run I Unit := do
  match ← optionalDirectoryIdentity previous with
  | some _ => fail (.invalid "distribution transaction journal is inconsistent")
  | none => do
    let present ← optionalDirectoryIdentity location.destination
    if present.isSome ∧ journal.destinationIdentity = none then
      fail (.invalid "no-previous transaction has an unexpected destination")
    else
      match journal.destinationIdentity with
      | some expected =>
        requireDirectoryIdentity location.destination expected "original destination"
      | none => pure ()

/-- `install-pending`, `previous-saved` and `installed`: the previous distribution is there. -/
def recoverSaved (transaction previous : Path)
    (journal : TransactionJournal I) (lost : String) : Run I Unit := do
  match ← optionalDirectoryIdentity previous with
  | some _ => restorePreviousDistribution location.destination transaction previous journal
  | none => fail (.invalid lost)

/-- `rollback-pending`. -/
def recoverRollback (transaction previous : Path)
    (journal : TransactionJournal I) : Run I Unit := do
  match ← optionalDirectoryIdentity previous with
  | some _ => restorePreviousDistribution location.destination transaction previous journal
  | none => do
    requireOriginalDestination location.destination journal
    removeRecoveryInstall transaction journal

/-- The states of a first installation. -/
def recoverFirst (transaction previous : Path) (journal : TransactionJournal I) : Run I Unit := do
  match ← optionalDirectoryIdentity previous with
  | some _ => fail (.invalid "distribution transaction journal is inconsistent")
  | none => do
    removeInstalledDistribution location.destination journal
    removeRecoveryInstall transaction journal

/-- `rolled-back`. -/
def recoverRolledBack (transaction previous : Path)
    (journal : TransactionJournal I) : Run I Unit := do
  match ← optionalDirectoryIdentity previous with
  | some _ => restorePreviousDistribution location.destination transaction previous journal
  | none => requireOriginalDestination location.destination journal
  removeRecoveryInstall transaction journal

/-- `committed`: what was installed is authoritative. -/
def recoverCommitted (transaction previous : Path)
    (journal : TransactionJournal I) : Run I Unit := do
  let installed ← required journal.installedIdentity
    "committed transaction has no installed identity"
  match ← optionalDirectoryIdentity location.destination with
  | none =>
    quarantineTransaction location transaction
      "committed destination is missing; refusing to restore the previous distribution"
  | some _ => do
    requireDirectoryIdentity location.destination installed "installed destination"
    match ← optionalDirectoryIdentity previous with
    | none => pure ()
    | some _ => do
      let expected ← required journal.previousIdentity
        "committed transaction has no previous identity"
      requireDirectoryIdentity previous expected "committed backup"
      removeDirAll previous
      syncDirectory transaction
    removeRecoveryInstall transaction journal

/-- The match on the state. -/
def recoverState (transaction : Path) (journal : TransactionJournal I) : Run I Unit :=
  let previous := transaction ++ [previousName]
  match journal.state with
  | .prepared => recoverPrepared location previous journal
  | .noPrevious => recoverNoPrevious location previous journal
  | .installPending => recoverSaved location transaction previous journal
    "install-pending transaction lost its backup"
  | .previousSaved => recoverSaved location transaction previous journal
    "previous-saved transaction lost its backup"
  | .installed => recoverSaved location transaction previous journal
    "installed transaction lost its backup"
  | .rollbackPending => recoverRollback location transaction previous journal
  | .installPendingNoPrevious | .installedNoPrevious | .rollbackPendingNoPrevious =>
    recoverFirst location transaction previous journal
  | .rolledBack => recoverRolledBack location transaction previous journal
  | .committed => recoverCommitted location transaction previous journal

-- ---- Transactions.

/-- `interrupted_distribution`. -/
def interruptedDistribution (destination transaction : Path) (previous : Option Path) :
    DistributionError → DistributionError
  | .recovery destination recoveryPath commitError rollbackError =>
    .recovery destination recoveryPath commitError rollbackError
  | .quarantined transaction quarantine reason => .quarantined transaction quarantine reason
  | .interrupted destination transaction previous source =>
    .interrupted destination transaction previous source
  | source => .interrupted destination transaction previous source

/-- The closure of `recover_distribution_transaction` once a journal counts. -/
def recoverWithJournal (guard : DistributionCommitGuard)
    (transaction : Path) (isPrivate : Bool) (payloads : List Name)
    (journal : TransactionJournal I) (next : Option (Entry I)) : Run I Unit := do
  validateTransactionProvenance location transaction journal
  let journal ← recoverNext location transaction journal next
  if isPrivate ∧ payloads ≠ [] then
    quarantineTransaction location transaction
      "private transaction directory contains recovery payloads"
  else do
    validatePathComponents (transaction ++ [previousName])
    ensureHeld guard
    recoverState location transaction journal
    ensureHeld guard
    openPrivate transaction
    removeDirAll transaction
    syncDirectory location.parent

/-- The closure of `recover_distribution_transaction`; with an error goes where the previous
distribution may be. -/
def recoverDistributionTransaction (guard : DistributionCommitGuard)
    (transaction : Path) : Run I Unit :=
  let previous := transaction ++ [previousName]
  let located (previous : Option Path) {α : Type} (m : Run I α) : Run I α :=
    mapError (interruptedDistribution location.destination transaction previous) m
  do
    let found ← located (some previous) (do
      ensureHeld guard
      openPrivate transaction
      let isPrivate ← isPrivateTransaction (transactionPrefix location.destinationName) transaction
      let payloads ← transactionPayloads transaction
      validatePathComponents (transaction ++ [transactionJournal])
      validatePathComponents (transaction ++ [journalNext])
      let journal ← symlinkMetadata (transaction ++ [transactionJournal])
      let next ← symlinkMetadata (transaction ++ [journalNext])
      let found ← recoverJournal location transaction payloads journal next
      pure (found.map fun (state, both) =>
        (isPrivate, payloads, state, if both then next else none)))
    match found with
    | none => pure ()
    | some (isPrivate, payloads, journal, next) =>
      let saved := journal.destinationIdentity.isSome || journal.previousIdentity.isSome
      located (if saved then some previous else none)
        (recoverWithJournal location guard transaction isPrivate payloads journal next)

/-- The loop of `recover_stale_transactions`. -/
def recoverEach (location : Location) (guard : DistributionCommitGuard) : List Path → Run I Unit
  | [] => pure ()
  | transaction :: transactions => do
    recoverDistributionTransaction location guard transaction
    recoverEach location guard transactions

/-- `recover_stale_transactions`. -/
def recoverStaleTransactions (guard : DistributionCommitGuard) : Run I Unit := do
  ensureHeld guard
  if guard.destination ≠ location.destination then
    fail (.invalid "distribution recovery lock does not match its destination")
  else do
    validateDirectoryPath location.parent
    let names ← readDir location.parent
    let own := names.filter fun name =>
      decide (transactionPrefix location.destinationName <+: name)
    recoverEach location guard (own.map fun name => location.parent ++ [name])

end

end Xlfn.Distribution
