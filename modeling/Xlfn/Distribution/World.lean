import Mathlib.Algebra.GroupWithZero.Nat
import Mathlib.Data.List.Infix
import Xlfn.Lib.Fallible
import Xlfn.Lib.PathTree
import Xlfn.Package.Names

/-!
# Xlfn — the files of a distribution commit

What a commit and a recovery do to the file system, one operation at a time. A directory keeps its
identity when it is renamed; a rename is done or not; a removal that fails may have removed a part.
Every operation asks the host for its answer, so that any of them may fail.

* `World` — the file system, and what the host will answer.
* `rename`, `removeDirAll`, `syncDirectory` — `DistributionFileOps`.
* `directoryIdentity`, `requireDirectoryIdentity` — the checks.
* `writeTransactionState` — a new state of the journal.
-/

namespace Xlfn.Distribution

open Xlfn.Lib.Act
open Xlfn.Lib (Act PathTree)
open Xlfn.Package (Name)

abbrev Path := List Name

-- ---- Journals.

inductive TransactionState where
  | prepared
  | noPrevious
  | previousSaved
  | installPending
  | installPendingNoPrevious
  | installed
  | installedNoPrevious
  | rollbackPending
  | rollbackPendingNoPrevious
  | rolledBack
  | committed
deriving DecidableEq

/-- `TransactionJournal`; a journal that is read has its schema and checksum. -/
structure TransactionJournal (I : Type) where
  transactionId       : Name
  destinationName     : Name
  parentIdentity      : I
  transactionIdentity : I
  destinationIdentity : Option I
  state               : TransactionState
  previousIdentity    : Option I
  installedIdentity   : Option I
  sequence            : Nat
deriving DecidableEq

/-- `TransactionJournal::new`. -/
def TransactionJournal.new {I : Type} (transactionId destinationName : Name)
    (parentIdentity transactionIdentity : I) (destinationIdentity : Option I) :
    TransactionJournal I where
  transactionId       := transactionId
  destinationName     := destinationName
  parentIdentity      := parentIdentity
  transactionIdentity := transactionIdentity
  destinationIdentity := destinationIdentity
  state               := .prepared
  previousIdentity    := none
  installedIdentity   := none
  sequence            := 0

-- ---- Errors.

/-- `DistributionError`; a text stands without the paths in it. -/
inductive DistributionError where
  | recovery (destination recoveryPath : Path) (commitError rollbackError : DistributionError)
  | quarantined (transaction : Path) (quarantine : Option Path) (reason : String)
  | package (text : String) (path : Path)
  | io (path : Path)
  | invalid (text : String)
  | interrupted (destination transaction : Path) (previous : Option Path)
      (source : DistributionError)
  | stateRecordingFailure (phase : String) (primary state : DistributionError)
deriving DecidableEq

-- ---- The world.

/-- What is at a path. A file is a journal, or something that is not read as one. -/
inductive Entry (I : Type) where
  | file (journal : Option (TransactionJournal I))
  | directory (identity : I) (isPrivate : Bool)
deriving DecidableEq

/-- What the host does with the next operation: whether it fails, what a failing removal leaves,
the identity of a new directory, and the time. -/
structure Answer (I : Type) where
  fails     : Bool
  leaves    : Path → Bool
  identity  : I
  timestamp : Nat

/-- `counter` is `TRANSACTION_COUNTER`; `unreadable` tells which of the coming reads fail where a
failure is taken for an answer: of a journal, or of whether something is there. -/
structure World (I : Type) where
  files      : PathTree Name (Entry I)
  counter    : Nat
  process    : Nat
  answers    : Nat → Answer I
  unreadable : Nat → Bool

/-- A computation over the world. -/
abbrev Run (I α : Type) : Type := Act (World I) DistributionError α

variable {I : Type}

/-- The next answer. -/
def ask : Run I (Answer I) := do
  let world ← get
  modify fun world => { world with answers := fun n => world.answers (n + 1) }
  pure (world.answers 0)

/-- An operation that changes nothing, and may fail. -/
def check (error : DistributionError) : Run I Unit := do
  let answer ← ask
  if answer.fails then fail error else pure ()

def setFiles (files : PathTree Name (Entry I)) : Run I Unit :=
  modify fun world => { world with files := files }

section

variable (path : Path)

def lookup : Run I (Option (Entry I)) := do
  let world ← get
  pure (world.files.lookup path)

def Entry.isDirectory : Entry I → Bool
  | .file _ => false
  | .directory _ _ => true

/-- There is a directory at a path. -/
def isDirectory (files : PathTree Name (Entry I)) (path : Path) : Bool :=
  (files.lookup path).any Entry.isDirectory

-- ---- Operations.

/-- A rename may replace what is at the target: an empty directory by a directory, and a file by a
file. -/
def replaceable (files : PathTree Name (Entry I)) (source target : Path) : Bool :=
  (files.all fun entry => !decide (target <+: entry.1) || decide (entry.1 = target)) &&
    (files.lookup target).all fun entry => entry.isDirectory == isDirectory files source

/-- `rename_path`. -/
def rename (source target : Path) : Run I Unit := do
  check (.io source)
  let world ← get
  if (world.files.lookup source).isSome ∧ ¬source <+: target ∧
      isDirectory world.files target.dropLast ∧ replaceable world.files source target then
    setFiles ((world.files.removeTree target).moveTree source target)
  else fail (.io source)

/-- `atomic_replace_file`. -/
def atomicReplaceFile (source target : Path) : Run I Unit := do
  check (.io source)
  let world ← get
  match world.files.lookup source with
  | some (.file journal) =>
    if isDirectory world.files target then fail (.io source)
    else setFiles ((world.files.removeTree source).put target (.file journal))
  | _ => fail (.io source)

/-- What a failing removal leaves: with a path, the directories above it. -/
def left (answer : Answer I) (path other : Path) : Bool :=
  !decide (path <+: other) ||
    other.inits.all fun above => !decide (path <+: above) || answer.leaves above

/-- `remove_dir_all`. -/
def removeDirAll : Run I Unit := do
  let answer ← ask
  let world ← get
  if answer.fails then do
    setFiles (world.files.keep (left answer path))
    fail (.io path)
  else if isDirectory world.files path then setFiles (world.files.removeTree path)
  else fail (.io path)

/-- `fs::remove_file`. -/
def removeFile : Run I Unit := do
  check (.io path)
  let world ← get
  match world.files.lookup path with
  | some (.file _) => setFiles (world.files.removeTree path)
  | _ => fail (.io path)

/-- `sync_directory`. -/
def syncDirectory : Run I Unit := do
  check (.io path)
  let world ← get
  if isDirectory world.files path then pure () else fail (.io path)

/-- `sync_rename_parents`. -/
def syncRenameParents (source target : Path) : Run I Unit := do
  syncDirectory source.dropLast
  if target.dropLast ≠ source.dropLast then syncDirectory target.dropLast else pure ()

/-- `fs::symlink_metadata`; `none` where nothing is there. -/
def symlinkMetadata : Run I (Option (Entry I)) := do
  check (.io path)
  lookup path

/-- Whether the next read fails. -/
def unreadable : Run I Bool := do
  let world ← get
  modify fun world => { world with unreadable := fun n => world.unreadable (n + 1) }
  pure (world.unreadable 0)

/-- `fs::symlink_metadata(..).is_ok()`. -/
def isPresent : Run I Bool := do
  let failed ← unreadable
  let entry ← lookup path
  pure (!failed && entry.isSome)

/-- `validate_path_components`. -/
def validatePathComponents : Run I Unit :=
  check (.package "path component must not be a symlink or reparse point" path)

/-- `validate_directory_path`. -/
def validateDirectoryPath : Run I Unit := do
  validatePathComponents path
  let world ← get
  if path.inits.all fun above => (world.files.lookup above).all Entry.isDirectory then pure ()
  else fail (.package "path component must be a directory" path)

/-- `validate_output_destination`. -/
def validateOutputDestination (destination : Path) : Run I Unit :=
  validateDirectoryPath destination

/-- `directory_identity`. -/
def directoryIdentity : Run I I := do
  check (.io path)
  match ← lookup path with
  | some (.directory identity _) => pure identity
  | _ => fail (.io path)

/-- `optional_directory_identity`. -/
def optionalDirectoryIdentity : Run I (Option I) := do
  match ← symlinkMetadata path with
  | none => pure none
  | some _ => do
    let identity ← directoryIdentity path
    pure (some identity)

/-- `require_directory_identity`. -/
def requireDirectoryIdentity [DecidableEq I] (expected : I) (label : String) : Run I Unit := do
  let actual ← directoryIdentity path
  if actual ≠ expected then fail (.package (label ++ " identity changed") path) else pure ()

/-- `ensure_destination_absent`. -/
def ensureDestinationAbsent (destination : Path) : Run I Unit := do
  match ← symlinkMetadata destination with
  | some _ => fail (.package "destination unexpectedly exists" destination)
  | none => pure ()

/-- `PrivateStagingDirectory::open` and `verify`. -/
def openPrivate : Run I Unit := do
  check (.package "failed to open private staging directory" path)
  match ← lookup path with
  | some (.directory _ true) => pure ()
  | _ => fail (.package "failed to open private staging directory" path)

/-- `create_private_directory`. -/
def createPrivateDirectory : Run I Unit := do
  let answer ← ask
  let world ← get
  if answer.fails ∨ (world.files.lookup path).isSome ∨
      isDirectory world.files path.dropLast = false then
    fail (.io path)
  else setFiles (world.files.put path (.directory answer.identity true))

/-- `PrivateStagingDirectory::create`, in a directory that is there. -/
def createPrivate : Run I Unit := do
  if ← isPresent path then fail (.package "private staging directory already exists" path)
  else do
    validateDirectoryPath path.dropLast
    createPrivateDirectory path
    openPrivate path

/-- `fs::read_dir`: the names below a directory. -/
def readDir : Run I (List Name) := do
  check (.io path)
  let world ← get
  if isDirectory world.files path then pure (world.files.children path) else fail (.io path)

-- ---- The journal.

/-- `TRANSACTION_JOURNAL`. -/
def transactionJournal : Name := ['j', 'o', 'u', 'r', 'n', 'a', 'l']

/-- `journal.next`. -/
def journalNext : Name := ['j', 'o', 'u', 'r', 'n', 'a', 'l', '.', 'n', 'e', 'x', 't']

/-- `u64::MAX`. -/
def u64Max : Nat := 2 ^ 64 - 1

/-- `read_transaction_journal`. -/
def readTransactionJournal : Run I (TransactionJournal I) := do
  let failed ← unreadable
  match ← lookup path with
  | some (.file (some journal)) => if failed then fail (.io path) else pure journal
  | _ => fail (.package "distribution transaction journal is invalid" path)

end

/-- `write_transaction_state`: the next state is written to a file of its own, and replaces the
journal. The file is torn until it is written. -/
def writeTransactionState (parent transaction : Path) (journal : TransactionJournal I)
    (state : TransactionState) : Run I (TransactionJournal I) := do
  let next := transaction ++ [journalNext]
  if u64Max ≤ journal.sequence then
    fail (.package "distribution transaction journal sequence overflow" transaction)
  else
    let journal := { journal with state := state, sequence := journal.sequence + 1 }
    check (.package "distribution transaction journal exceeds the 65536-byte limit" transaction)
    check (.io next)
    let world ← get
    if (world.files.lookup next).isSome ∨ isDirectory world.files transaction = false then
      fail (.io next)
    else
      setFiles (world.files.put next (.file none))
      check (.io next)
      setFiles ((← get).files.put next (.file (some journal)))
      check (.io next)
      atomicReplaceFile next (transaction ++ [transactionJournal])
      syncDirectory transaction
      syncDirectory parent
      pure journal

end Xlfn.Distribution
