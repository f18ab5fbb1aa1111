import Xlfn.Lib.OrderedTable
import Xlfn.Package.Names

/-!
# Xlfn — directory snapshots

Before a directory tree is committed it is read into a snapshot, and the snapshot is compared
with the tree again before and after the rename. The two walks are written separately: the
first reads every directory in the order of its name keys and counts entries and bytes, the
second follows the snapshot. The tree rests during a walk; what the host decides (how a name is
resolved, how many bytes a read returns, how a link is opened) is a parameter.

* `Node` — a directory tree.
* `PreparedDirectoryCommit.prepare` — the first walk.
* `verifyPreparedDirectory` — the second walk.
* `Matches` — the entries of a snapshot are exactly the entries of a directory.
-/

namespace Xlfn.Package

open Xlfn.Lib

-- ---- The host.

/-- What is behind a name. `other` is neither a file, nor a directory, nor a link. -/
inductive Node (I : Type) where
  | file (identity : I) (bytes : List UInt8)
  | directory (identity : I) (entries : List (Option Name × Node I))
  | link
  | other

/-- The operating system. Names that it resolves alike differ in case at most. -/
structure Host where
  same       : Name → Name → Bool
  reads      : Nat → Nat
  unix       : Bool
  usizeMax   : Nat
  same_refl  : ∀ name, same name name = true
  same_valid : ∀ actual requested, same actual requested = true → ValidName actual →
    ValidName requested → toAsciiLowercase actual = toAsciiLowercase requested
  wide       : 2 ^ 32 - 1 ≤ usizeMax

variable {I : Type}

/-- The entry that a name is resolved to; a name that is not UTF-8 is never asked for. -/
def Host.resolves (host : Host) (requested : Name) (entry : Option Name × Node I) : Bool :=
  entry.1.any fun actual => host.same actual requested

/-- What is behind a name in a directory. -/
def Host.child (host : Host) (directory : Option (Node I)) (requested : Name) : Option (Node I) :=
  match directory with
  | some (.directory _ entries) => (entries.find? (host.resolves requested)).map (·.2)
  | _ => none

/-- `open_staged_path_no_follow_with_kind`. A link is refused on Unix and opened itself on
Windows, where a directory is opened only as one. -/
def Host.openNoFollow (host : Host) (directory : Bool) : Option (Node I) → Option (Node I)
  | some .link => if host.unix then none else some .link
  | some (.directory identity entries) =>
    if host.unix || directory then some (.directory identity entries) else none
  | node => node

-- ---- Errors, limits and budgets.

inductive PackageError where
  | message (text : String) (path : List Name)
  | invalidName (field : String) (reason : WindowsBasenameError)
  | stagedArtifactChanged (target : String) (path : List Name)
  | unstableBundleSource (target : String) (path : List Name)
  | io (path : List Name)
deriving DecidableEq

/-- `MAX_PREPARED_ENTRIES`. -/
def maxPreparedEntries : Nat := 100000

/-- `MAX_PREPARED_BYTES`. -/
def maxPreparedBytes : Nat := 512 * 1024 * 1024

/-- `u64::MAX`. -/
def u64Max : Nat := 2 ^ 64 - 1

def staging : String := "directory commit"

structure PreparedBudget where
  entries : Nat
  bytes   : Nat
deriving DecidableEq

namespace PreparedBudget

def default : PreparedBudget := ⟨0, 0⟩

/-- `account_entry`. -/
def accountEntry (host : Host) (budget : PreparedBudget) (path : List Name) :
    Except PackageError PreparedBudget :=
  if host.usizeMax < budget.entries + 1 then
    .error (.message "prepared directory entry budget overflow" path)
  else if maxPreparedEntries < budget.entries + 1 then
    .error (.message "prepared directory contains more than 100000 entries" [])
  else .ok { budget with entries := budget.entries + 1 }

/-- `reserve_bytes`. -/
def reserveBytes (budget : PreparedBudget) (path : List Name) (size : Nat) :
    Except PackageError PreparedBudget :=
  if u64Max < budget.bytes + size then
    .error (.message "prepared directory byte budget overflow" path)
  else if maxPreparedBytes < budget.bytes + size then
    .error (.message "prepared directory contains more than 536870912 bytes" [])
  else .ok { budget with bytes := budget.bytes + size }

/-- `remaining_entries`. -/
def remainingEntries (budget : PreparedBudget) : Nat := maxPreparedEntries - budget.entries

end PreparedBudget

-- ---- Files.

/-- How many bytes a read at an offset returns of `length`, into `capacity`: at least one where
there are any. -/
def Host.readCount (host : Host) (length capacity offset : Nat) : Nat :=
  min (host.reads offset + 1) (min capacity (length - offset))

/-- The size of the buffer. -/
def bufferSize : Nat := 64 * 1024

/-- The loop of `compare_stable_snapshot`: where it ended, and whether all bytes were equal. -/
def compareLoop (host : Host) (bytes expected : List UInt8) : Nat → Nat → Bool → Option (Nat × Bool)
  | 0, offset, equal => some (offset, equal)
  | fuel + 1, offset, equal =>
    let count := host.readCount bytes.length bufferSize offset
    if count = 0 then some (offset, equal)
    else if bytes.length < offset + count then none
    else compareLoop host bytes expected fuel (offset + count)
      (equal && (expected.drop offset).take count == (bytes.drop offset).take count)

/-- `compare_stable_snapshot`. -/
def compareStableSnapshot (host : Host) (path : List Name) (bytes expected : List UInt8)
    (maximumLen : Option Nat) : Except PackageError Bool :=
  if maximumLen.any (· < bytes.length) then
    .error (.message "file exceeds the snapshot byte budget" path)
  else
    match compareLoop host bytes expected (bytes.length + 1) 0
        (bytes.length == expected.length) with
    | none => .error (.unstableBundleSource staging path)
    | some (offset, equal) =>
      if offset ≠ bytes.length then .error (.unstableBundleSource staging path) else .ok equal

/-- `verify_snapshot_against_second_read`, on Unix. -/
def secondRead (host : Host) (path : List Name) (bytes expected : List UInt8) :
    Except PackageError Unit :=
  if host.unix then do
    if ← compareStableSnapshot host path bytes expected none then .ok ()
    else .error (.unstableBundleSource staging path)
  else .ok ()

/-- `read_stable_snapshot_with_limit`: a first chunk, the rest, and a read behind the end. -/
def readStableSnapshot (host : Host) (path : List Name) (bytes : List UInt8) (maximumLen : Nat) :
    Except PackageError (List UInt8) :=
  if maximumLen < bytes.length then
    .error (.message "file exceeds the snapshot byte budget" path)
  else if host.usizeMax < bytes.length then
    .error (.message "bundle file is too large to snapshot" path)
  else
    let count := host.readCount bytes.length bufferSize 0
    let snapshot := bytes.take count ++ (bytes.drop count).take (bytes.length - count)
    if snapshot.length ≠ bytes.length then .error (.unstableBundleSource staging path)
    else if host.readCount bytes.length 1 snapshot.length ≠ 0 then
      .error (.unstableBundleSource staging path)
    else .ok snapshot

-- ---- Directories.

/-- The names of a directory by their keys. -/
abbrev EntryNames := OrderedTable Name Name

def EntryNames.keys (names : EntryNames) : List Name := names.entries.map (·.1)

/-- The loop of `read_directory_entries`. -/
def readEntries (path : List Name) (maxEntries : Nat) :
    EntryNames → List (Option Name × Node I) → Except PackageError EntryNames
  | names, [] => .ok names
  | names, (name, _) :: rest =>
    if maxEntries ≤ names.entries.length then
      .error (.message "directory contains more than the permitted entry budget" path)
    else
      match name with
      | none => .error (.message "directory entry is not valid UTF-8" path)
      | some name =>
        match windowsNameKey name with
        | .error reason => .error (.invalidName "directory entry" reason)
        | .ok key =>
          if names.keys.contains key then
            .error (.message "directory contains duplicate Windows name key" path)
          else readEntries path maxEntries (names.insert key name) rest

/-- `inspect_directory_identity`. -/
def inspectDirectoryIdentity (host : Host) (path : List Name) (node : Option (Node I))
    (maxEntries : Nat) : Except PackageError (I × EntryNames) :=
  match host.openNoFollow true node with
  | none =>
    .error (.message "failed to open staging directory without following links" path)
  | some (.directory identity entries) => do
    let names ← readEntries path maxEntries OrderedTable.empty entries
    .ok (identity, names)
  | some _ => .error (.message "staging path is not a regular directory" path)

variable [DecidableEq I]

/-- `ensure_directory_identity`. -/
def ensureDirectoryIdentity (host : Host) (path : List Name) (node : Option (Node I))
    (expected : I) : Except PackageError Unit :=
  match host.openNoFollow true node with
  | none => .error (.message "failed to reopen directory" path)
  | some (.directory identity _) =>
    if identity ≠ expected then .error (.message "directory identity changed" path) else .ok ()
  | some _ => .error (.message "directory is not a regular directory" path)

/-- `ensure_exact_entry_set`. -/
def ensureExactEntrySet (actual : EntryNames) (expected : List Name) (path : List Name) :
    Except PackageError Unit :=
  if actual.keys ≠ expected then
    .error (.message "closed-world directory entry mismatch" path)
  else .ok ()

-- ---- The snapshot.

structure PreparedDirectoryContents (I E : Type) where
  identity      : I
  entries       : List E
  expectedNames : List Name

inductive PreparedDirectoryEntry (I : Type) where
  | file (name : Name) (identity : I) (bytes : List UInt8)
  | directory (name : Name)
      (contents : PreparedDirectoryContents I (PreparedDirectoryEntry I))

abbrev PreparedContents (I : Type) := PreparedDirectoryContents I (PreparedDirectoryEntry I)

/-- The bytes that are already known, by path. -/
abbrev SharedArtifacts := List Name → Option (List UInt8)

/-- The branch of a file. Known bytes are taken where they are equal. -/
def prepareFile (host : Host) (shared : SharedArtifacts) (path : List Name) (name : Name)
    (identity : I) (bytes : List UInt8) : Except PackageError (PreparedDirectoryEntry I) := do
  let known ←
    match shared path with
    | none => .ok none
    | some candidate => do
      if ← compareStableSnapshot host path bytes candidate (some bytes.length) then
        .ok (some candidate)
      else .ok none
  match known with
  | some candidate =>
    secondRead host path bytes candidate
    .ok (.file name identity candidate)
  | none =>
    let snapshot ← readStableSnapshot host path bytes bytes.length
    secondRead host path bytes snapshot
    .ok (.file name identity snapshot)

/-- The reading of the directory behind a path. -/
abbrev ReadContents (I : Type) :=
  List Name → Option (Node I) → PreparedBudget →
    Except PackageError (PreparedContents I × PreparedBudget)

/-- `prepare_directory_entry`; paths begin at the staging directory. -/
def prepareDirectoryEntry (host : Host) (shared : SharedArtifacts)
    (readContents : ReadContents I) (nameKey name : Name) (path : List Name)
    (node : Option (Node I)) (budget : PreparedBudget) :
    Except PackageError (PreparedDirectoryEntry I × PreparedBudget) := do
  let budget ← budget.accountEntry host path
  let isDirectory ←
    match node with
    | none => .error (.io path)
    | some (.directory ..) => .ok true
    | some _ => .ok false
  match host.openNoFollow isDirectory node with
  | none => .error (.io path)
  | some .link => .error (.message "directory entry is a symlink or reparse point" path)
  | some (.file identity bytes) =>
    let budget ← budget.reserveBytes path bytes.length
    let entry ← prepareFile host shared path name identity bytes
    .ok (entry, budget)
  | some (.directory ..) =>
    let (contents, budget) ← readContents path node budget
    .ok (.directory name contents, budget)
  | some .other =>
    .error (.message "directory entry is not a regular file or directory" [nameKey])

/-- The loop over the names of a directory, in the order of their keys. -/
def prepareEntries (host : Host) (shared : SharedArtifacts) (readContents : ReadContents I)
    (path : List Name) (directory : Option (Node I)) :
    List (Name × Name) → PreparedBudget →
      Except PackageError (List (PreparedDirectoryEntry I) × PreparedBudget)
  | [], budget => .ok ([], budget)
  | (nameKey, name) :: rest, budget => do
    let (entry, budget) ← prepareDirectoryEntry host shared readContents nameKey name
      (path ++ [name]) (host.child directory name) budget
    let (entries, budget) ← prepareEntries host shared readContents path directory rest budget
    .ok (entry :: entries, budget)

/-- What `prepare_directory_contents` and `prepare` do alike, with the names that a directory has
to have. -/
def prepareNames (host : Host) (shared : SharedArtifacts) (readContents : ReadContents I)
    (expected : EntryNames → Except PackageError (List Name)) (path : List Name)
    (node : Option (Node I)) (budget : PreparedBudget) :
    Except PackageError (PreparedContents I × PreparedBudget) := do
  let (identity, actualNames) ←
    inspectDirectoryIdentity host path node budget.remainingEntries
  let expectedNames ← expected actualNames
  if budget.remainingEntries < actualNames.entries.length then
    .error (.message "prepared directory contains more than 100000 entries" [])
  else
    let (entries, budget) ←
      prepareEntries host shared readContents path node actualNames.entries budget
    ensureDirectoryIdentity host path node identity
    .ok (⟨identity, entries, expectedNames⟩, budget)

/-- `prepare_directory_contents`, in a tree whose directories are nested at most `depth` deep. -/
def prepareDirectoryContents (host : Host) (shared : SharedArtifacts) : Nat → ReadContents I
  | 0 => fun path _ _ => .error (.io path)
  | depth + 1 =>
    prepareNames host shared (prepareDirectoryContents host shared depth) fun actualNames =>
      .ok actualNames.keys

/-- `expected_name_set`. -/
def expectedNameSet : List Name → Except PackageError EntryNames
  | [] => .ok OrderedTable.empty
  | name :: rest =>
    match windowsNameKey name with
    | .error reason => .error (.invalidName "expected directory entry" reason)
    | .ok key => do
      let names ← expectedNameSet rest
      .ok (names.insert key name)

mutual

/-- How deep directories are nested. -/
def Node.depth : Node I → Nat
  | .directory _ entries => depthOfEntries entries + 1
  | .file .. => 0
  | .link => 0
  | .other => 0
termination_by structural node => node

def depthOfEntries : List (Option Name × Node I) → Nat
  | [] => 0
  | entry :: rest => max (depthOfEntry entry) (depthOfEntries rest)
termination_by structural entries => entries

def depthOfEntry : Option Name × Node I → Nat
  | (_, node) => node.depth
termination_by structural entry => entry

end

/-- `PreparedDirectoryCommit::prepare_with_shared_artifacts`. -/
def prepare (host : Host) (staging : Node I) (expectedNames : List Name)
    (shared : SharedArtifacts) : Except PackageError (PreparedContents I × PreparedBudget) := do
  let expected ← expectedNameSet expectedNames
  prepareNames host shared (prepareDirectoryContents host shared staging.depth)
    (fun actualNames => do
      ensureExactEntrySet actualNames expected.keys []
      .ok expected.keys)
    [] (some staging) .default

-- ---- Verification.

/-- The branch of a file in `verify_prepared_directory_contents`. -/
def verifyFile (host : Host) (source : Bool) (path : List Name) (node : Option (Node I))
    (expectedIdentity : I) (expectedBytes : List UInt8) : Except PackageError Unit :=
  match host.openNoFollow false node with
  | some (.file identity bytes) => do
    let comparison ←
      compareStableSnapshot host path bytes expectedBytes (some expectedBytes.length)
    if ¬comparison then .error (.stagedArtifactChanged staging path)
    else
      secondRead host path bytes expectedBytes
      if source then
        if identity ≠ expectedIdentity then .error (.stagedArtifactChanged staging path)
        else .ok ()
      else if identity ≠ expectedIdentity ∧ ¬comparison then
        .error (.stagedArtifactChanged staging path)
      else .ok ()
  | _ => .error (.stagedArtifactChanged staging path)

mutual

/-- `verify_prepared_directory_contents`. -/
def verifyContents (host : Host) (source : Bool) (path : List Name) (node : Option (Node I)) :
    PreparedContents I → Except PackageError Unit
  | ⟨expectedIdentity, entries, expectedNames⟩ => do
    let (identity, actualNames) ← inspectDirectoryIdentity host path node maxPreparedEntries
    if identity ≠ expectedIdentity then
      .error (.message "directory identity changed during commit verification" path)
    else
      ensureExactEntrySet actualNames expectedNames path
      verifyEntries host source path node entries
      ensureDirectoryIdentity host path node identity
termination_by structural contents => contents

/-- The loop over the entries of the snapshot. -/
def verifyEntries (host : Host) (source : Bool) (path : List Name) (node : Option (Node I)) :
    List (PreparedDirectoryEntry I) → Except PackageError Unit
  | [] => .ok ()
  | entry :: rest => do
    verifyEntry host source path node entry
    verifyEntries host source path node rest
termination_by structural entries => entries

def verifyEntry (host : Host) (source : Bool) (path : List Name) (node : Option (Node I)) :
    PreparedDirectoryEntry I → Except PackageError Unit
  | .file name identity bytes =>
    verifyFile host source (path ++ [name]) (host.child node name) identity bytes
  | .directory name contents =>
    verifyContents host source (path ++ [name]) (host.child node name) contents
termination_by structural entry => entry

end

/-- `verify_prepared_directory`. -/
def verifyPreparedDirectory (host : Host) (prepared : PreparedContents I) (directory : Node I)
    (source : Bool) : Except PackageError Unit :=
  verifyContents host source [] (some directory) prepared

-- ---- What a snapshot says.

/-- An entry of a snapshot and an entry of a directory: names in the relation `names`, one kind,
the same bytes, and below a directory all entries in pairs. -/
inductive Matches (names : Name → Name → Prop) :
    PreparedDirectoryEntry I → Option Name × Node I → Prop
  | file {actual name : Name} {expected identity : I} {bytes : List UInt8}
      (hname : names actual name) :
      Matches names (.file name expected bytes) (some actual, .file identity bytes)
  | directory {actual name : Name} {contents : PreparedContents I} {identity : I}
      {entries paired : List (Option Name × Node I)} (hname : names actual name)
      (hall : paired.Perm entries) (hpairs : List.Forall₂ (Matches names) contents.entries paired) :
      Matches names (.directory name contents) (some actual, .directory identity entries)

/-- A directory has exactly the entries of a snapshot, at every level. -/
def SameContents (names : Name → Name → Prop) (contents : PreparedContents I) (node : Node I) :
    Prop :=
  ∃ identity entries paired, node = .directory identity entries ∧ paired.Perm entries ∧
    List.Forall₂ (Matches names) contents.entries paired

end Xlfn.Package
