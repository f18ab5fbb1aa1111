import Xlfn.Distribution.Commit

/-!
# Xlfn — what an operation on files leaves alone

Most operations of a commit only read. The others change what is at and below one or two paths; a
`FileFrame` says which paths may be changed, and every operation that changes only such paths stays
in the frame.

* `ReadOnly` — the files are as they were.
* `FileFrame` — the paths that are free to change.
* `keeping` — the frame that keeps what is at one path.
-/

namespace Xlfn.Distribution

open Xlfn.Lib.Act
open Xlfn.Lib (Act PathTree)
open Xlfn.Package (Name)

variable {I α β : Type}

-- ---- Reading.

/-- The files are as they were. -/
def unchanged : Frame (World I) where
  rel s t := t.files = s.files
  refl _ := rfl
  trans h h' := Eq.trans h' h

/-- However it ends, the files are as they were. -/
def ReadOnly (m : Run I α) : Prop := Moves unchanged m

namespace ReadOnly

/-- The answer of the outside world changes no file. -/
theorem ask : ReadOnly (ask : Run I (Answer I)) := fun _ => rfl

theorem unreadable : ReadOnly (unreadable : Run I Bool) := fun _ => rfl

/-- A check changes no file. -/
theorem check (error : DistributionError) : ReadOnly (check error : Run I Unit) :=
  Moves.bind ask fun _ => Moves.ite (Moves.fail _) (Moves.pure _)

/-- Looking up a path changes no file. -/
theorem lookup (path : Path) : ReadOnly (lookup path : Run I _) :=
  Moves.bind Moves.get fun _ => Moves.pure _

theorem symlinkMetadata (path : Path) : ReadOnly (symlinkMetadata path : Run I _) :=
  Moves.bind (check _) fun _ => lookup path

theorem isPresent (path : Path) : ReadOnly (isPresent path : Run I _) :=
  Moves.bind unreadable fun _ => Moves.bind (lookup path) fun _ => Moves.pure _

theorem validateDirectoryPath (path : Path) : ReadOnly (validateDirectoryPath path : Run I _) :=
  Moves.bind (check _) fun _ => Moves.bind Moves.get fun _ =>
    Moves.ite (Moves.pure _) (Moves.fail _)

theorem syncDirectory (path : Path) : ReadOnly (syncDirectory path : Run I _) :=
  Moves.bind (check _) fun _ => Moves.bind Moves.get fun _ =>
    Moves.ite (Moves.pure _) (Moves.fail _)

theorem syncRenameParents (source target : Path) :
    ReadOnly (syncRenameParents source target : Run I _) :=
  Moves.bind (syncDirectory _) fun _ => Moves.ite (syncDirectory _) (Moves.pure _)

theorem directoryIdentity (path : Path) : ReadOnly (directoryIdentity path : Run I _) := by
  refine Moves.bind (check _) fun _ => Moves.bind (lookup path) fun entry => ?_
  split
  · exact Moves.pure _
  · exact Moves.fail _

theorem optionalDirectoryIdentity (path : Path) :
    ReadOnly (optionalDirectoryIdentity path : Run I _) := by
  refine Moves.bind (symlinkMetadata path) fun entry => ?_
  cases entry with
  | none => exact Moves.pure _
  | some entry => exact Moves.bind (directoryIdentity path) fun _ => Moves.pure _

theorem requireDirectoryIdentity [DecidableEq I] (path : Path) (expected : I) (label : String) :
    ReadOnly (requireDirectoryIdentity path expected label) :=
  Moves.bind (directoryIdentity path) fun _ => Moves.ite (Moves.fail _) (Moves.pure _)

theorem openPrivate (path : Path) : ReadOnly (openPrivate path : Run I _) := by
  refine Moves.bind (check _) fun _ => Moves.bind (lookup path) fun entry => ?_
  split
  · exact Moves.pure _
  · exact Moves.fail _

/-- The counter is not a file. -/
theorem nextCounter : ReadOnly (nextCounter : Run I _) :=
  Moves.bind Moves.get fun _ => Moves.bind (fun _ => rfl) fun _ => Moves.pure _

theorem required (value : Option α) (text : String) : ReadOnly (required value text : Run I α) := by
  unfold Distribution.required
  cases value with
  | none => exact Moves.fail _
  | some value => exact Moves.pure _

theorem ensureHeld (guard : DistributionCommitGuard) : ReadOnly (ensureHeld guard : Run I _) :=
  check _

theorem validateCommitLocation (location : Location) :
    ReadOnly (validateCommitLocation location : Run I _) :=
  Moves.bind (validateDirectoryPath _) fun _ => validateDirectoryPath _

theorem verifySource [DecidableEq I] (prepared : Prepared I) :
    ReadOnly (verifySource prepared) := by
  refine Moves.bind (check _) fun _ => Moves.bind (lookup _) fun entry => ?_
  split
  · exact Moves.ite (Moves.fail _) (check _)
  · exact Moves.fail _

theorem verifyDestination (destination : Path) :
    ReadOnly (verifyDestination destination : Run I _) :=
  Moves.bind (validateDirectoryPath _) fun _ => check _

end ReadOnly

-- ---- Changing.

def World.withFiles (world : World I) (files : PathTree Name (Entry I)) : World I :=
  { world with files := files }

/-- A frame with the paths whose subtrees are free to be removed and moved. -/
structure FileFrame (I : Type) extends Frame (World I) where
  free    : Path → Prop
  below   : ∀ {path}, free path → ∀ rest, free (path ++ rest)
  quiet   : ∀ {s t : World I}, unchanged.rel s t → rel s t
  keep    : ∀ {path}, free path → ∀ (s : World I) (kept : Path → Bool),
    (∀ other, ¬path <+: other → kept other = true) → rel s (s.withFiles (s.files.keep kept))
  move    : ∀ {source target}, free source → free target → ∀ s : World I, ¬source <+: target →
    rel s (s.withFiles ((s.files.removeTree target).moveTree source target))
  replace : ∀ {source target}, free source → free target → ∀ (s : World I) (journal),
    s.files.lookup source = some (.file journal) →
      rel s (s.withFiles ((s.files.removeTree source).put target (.file journal)))

/-- A frame whose free paths may be written, too. -/
structure WriteFrame (I : Type) extends FileFrame I where
  put : ∀ {path}, free path → ∀ (s : World I) (entry), rel s (s.withFiles (s.files.put path entry))

namespace FileFrame

variable (F : FileFrame I) {source target path : Path}

/-- **A read-only action is in every frame.** -/
theorem reads {m : Run I α} (h : ReadOnly m) : Moves F.toFrame m := fun s => F.quiet (h s)

/-- A read-only action, and then the rest. -/
theorem after {m : Run I α} {f : α → Run I β} (hm : ReadOnly m) (hf : ∀ a, Moves F.toFrame (f a)) :
    Moves F.toFrame (m >>= f) :=
  Moves.bind (F.reads hm) hf

variable {F}

/-- Renaming is in the frame of both its paths. -/
theorem rename (hsource : F.free source) (htarget : F.free target) :
    Moves F.toFrame (rename source target : Run I _) := by
  refine F.after (ReadOnly.check _) fun _ => Moves.get_bind fun s => ?_
  split
  next h => exact F.move hsource htarget s h.2.1
  next => exact F.refl s

/-- So is replacing a file. -/
theorem atomicReplaceFile (hsource : F.free source) (htarget : F.free target) :
    Moves F.toFrame (atomicReplaceFile source target : Run I _) := by
  refine F.after (ReadOnly.check _) fun _ => Moves.get_bind fun s => ?_
  cases hfound : s.files.lookup source with
  | none => exact F.refl s
  | some entry =>
    cases entry with
    | directory identity isPrivate => exact F.refl s
    | file journal =>
      by_cases hdirectory : isDirectory s.files target = true
      · simp only [if_pos hdirectory]
        exact F.refl s
      · simp only [if_neg hdirectory]
        exact F.replace hsource htarget s journal hfound

/-- Removing a tree touches what is below its path. -/
theorem removeTree (hpath : F.free path) (s : World I) :
    F.rel s (s.withFiles (s.files.removeTree path)) :=
  F.keep hpath s _ fun other h => by simp [h]

theorem removeDirAll (hpath : F.free path) : Moves F.toFrame (removeDirAll path : Run I _) := by
  refine F.after ReadOnly.ask fun answer => Moves.get_bind fun s => ?_
  by_cases hfails : answer.fails = true
  · rw [if_pos hfails]
    refine F.keep hpath s _ fun other h => ?_
    unfold left
    simp [h]
  · rw [if_neg hfails]
    by_cases hdirectory : isDirectory s.files path = true
    · rw [if_pos hdirectory]
      exact F.removeTree hpath s
    · rw [if_neg hdirectory]
      exact F.refl s

/-- Cleaning up touches the transaction's own directory only. -/
theorem cleanupNow {parent transaction : Path} (h : F.free transaction) :
    Moves F.toFrame (cleanupNow parent transaction : Run I _) :=
  Moves.bind (F.removeDirAll h) fun _ => F.reads (ReadOnly.syncDirectory _)

/-- Removing an installed distribution touches its directory only. -/
theorem removeInstalledDistribution [DecidableEq I] (hpath : F.free path)
    (journal : TransactionJournal I) :
    Moves F.toFrame (removeInstalledDistribution path journal) := by
  refine F.after (ReadOnly.optionalDirectoryIdentity _) fun found => ?_
  cases found with
  | none => exact Moves.pure _
  | some identity =>
    exact F.after (ReadOnly.required _ _) fun _ =>
      F.after (ReadOnly.requireDirectoryIdentity _ _ _) fun _ =>
        Moves.bind (F.removeDirAll hpath) fun _ => F.reads (ReadOnly.syncDirectory _)

end FileFrame

namespace WriteFrame

variable {F : WriteFrame I} {path : Path}

theorem createPrivateDirectory (hpath : F.free path) :
    Moves F.toFrame (createPrivateDirectory path : Run I _) := by
  refine F.after ReadOnly.ask fun answer => Moves.get_bind fun s => ?_
  split
  · exact F.refl s
  · exact F.put hpath s _

theorem createPrivate (hpath : F.free path) : Moves F.toFrame (createPrivate path : Run I _) := by
  refine F.after (ReadOnly.isPresent _) fun _ => Moves.ite (Moves.fail _) ?_
  refine F.after (ReadOnly.validateDirectoryPath _) fun _ => ?_
  exact Moves.bind (F.createPrivateDirectory hpath) fun _ => F.reads (ReadOnly.openPrivate _)

/-- Writing one file, and then the rest. -/
theorem puts {f : Unit → Run I α} {entry : Entry I} (hpath : F.free path)
    (hf : ∀ done, Moves F.toFrame (f done)) :
    Moves F.toFrame (Act.get >>= fun world => setFiles (world.files.put path entry) >>= f) :=
  Moves.get_bind fun s => F.trans (F.put hpath s entry) (hf () _)

/-- Writing the state touches the transaction's directory only. -/
theorem writeTransactionState {parent transaction : Path} (h : F.free transaction)
    (journal : TransactionJournal I) (state : TransactionState) :
    Moves F.toFrame (writeTransactionState parent transaction journal state) := by
  have hnext : F.free (transaction ++ [journalNext]) := F.below h _
  refine Moves.ite (Moves.fail _) ?_
  refine F.after (ReadOnly.check _) fun _ => ?_
  refine F.after (ReadOnly.check _) fun _ => ?_
  refine Moves.get_bind fun s => ?_
  split
  · exact F.refl s
  refine F.trans (F.put hnext s _) ((?_ : Moves F.toFrame _) _)
  refine F.after (ReadOnly.check _) fun _ => ?_
  refine F.puts hnext fun _ => ?_
  refine F.after (ReadOnly.check _) fun _ => ?_
  refine Moves.bind (F.atomicReplaceFile hnext (F.below h _)) fun _ => ?_
  refine F.after (ReadOnly.syncDirectory _) fun _ => ?_
  exact F.after (ReadOnly.syncDirectory _) fun _ => Moves.pure _

end WriteFrame

/-- A path not below another differs from it. -/
theorem ne_of_not_below {path other : Path} (h : ¬other <+: path) : path ≠ other := by
  rintro rfl
  exact h List.prefix_rfl

/-- The frame that keeps what is at one path. -/
def keeping (path : Path) : WriteFrame I where
  rel s t := t.files.lookup path = s.files.lookup path
  refl _ := rfl
  trans h h' := h'.trans h
  free other := ¬other <+: path
  below h _ := fun hrest => h ((List.prefix_append _ _).trans hrest)
  quiet h := by rw [show _ = _ from h]
  keep h s kept hkept := by
    show (s.files.keep kept).lookup path = s.files.lookup path
    rw [PathTree.lookup_keep, if_pos (hkept path h)]
  move hsource htarget s _ := by
    show PathTree.lookup (PathTree.moveTree _ _ _) path = s.files.lookup path
    rw [PathTree.lookup_moveTree_of_not htarget hsource, PathTree.lookup_removeTree, if_neg htarget]
  replace hsource htarget s _ _ := by
    show PathTree.lookup (PathTree.put _ _ _) path = s.files.lookup path
    rw [PathTree.lookup_put, if_neg (ne_of_not_below htarget),
      PathTree.lookup_removeTree, if_neg hsource]
  put hpath s entry := by
    show PathTree.lookup (PathTree.put _ _ _) path = s.files.lookup path
    rw [PathTree.lookup_put, if_neg (ne_of_not_below hpath)]

end Xlfn.Distribution
