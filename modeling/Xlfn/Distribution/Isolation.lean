import Xlfn.Distribution.Outcome
import Xlfn.Distribution.RecoveryFrame

/-!
# Xlfn — transactions of other destinations

A recovery finds the transactions of its destination by a prefix of their names. The name of a
destination may begin as another name with that prefix does, and then the recovery of the one finds
the transactions of the other. Those with a journal are told apart by it; those without, or with
one that cannot be read, are not.

* `directoryName` — the names of a transaction directory.
* `Isolated` — the recovery of a destination leaves a directory alone.
-/

namespace Xlfn.Distribution

open Xlfn.Lib.Act List
open Xlfn.Lib (Act PathTree)
open Xlfn.Package (Name)

variable {I : Type}

-- ---- Names.

/-- The name of a transaction directory, before or after it is published. -/
def directoryName (destinationName id : Name) (isPrivate : Bool) : Name :=
  if isPrivate then privateName destinationName id else transactionName destinationName id

/-- What follows the name of the destination, without the dot before it. -/
def directoryRest (id : Name) (isPrivate : Bool) : Name :=
  transactionInfix.tail ++ ((if isPrivate then privateMark else []) ++ id)

theorem directoryName_eq (destinationName id : Name) (isPrivate : Bool) :
    directoryName destinationName id isPrivate =
      '.' :: (destinationName ++ '.' :: directoryRest id isPrivate) := by
  cases isPrivate <;>
    simp [directoryName, privateName, transactionName, transactionPrefix, directoryRest,
      transactionInfix]

theorem notMem_decimal (n : Nat) : '.' ∉ decimal n := by
  intro h
  have hdigit := Nat.isDigit_of_mem_toDigits (by decide) (by decide) h
  exact absurd hdigit (by decide)

theorem notMem_directoryRest (process timestamp counter : Nat) (isPrivate : Bool) :
    '.' ∉ directoryRest (transactionId process timestamp counter) isPrivate := by
  have hprocess := notMem_decimal process
  have htimestamp := notMem_decimal timestamp
  have hcounter := notMem_decimal counter
  cases isPrivate <;>
    simp [directoryRest, transactionInfix, transactionId, privateMark, hprocess, htimestamp,
      hcounter]

variable {e : Name}

theorem prefix_of_prefix_append {c : Char} {y z : Name} (hy : c ∉ y) (h : y <+: e ++ c :: z) :
    y <+: e := by
  by_cases hle : y.length ≤ e.length
  · exact prefix_of_prefix_length_le h (prefix_append _ _) hle
  · have hlong : e ++ [c] <+: y := by
      refine prefix_of_prefix_length_le ?_ h ?_
      · exact (prefix_append_right_inj e).mpr (by simp)
      · rw [length_append, length_singleton]
        omega
    exact absurd (hlong.subset (by simp)) hy

variable {d : Name}

/-- **Dots align.** A name with an infix begins another only in the same place, or before the
other's infix. -/
theorem prefix_of_dots {y z : Name} (hy : '.' ∉ y) (hz : '.' ∉ z)
    (h : d ++ '.' :: y <+: e ++ '.' :: z) : (d = e ∧ y <+: z) ∨ d ++ '.' :: y <+: e := by
  induction d generalizing e with
  | nil =>
    cases e with
    | nil => exact .inl ⟨rfl, (cons_prefix_cons.mp h).2⟩
    | cons a e =>
      obtain ⟨rfl, hrest⟩ := cons_prefix_cons.mp h
      exact .inr (cons_prefix_cons.mpr ⟨rfl, prefix_of_prefix_append hy hrest⟩)
  | cons b d ih =>
    cases e with
    | nil =>
      obtain ⟨-, hrest⟩ := cons_prefix_cons.mp h
      exact absurd (hrest.subset (by simp)) hz
    | cons a e =>
      obtain ⟨rfl, hrest⟩ := cons_prefix_cons.mp h
      refine (ih hrest).imp (fun ⟨hsame, htail⟩ => ⟨by rw [hsame], htail⟩) fun hstart => ?_
      exact cons_prefix_cons.mpr ⟨rfl, hstart⟩

-- ---- Isolation.

/-- The frame that keeps what is at and below a path. -/
def sparing (path : Path) : FileFrame I where
  rel s t := ∀ rest, t.files.lookup (path ++ rest) = s.files.lookup (path ++ rest)
  refl _ _ := rfl
  trans h h' rest := (h' rest).trans (h rest)
  free other := ∀ rest, ¬other <+: path ++ rest
  below h _ := fun rest hrest => h rest ((prefix_append _ _).trans hrest)
  quiet h := fun _ => by rw [show _ = _ from h]
  keep h s kept hkept := fun rest => (keeping (path ++ rest)).keep (h rest) s kept hkept
  move hsource htarget s hbelow := fun rest =>
    (keeping (path ++ rest)).move (hsource rest) (htarget rest) s hbelow
  replace hsource htarget s journal hfound := fun rest =>
    (keeping (path ++ rest)).replace (hsource rest) (htarget rest) s journal hfound

variable {parent : Path}

theorem sparing_free {name other : Name} (h : name ≠ other) :
    (sparing (parent ++ [other]) : FileFrame I).free (parent ++ [name]) := by
  intro rest hstart
  rw [append_assoc] at hstart
  obtain ⟨hname, -⟩ := cons_prefix_cons.mp ((prefix_append_right_inj parent).mp hstart)
  exact h hname

/-- Whatever there is and whatever fails, the recovery of a destination leaves the private
directory at a path as it is, with all that is in it. -/
def Isolated (I : Type) [DecidableEq I] (location : Location) (directory : Path) : Prop :=
  ∀ (guard : DistributionCommitGuard) (world : World I) (identity : I),
    world.files.lookup directory = some (.directory identity true) →
      (sparing directory).rel world (recoverStaleTransactions location guard world).2

/-- The names that a recovery does not use. -/
theorem isolated_of_names [DecidableEq I] {location : Location} {name : Name}
    (hdestination : location.destinationName ≠ name)
    (hstart : ¬transactionPrefix location.destinationName <+: name)
    (hquarantine : ∀ id counter, quarantineName location.destinationName id counter ≠ name) :
    Isolated I location (location.parent ++ [name]) := by
  intro guard world _ _
  refine recoverStaleTransactions_moves ⟨sparing_free hdestination, fun hown => ?_,
    fun id counter => sparing_free (hquarantine id counter)⟩ guard world
  refine sparing_free ?_
  rintro rfl
  exact hstart hown

-- ---- A willing host.

/-- A world in which no operation fails; with `blind`, no read that may be refused is answered. -/
def willing (files : PathTree Name (Entry I)) (counter : Nat) (blind : Bool) (identity : I) :
    World I where
  files      := files
  counter    := counter
  process    := 0
  answers    := fun _ => ⟨false, fun _ => false, identity, 0⟩
  unreadable := fun _ => blind

/-- A postcondition for both ways to end. -/
def anyway {α : Type} (P : PathTree Name (Entry I) → Prop) : Post (World I) DistributionError α :=
  ⟨fun _ t => P t.files, fun _ t => P t.files⟩

variable {s : World I} {P : PathTree Name (Entry I) → Prop}

theorem holds_of_anyway {α : Type} {m : Run I α} (h : wp m (anyway P) s) : P (m s).2.files := by
  unfold wp at h
  generalize m s = ended at h
  match ended, h with
  | (.ok a, t), h => exact h
  | (.error e, t), h => exact h

variable {Q : Post (World I) DistributionError Unit} {isPrivate : Bool}

section

variable {files : PathTree Name (Entry I)} {counter : Nat} {blind : Bool} {identity : I}
  {α : Type} {path : Path}

theorem willing_files : (willing files counter blind identity).files = files := rfl

theorem willing_ask {Q : Post (World I) DistributionError (Answer I)} :
    wp ask Q (willing files counter blind identity) =
      Q.ok ⟨false, fun _ => false, identity, 0⟩ (willing files counter blind identity) := rfl

theorem willing_check {error : DistributionError} :
    wp (check error) Q (willing files counter blind identity) =
      Q.ok () (willing files counter blind identity) := rfl

theorem willing_lookup {Q : Post (World I) DistributionError (Option (Entry I))} :
    wp (lookup path) Q (willing files counter blind identity) =
      Q.ok (files.lookup path) (willing files counter blind identity) := rfl

theorem willing_setFiles {files'} : wp (setFiles files') Q (willing files counter blind identity) =
      Q.ok () (willing files' counter blind identity) := rfl

theorem willing_unreadable {Q : Post (World I) DistributionError Bool} :
    wp unreadable Q (willing files counter blind identity) =
      Q.ok blind (willing files counter blind identity) := rfl

theorem willing_nextCounter {Q : Post (World I) DistributionError Nat} :
    wp nextCounter Q (willing files counter blind identity) =
      Q.ok counter (willing files (counter + 1) blind identity) := rfl

theorem willing_removeDirAll (h : isDirectory files path = true) :
    wp (removeDirAll path) Q (willing files counter blind identity) =
      Q.ok () (willing (files.removeTree path) counter blind identity) := by
  simp only [removeDirAll, wp_bind, willing_ask, wp_get, willing_files, h, if_true,
    Bool.false_eq_true, if_false, willing_setFiles]

theorem willing_rename {target : Path} (hsource : (files.lookup path).isSome = true)
    (hbelow : ¬path <+: target) (hparent : isDirectory files target.dropLast = true)
    (htarget : replaceable files path target = true) :
    wp (rename path target) Q (willing files counter blind identity) =
      Q.ok () (willing ((files.removeTree target).moveTree path target) counter blind identity) := by
  simp only [rename, wp_bind, willing_check, wp_get, willing_files, hsource, hbelow, hparent,
    htarget, not_false_eq_true, and_self, if_true, willing_setFiles]

theorem willing_syncDirectory (h : isDirectory files path = true) :
    wp (syncDirectory path) Q (willing files counter blind identity) =
      Q.ok () (willing files counter blind identity) := by
  simp only [syncDirectory, wp_bind, willing_check, wp_get, willing_files, h, if_true, wp_pure]

theorem willing_openPrivate {own : I} (h : files.lookup path = some (.directory own true)) :
    wp (openPrivate path) Q (willing files counter blind identity) =
      Q.ok () (willing files counter blind identity) := by
  simp only [openPrivate, wp_bind, willing_check, willing_lookup, h, wp_pure]

theorem willing_readDir {Q : Post (World I) DistributionError (List Name)}
    (h : isDirectory files path = true) :
    wp (readDir path) Q (willing files counter blind identity) =
      Q.ok (files.children path) (willing files counter blind identity) := by
  simp only [readDir, wp_bind, willing_check, wp_get, willing_files, h, if_true, wp_pure]

theorem willing_optionalDirectoryIdentity {Q : Post (World I) DistributionError (Option I)}
    {own : I} (h : files.lookup path = some (.directory own isPrivate)) :
    wp (optionalDirectoryIdentity path) Q (willing files counter blind identity) =
      Q.ok (some own) (willing files counter blind identity) := by
  simp only [optionalDirectoryIdentity, symlinkMetadata, directoryIdentity, wp_bind, willing_check,
    willing_lookup, h, wp_pure]

theorem willing_optionalDirectoryIdentity_none
    {Q : Post (World I) DistributionError (Option I)} (h : files.lookup path = none) :
    wp (optionalDirectoryIdentity path) Q (willing files counter blind identity) =
      Q.ok none (willing files counter blind identity) := by
  simp only [optionalDirectoryIdentity, symlinkMetadata, wp_bind, willing_check, willing_lookup, h,
    wp_pure]

theorem willing_requireDirectoryIdentity [DecidableEq I] {own : I} {label : String}
    (h : files.lookup path = some (.directory own isPrivate)) :
    wp (requireDirectoryIdentity path own label) Q (willing files counter blind identity) =
      Q.ok () (willing files counter blind identity) := by
  simp only [requireDirectoryIdentity, directoryIdentity, wp_bind, willing_check, willing_lookup, h,
    wp_pure, ne_eq, not_true_eq_false, if_false]

theorem strip_own {start suffix : Name} (hsuffix : suffix ≠ []) :
    (stripPrefix start (start ++ suffix)).filter (· ≠ []) = some suffix := by
  rw [stripPrefix, if_pos (prefix_append _ _), drop_left]
  exact Option.filter_some_pos (by simpa using hsuffix)

theorem wp_transactionIdOf {Q : Post (World I) DistributionError Name} {start suffix : Name}
    (hsuffix : suffix ≠ []) : wp (transactionIdOf start (parent ++ [start ++ suffix])) Q s =
      Q.ok ((stripPrefix privateMark suffix).getD suffix) s := by
  simp only [transactionIdOf, transactionSuffix, getLast?_concat, strip_own hsuffix, wp_bind,
    wp_pure]

theorem wp_mapError_anyway {m : Run I α} {f : DistributionError → DistributionError} :
    wp (mapError f m) (anyway P) s = wp m (anyway P) s := wp_mapError

end

variable [DecidableEq I] {files : PathTree Name (Entry I)} {counter : Nat} {blind : Bool}
  {identity own : I} {location : Location} {guard : DistributionCommitGuard} {name suffix : Name}

theorem willing_validateTransactionProvenance {journal : TransactionJournal I}
    (hname : name = transactionPrefix location.destinationName ++ suffix) (hsuffix : suffix ≠ [])
    (hid : journal.transactionId = (stripPrefix privateMark suffix).getD suffix)
    (hdestination : journal.destinationName = location.destinationName)
    (hparent : files.lookup location.parent = some (.directory journal.parentIdentity isPrivate))
    (hown : files.lookup (location.parent ++ [name]) =
      some (.directory journal.transactionIdentity true)) :
    wp (validateTransactionProvenance location (location.parent ++ [name]) journal) Q
        (willing files counter blind identity) =
      Q.ok () (willing files counter blind identity) := by
  subst hname
  simp only [validateTransactionProvenance, wp_bind, willing_openPrivate hown,
    wp_transactionIdOf hsuffix, hid, hdestination, ne_eq, not_true_eq_false, if_false,
    willing_requireDirectoryIdentity hparent, willing_requireDirectoryIdentity hown]

/-- A recovery that finds one directory. -/
theorem recoverStaleTransactions_anyway (hguard : guard.destination = location.destination)
    (habove : ∀ above entry, above <+: location.parent → files.lookup above = some entry →
      entry.isDirectory = true)
    (hparent : isDirectory files location.parent = true)
    (hfound : (files.children location.parent).filter
      (fun name => decide (transactionPrefix location.destinationName <+: name)) = [name])
    (h : wp (recoverDistributionTransaction location guard (location.parent ++ [name])) (anyway P)
      (willing files counter blind identity)) :
    wp (recoverStaleTransactions location guard) (anyway P)
      (willing files counter blind identity) := by
  have hall : location.parent.inits.all
      (fun above => (files.lookup above).all Entry.isDirectory) = true := by
    refine all_eq_true.mpr fun above hmem => ?_
    rw [Option.all_eq_true]
    intro entry hentry
    exact habove above entry ((mem_inits _ _).mp hmem) hentry
  simp only [recoverStaleTransactions, ensureHeld, validateDirectoryPath, validatePathComponents,
    wp_bind, willing_check, hguard, ne_eq, not_true_eq_false, if_false, wp_get, willing_files, hall,
    if_true, wp_pure, willing_readDir hparent, hfound, map_cons, map_nil, recoverEach]
  exact wp_mono h (fun _ _ h => h) fun _ _ h => h

/-- A recovery of one directory, once it is open. -/
theorem recoverDistributionTransaction_anyway
    (hopen : files.lookup (location.parent ++ [name]) = some (.directory own true))
    (hname : name = transactionPrefix location.destinationName ++ suffix) (hsuffix : suffix ≠ [])
    (h : wp (recoverJournal location (location.parent ++ [name])
        ((files.children (location.parent ++ [name])).filter fun name =>
          name ≠ transactionJournal ∧ name ≠ journalNext)
        (files.lookup (location.parent ++ [name] ++ [transactionJournal]))
        (files.lookup (location.parent ++ [name] ++ [journalNext])))
      ⟨fun found t => match found with
        | none => P t.files
        | some (state, both) => wp (recoverWithJournal location guard (location.parent ++ [name])
            (decide (privateMark <+: suffix))
            ((files.children (location.parent ++ [name])).filter fun name =>
              name ≠ transactionJournal ∧ name ≠ journalNext)
            state (if both then files.lookup (location.parent ++ [name] ++ [journalNext]) else none))
            (anyway P) t,
        fun _ t => P t.files⟩ (willing files counter blind identity)) :
    wp (recoverDistributionTransaction location guard (location.parent ++ [name])) (anyway P)
      (willing files counter blind identity) := by
  have hdirectory : isDirectory files (location.parent ++ [name]) = true := by
    rw [isDirectory, hopen]
    rfl
  have hstrip : (stripPrefix (transactionPrefix location.destinationName) name).filter (· ≠ []) =
      some suffix := by
    rw [hname]
    exact strip_own hsuffix
  simp only [recoverDistributionTransaction, ensureHeld, isPrivateTransaction, transactionSuffix,
    transactionPayloads, validatePathComponents, symlinkMetadata, wp_bind, wp_mapError,
    willing_check, willing_openPrivate hopen, getLast?_concat, hstrip, wp_pure,
    willing_readDir hdirectory, willing_lookup]
  refine wp_mono h (fun found t ht => ?_) fun e t ht => ht
  cases found with
  | none => exact ht
  | some found =>
    obtain ⟨state, both⟩ := found
    show wp (mapError _ _) (anyway P) t
    exact wp_mapError_anyway.mpr ht

theorem not_isolated_of_anyway {directory : Path} (counter : Nat) (blind : Bool) (identity : I)
    (guard : DistributionCommitGuard) (rest : Path)
    (hopen : files.lookup directory = some (.directory own true))
    (h : wp (recoverStaleTransactions location guard)
      (anyway fun after => after.lookup (directory ++ rest) ≠ files.lookup (directory ++ rest))
      (willing files counter blind identity)) : ¬Isolated I location directory :=
  fun hisolated => holds_of_anyway h (hisolated guard _ own hopen rest)

-- ---- The names below a directory.

theorem not_below_parent (parent : Path) (name : Name) : ¬parent ++ [name] <+: parent := by
  intro h
  have hlength := h.length_le
  rw [length_append, length_singleton] at hlength
  omega

theorem childName_child (directory : Path) (name : Name) :
    PathTree.childName directory (directory ++ [name]) = some name := by
  simp [PathTree.childName]

theorem childName_parent (directory : Path) : PathTree.childName directory directory = none := by
  simp [PathTree.childName]

theorem childName_above (directory : Path) (name : Name) :
    PathTree.childName (directory ++ [name]) directory = none :=
  if_neg fun hchild => not_below_parent directory name hchild.1

theorem childName_beside (directory : Path) (name other : Name) :
    PathTree.childName (directory ++ [name]) (directory ++ [other]) = none := by
  simp [PathTree.childName]

theorem childName_below (directory : Path) (name file : Name) :
    PathTree.childName directory (directory ++ [name, file]) = none := by
  simp [PathTree.childName]

theorem childName_grandchild (directory : Path) (name file : Name) :
    PathTree.childName (directory ++ [name]) (directory ++ [name, file]) = some file := by
  simp [PathTree.childName]

omit [DecidableEq I] in
theorem isDirectory_of_lookup {directory : Path}
    (h : files.lookup directory = some (.directory own isPrivate)) :
    isDirectory files directory = true := by
  rw [isDirectory, h]
  rfl

omit [DecidableEq I] in
theorem directories_above (h : ∀ entry ∈ files,
    entry.1.length < parent.length + 2 → entry.2.isDirectory = true) (above : Path)
    (entry : Entry I) (habove : above <+: parent) (hfound : files.lookup above = some entry) :
    entry.isDirectory = true :=
  h (above, entry) (PathTree.mem_of_lookup hfound)
    (Nat.lt_of_le_of_lt habove.length_le (Nat.lt_add_of_pos_right (by decide)))

-- ---- An empty directory with the prefix.

def emptyFiles (parent : Path) (name : Name) (identity : I) : PathTree Name (Entry I) :=
  [(parent, .directory identity false), (parent ++ [name], .directory identity true)]

/-- An empty directory with the prefix is removed. -/
theorem not_isolated_of_prefix (identity : I) (location : Location)
    (hname : name = transactionPrefix location.destinationName ++ suffix) (hsuffix : suffix ≠ []) :
    ¬Isolated I location (location.parent ++ [name]) := by
  obtain ⟨parent, destinationName⟩ := location
  dsimp only at hname ⊢
  have hopen : (emptyFiles parent name identity).lookup (parent ++ [name]) =
      some (.directory identity true) := by simp [emptyFiles, PathTree.lookup]
  have hparent : (emptyFiles parent name identity).lookup parent =
      some (.directory identity false) := by simp [emptyFiles, PathTree.lookup]
  have hremoved : ((emptyFiles parent name identity).removeTree (parent ++ [name])).lookup parent =
      some (.directory identity false) := by
    rw [PathTree.lookup_removeTree, if_neg (not_below_parent parent name), hparent]
  refine not_isolated_of_anyway 0 false identity ⟨[], parent ++ [destinationName]⟩ [] hopen
    (recoverStaleTransactions_anyway rfl (directories_above ?_) (isDirectory_of_lookup hparent) ?_
      (recoverDistributionTransaction_anyway hopen hname hsuffix ?_))
  · simp [emptyFiles, Entry.isDirectory]
  · have hchildren : (emptyFiles parent name identity).children parent = [name] := by
      simp [emptyFiles, PathTree.children, childName_child, childName_parent]
    rw [hchildren]
    simp [hname]
  · have hpayloads : (emptyFiles parent name identity).children (parent ++ [name]) = [] := by
      simp [emptyFiles, PathTree.children, childName_above, childName_parent]
    have habsent (file : Name) :
        (emptyFiles parent name identity).lookup (parent ++ [name] ++ [file]) = none := by
      simp [emptyFiles, PathTree.lookup]
    simp only [hpayloads, habsent, filter_nil, recoverJournal, if_true, removeEmptyTransaction,
      wp_bind, willing_openPrivate hopen, willing_removeDirAll (isDirectory_of_lookup hopen),
      willing_syncDirectory (isDirectory_of_lookup hremoved), wp_pure, append_nil]
    rw [willing_files, PathTree.lookup_removeTree, if_pos prefix_rfl, hopen]
    exact (Option.some_ne_none _).symm

-- ---- A directory with the name of the destination.

def installedName (destinationName : Name) : Name := transactionPrefix destinationName ++ ['1']

def installedJournal (destinationName : Name) (identity : I) : TransactionJournal I :=
  { TransactionJournal.new ['1'] destinationName identity identity none with
    state := .installedNoPrevious, installedIdentity := some identity }

def installedFiles (parent : Path) (destinationName : Name) (identity : I) :
    PathTree Name (Entry I) :=
  [(parent, .directory identity false), (parent ++ [destinationName], .directory identity true),
    (parent ++ [installedName destinationName], .directory identity true),
    (parent ++ [installedName destinationName, transactionJournal],
      .file (some (installedJournal destinationName identity)))]

theorem installedName_ne (destinationName : Name) :
    destinationName ≠ installedName destinationName := by
  intro h
  have hlength := congrArg length h
  rw [installedName, length_append, transactionPrefix_length, length_singleton] at hlength
  omega

theorem not_prefix_destination (destinationName : Name) :
    ¬transactionPrefix destinationName <+: destinationName := by
  intro h
  have hlength := h.length_le
  rw [transactionPrefix_length] at hlength
  omega

/-- A directory with the name of the destination is removed as what was installed. -/
theorem not_isolated_of_destination (identity : I) (location : Location) :
    ¬Isolated I location (location.parent ++ [location.destinationName]) := by
  obtain ⟨parent, destinationName⟩ := location
  dsimp only
  have hother := installedName_ne destinationName
  have hpublished : ¬(decide (privateMark <+: ['1']) = true ∧
      [transactionJournal].filter (fun name => decide (name ≠ transactionJournal ∧
        name ≠ journalNext)) ≠ []) := by decide
  generalize hjournal : installedJournal destinationName identity = journal
  generalize hname : installedName destinationName = name at hother
  generalize hfiles : installedFiles parent destinationName identity = files
  unfold installedFiles at hfiles
  rw [hname, hjournal] at hfiles
  have hopen : files.lookup (parent ++ [destinationName]) = some (.directory identity true) := by
    simp [← hfiles, PathTree.lookup]
  have hown : files.lookup (parent ++ [name]) = some (.directory identity true) := by
    simp [← hfiles, PathTree.lookup, hother]
  have hparent : files.lookup parent = some (.directory identity false) := by
    simp [← hfiles, PathTree.lookup]
  have hstored : files.lookup (parent ++ [name] ++ [transactionJournal]) =
      some (.file (some journal)) := by
    simp [← hfiles, PathTree.lookup]
  have habsent (file : Name) (hfile : file ≠ transactionJournal) :
      files.lookup (parent ++ [name] ++ [file]) = none := by
    simp [← hfiles, PathTree.lookup, Ne.symm hfile]
  have hnext := habsent journalNext (by decide)
  have hprevious := habsent previousName (by decide)
  have hpayloads : files.children (parent ++ [name]) = [transactionJournal] := by
    rw [← hfiles]
    simp [PathTree.children, childName_above, childName_beside, childName_grandchild]
  have hchildren : files.children parent = [destinationName, name] := by
    rw [← hfiles]
    simp [PathTree.children, childName_child, childName_parent, childName_below]
  refine not_isolated_of_anyway 0 false identity ⟨[], parent ++ [destinationName]⟩ [] hopen
    (recoverStaleTransactions_anyway rfl (directories_above ?_) (isDirectory_of_lookup hparent) ?_
      (recoverDistributionTransaction_anyway hown hname.symm (cons_ne_nil _ _) ?_))
  · simp [← hfiles, Entry.isDirectory]
  · rw [hchildren]
    simp [not_prefix_destination, ← hname, installedName]
  have hprovenance {Q : Post (World I) DistributionError Unit} :
      wp (validateTransactionProvenance ⟨parent, destinationName⟩ (parent ++ [name]) journal) Q
          (willing files 0 false identity) = Q.ok () (willing files 0 false identity) :=
    willing_validateTransactionProvenance hname.symm (cons_ne_nil _ _) (hjournal ▸ rfl)
      (hjournal ▸ rfl) (by rw [hparent, ← hjournal]; rfl) (by rw [hown, ← hjournal]; rfl)
  have hstate : recoverState ⟨parent, destinationName⟩ (parent ++ [name]) journal =
      recoverFirst ⟨parent, destinationName⟩ (parent ++ [name])
        (parent ++ [name] ++ [previousName]) journal := by rw [← hjournal]; rfl
  have hinstalled : journal.installedIdentity = some identity := by rw [← hjournal]; rfl
  -- What there is once the destination is gone.
  have hkept {path : Path} (hpath : ¬parent ++ [destinationName] <+: path) :
      (files.removeTree (parent ++ [destinationName])).lookup path = files.lookup path := by
    rw [PathTree.lookup_removeTree, if_neg hpath]
  have hparent' := (hkept (not_below_parent parent _)).trans hparent
  have hown' := (hkept (by simp [prefix_append_right_inj, hother])).trans hown
  have hinstall' := (hkept (by simp [prefix_append_right_inj, hother])).trans
    (habsent recoveryInstallName (by decide))
  have hend : ((files.removeTree (parent ++ [destinationName])).removeTree
      (parent ++ [name])).lookup parent = some (.directory identity false) := by
    rw [PathTree.lookup_removeTree, if_neg (not_below_parent parent name), hparent']
  simp only [hpayloads, hstored, hnext, recoverJournal, readTransactionJournal, wp_bind,
    wp_attempt, willing_unreadable, willing_lookup, Bool.false_eq_true, if_false, wp_pure,
    Option.isSome_none, recoverWithJournal, hprovenance, recoverNext]
  simp only [if_neg hpublished, hstate, recoverFirst, removeInstalledDistribution,
    removeRecoveryInstall, validatePathComponents, ensureHeld, Location.destination, wp_bind,
    willing_check, willing_optionalDirectoryIdentity_none hprevious,
    willing_optionalDirectoryIdentity hopen, hinstalled, required, wp_pure,
    willing_requireDirectoryIdentity hopen, willing_removeDirAll (isDirectory_of_lookup hopen),
    dropLast_concat, willing_syncDirectory (isDirectory_of_lookup hparent'),
    willing_optionalDirectoryIdentity_none hinstall', willing_openPrivate hown',
    willing_removeDirAll (isDirectory_of_lookup hown'),
    willing_syncDirectory (isDirectory_of_lookup hend)]
  show PathTree.lookup _ _ ≠ _
  rw [willing_files, append_nil, PathTree.lookup_removeTree, PathTree.lookup_removeTree,
    if_pos prefix_rfl, ite_self, hopen]
  exact (Option.some_ne_none _).symm

-- ---- A directory with a name under which another is put aside.

def takenFiles (parent : Path) (taken name : Name) (identity : I) : PathTree Name (Entry I) :=
  [(parent, .directory identity false), (parent ++ [taken], .directory identity true),
    (parent ++ [name], .directory identity true), (parent ++ [name, previousName], .file none)]

/-- The name under which a directory is put aside may be taken, and that is not seen where it
cannot be looked at. -/
theorem not_isolated_of_quarantine (identity : I) (location : Location) (id : Name)
    (counter : Nat) : ¬Isolated I location
      (location.parent ++ [quarantineName location.destinationName id counter]) := by
  obtain ⟨parent, destinationName⟩ := location
  dsimp only
  generalize hname : transactionPrefix destinationName ++ (privateMark ++ id) = name
  generalize htaken : quarantineName destinationName id counter = taken
  have hnot : ¬transactionPrefix destinationName <+: taken := by
    rw [← htaken]
    simp [transactionPrefix, quarantineName, transactionInfix, quarantineInfix,
      prefix_append_right_inj]
  have hother : taken ≠ name := by
    rintro rfl
    exact hnot (hname ▸ prefix_append _ _)
  generalize hfiles : takenFiles parent taken name identity = files
  unfold takenFiles at hfiles
  have hopen : files.lookup (parent ++ [taken]) = some (.directory identity true) := by
    simp [← hfiles, PathTree.lookup]
  have hown : files.lookup (parent ++ [name]) = some (.directory identity true) := by
    simp [← hfiles, PathTree.lookup, hother]
  have hparent : files.lookup parent = some (.directory identity false) := by
    simp [← hfiles, PathTree.lookup]
  have habsent (file : Name) (hfile : file ≠ previousName) :
      files.lookup (parent ++ [name] ++ [file]) = none := by
    simp [← hfiles, PathTree.lookup, Ne.symm hfile]
  have hjournal := habsent transactionJournal (by decide)
  have hnext := habsent journalNext (by decide)
  have hpayloads : (files.children (parent ++ [name])).filter
      (fun name => name ≠ transactionJournal ∧ name ≠ journalNext) = [previousName] := by
    have hchildren : files.children (parent ++ [name]) = [previousName] := by
      rw [← hfiles]
      simp [PathTree.children, childName_above, childName_beside, childName_grandchild]
    rw [hchildren]
    decide
  have hchildren : files.children parent = [taken, name] := by
    rw [← hfiles]
    simp [PathTree.children, childName_child, childName_parent, childName_below]
  refine not_isolated_of_anyway counter true identity ⟨[], parent ++ [destinationName]⟩
    [previousName] hopen
    (recoverStaleTransactions_anyway rfl (directories_above ?_) (isDirectory_of_lookup hparent) ?_
      (recoverDistributionTransaction_anyway hown hname.symm (by simp [privateMark]) ?_))
  · simp [← hfiles, Entry.isDirectory]
  · rw [hchildren]
    simp [hnot, ← hname]
  have hreplaceable : replaceable files (parent ++ [name]) (parent ++ [taken]) = true := by
    rw [replaceable, hopen, isDirectory_of_lookup hown, ← hfiles]
    simp [Entry.isDirectory, prefix_append_right_inj, hother, not_below_parent]
  have hapart : ¬parent ++ [name] <+: parent ++ [taken] := by
    simp [prefix_append_right_inj, hother.symm]
  have htarget : isDirectory files (parent ++ [taken]).dropLast = true := by
    rw [dropLast_concat]
    exact isDirectory_of_lookup hparent
  have hend : ((files.removeTree (parent ++ [taken])).moveTree (parent ++ [name])
      (parent ++ [taken])).lookup parent = some (.directory identity false) := by
    rw [PathTree.lookup_moveTree_of_not (not_below_parent parent taken) (not_below_parent parent name),
      PathTree.lookup_removeTree, if_neg (not_below_parent parent taken), hparent]
  have hid {Q : Post (World I) DistributionError Name} {s : World I} :
      wp (transactionIdOf (transactionPrefix destinationName) (parent ++ [name])) Q s =
        Q.ok id s := by
    rw [← hname, wp_transactionIdOf (by simp [privateMark])]
    simp [stripPrefix]
  simp only [hpayloads, hjournal, hnext, recoverJournal, reduceCtorEq, if_false,
    quarantineTransaction, wp_bind, wp_attempt, hid, Except.toOption, Option.getD_some]
  rw [show (64 : Nat) = 63 + 1 from rfl, quarantineAttempts]
  simp only [wp_bind, willing_nextCounter, isPresent, willing_unreadable, willing_lookup, wp_pure,
    Bool.not_true, Bool.false_and, Bool.false_eq_true, if_false, wp_attempt, htaken,
    willing_rename (by rw [hown]; rfl) hapart htarget hreplaceable,
    willing_syncDirectory (isDirectory_of_lookup hend), wp_fail]
  -- What was put aside has taken the place.
  have hmoved : ((files.removeTree (parent ++ [taken])).moveTree (parent ++ [name])
      (parent ++ [taken])).lookup (parent ++ [taken] ++ [previousName]) = _ :=
    PathTree.lookup_moveTree_new (PathTree.vacant_removeTree files _) [previousName]
  have hbelow : ¬parent ++ [taken] <+: parent ++ [name] ++ [previousName] := by
    simp [prefix_append_right_inj, hother]
  have hsaved : files.lookup (parent ++ [name] ++ [previousName]) = some (.file none) := by
    simp [← hfiles, PathTree.lookup]
  have hbefore : files.lookup (parent ++ [taken] ++ [previousName]) = none := by
    simp [← hfiles, PathTree.lookup, hother.symm]
  rw [willing_files, hmoved, PathTree.lookup_removeTree, if_neg hbelow, hsaved, hbefore]
  exact Option.some_ne_none _

-- ---- Exactly when.

theorem transactionPrefix_iff (hne : d ≠ e) (process timestamp counter : Nat) (isPrivate : Bool) :
    transactionPrefix d <+: directoryName e (transactionId process timestamp counter) isPrivate ↔
      d ++ transactionInfix <+: e := by
  rw [directoryName_eq]
  constructor
  · intro h
    refine (prefix_of_dots (by decide) (notMem_directoryRest process timestamp counter isPrivate)
      (cons_prefix_cons.mp h).2).resolve_left fun hsame => hne hsame.1
  · intro h
    exact cons_prefix_cons.mpr ⟨rfl, h.trans (prefix_append _ _)⟩

theorem quarantineName_iff (hne : d ≠ e) (process timestamp counter : Nat) (isPrivate : Bool) :
    (∃ id n, quarantineName d id n =
        directoryName e (transactionId process timestamp counter) isPrivate) ↔
      d ++ quarantineInfix <+: e := by
  rw [directoryName_eq]
  constructor
  · rintro ⟨id, n, h⟩
    have hstart : '.' :: (d ++ quarantineInfix) <+: '.' :: (e ++ '.' :: directoryRest
        (transactionId process timestamp counter) isPrivate) := by
      rw [← h, quarantineName, append_assoc]
      exact prefix_append _ _
    refine (prefix_of_dots (by decide) (notMem_directoryRest process timestamp counter isPrivate)
      (cons_prefix_cons.mp hstart).2).resolve_left fun hsame => hne hsame.1
  · rintro ⟨rest, rfl⟩
    refine ⟨rest ++ transactionInfix ++ (if isPrivate then privateMark else []) ++
      (decimal process ++ '-' :: decimal timestamp), counter, ?_⟩
    simp [quarantineName, directoryRest, transactionId, transactionInfix]

/-- **Transactions of other destinations are left alone, except in three cases.** The recovery of
`d` leaves a transaction directory of `e` alone, whatever its stage is and whatever fails, exactly
where the name of `e` begins neither as the transactions of `d` do nor as the directories that are
put aside for `d`, and the directory is not `d` itself. -/
theorem isolated_iff [Inhabited I] (parent : Path) (hne : d ≠ e) (process timestamp counter : Nat)
    (isPrivate : Bool) : Isolated I ⟨parent, d⟩
        (parent ++ [directoryName e (transactionId process timestamp counter) isPrivate]) ↔
      ¬d ++ transactionInfix <+: e ∧ ¬d ++ quarantineInfix <+: e ∧
        d ≠ directoryName e (transactionId process timestamp counter) isPrivate := by
  constructor
  · intro h
    refine ⟨fun hstart => ?_, fun hstart => ?_, fun hsame => ?_⟩
    · obtain ⟨suffix, hsuffix⟩ := (transactionPrefix_iff hne process timestamp counter isPrivate).mpr
        hstart
      refine not_isolated_of_prefix default ⟨parent, d⟩ hsuffix.symm ?_ h
      rintro rfl
      have hlength := congrArg length hsuffix
      have hle := hstart.length_le
      rw [append_nil, transactionPrefix_length, directoryName_eq, length_cons, length_append,
        length_cons] at hlength
      rw [length_append, show transactionInfix.length = 13 from rfl] at hle
      omega
    · obtain ⟨id, n, hname⟩ := (quarantineName_iff hne process timestamp counter isPrivate).mpr
        hstart
      exact not_isolated_of_quarantine default ⟨parent, d⟩ id n (hname ▸ h)
    · rw [← hsame] at h
      exact not_isolated_of_destination default ⟨parent, d⟩ h
  · rintro ⟨hstart, hquarantine, hsame⟩
    refine isolated_of_names hsame (fun hown => hstart ?_) fun id n hname => hquarantine ?_
    · exact (transactionPrefix_iff hne process timestamp counter isPrivate).mp hown
    · exact (quarantineName_iff hne process timestamp counter isPrivate).mp ⟨id, n, hname⟩

theorem isolated_iff_apart : Isolated Nat ⟨[], ['a']⟩
    ([] ++ [directoryName ['a', 'b'] (transactionId 1 2 3) true]) :=
  (isolated_iff [] (by decide) 1 2 3 true).mpr ⟨by decide, by decide, by decide⟩

/-- The private directory of a commit to `a.transaction-b`, before its journal is written, does not
outlive a recovery of `a`. -/
theorem not_isolated_overlapping : ¬∀ (parent : Path) (d e : Name)
    (process timestamp counter : Nat) (isPrivate : Bool), d ≠ e → Isolated Nat ⟨parent, d⟩
      (parent ++ [directoryName e (transactionId process timestamp counter) isPrivate]) := by
  intro h
  have hname : directoryName ('a' :: transactionInfix ++ ['b']) (transactionId 1 2 3) true =
      transactionPrefix ['a'] ++ ('b' :: transactionInfix ++ privateMark ++ transactionId 1 2 3) :=
    rfl
  exact not_isolated_of_prefix 0 ⟨[], ['a']⟩ hname (cons_ne_nil _ _)
    (h [] ['a'] ('a' :: transactionInfix ++ ['b']) 1 2 3 true (by decide))

end Xlfn.Distribution
