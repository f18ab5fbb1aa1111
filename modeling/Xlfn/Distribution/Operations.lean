import Xlfn.Distribution.Frames

/-!
# Xlfn — what an operation on files tells

What is known after an operation that succeeded, and that a failed rename changed nothing. The
files after an operation that only reads are those before it, so that what a check found still
holds in the next step.
-/

namespace Xlfn.Distribution

open Xlfn.Lib.Act
open Xlfn.Lib (Act PathTree)
open Xlfn.Package (Name)

variable {I α : Type}

-- ---- Identities.

/-- The identity of a directory. -/
def Entry.identity : Entry I → Option I
  | .file _ => none
  | .directory identity _ => some identity

/-- What is at a path: nothing, a file, or the directory with an identity. -/
def identityAt (files : PathTree Name (Entry I)) (path : Path) : Option (Option I) :=
  (files.lookup path).map Entry.identity

theorem identityAt_congr {files files' : PathTree Name (Entry I)} {path path' : Path}
    (h : files'.lookup path' = files.lookup path) :
    identityAt files' path' = identityAt files path := by
  unfold identityAt
  rw [h]

theorem identityAt_of_lookup {files : PathTree Name (Entry I)} {path : Path} {identity : I}
    {isPrivate : Bool} (h : files.lookup path = some (.directory identity isPrivate)) :
    identityAt files path = some (some identity) := by
  unfold identityAt
  rw [h]
  rfl

-- ---- Primitives.

/-- The world after an answer. -/
def World.next (world : World I) : World I :=
  { world with answers := fun n => world.answers (n + 1) }

@[simp] theorem World.next_files (world : World I) : world.next.files = world.files := rfl

@[simp] theorem World.withFiles_files (world : World I) (files : PathTree Name (Entry I)) :
    (world.withFiles files).files = files := rfl

section

variable {Q : Post (World I) DistributionError α} {s : World I} {path source target : Path}

theorem wp_ask {Q : Post (World I) DistributionError (Answer I)} :
    wp ask Q s = Q.ok (s.answers 0) s.next := rfl

theorem wp_lookup {Q : Post (World I) DistributionError (Option (Entry I))} :
    wp (lookup path) Q s = Q.ok (s.files.lookup path) s := rfl

theorem wp_check {Q : Post (World I) DistributionError Unit} {error : DistributionError} :
    wp (check error) Q s =
      if (s.answers 0).fails then Q.error error s.next else Q.ok () s.next := by
  unfold check
  simp only [wp_bind, wp_ask, wp_ite, wp_fail, wp_pure]

theorem check_bind {error : DistributionError} {f : Unit → Run I α} (herror : Q.error error s.next)
    (hf : wp (f ()) Q s.next) : wp (check error >>= f) Q s := by
  rw [wp_bind, wp_check]
  split
  · exact herror
  · exact hf

theorem ReadOnly.bind {β : Type} {m : Run I β} {f : β → Run I α} (hm : ReadOnly m)
    (herror : ∀ e t, t.files = s.files → Q.error e t)
    (hf : ∀ a t, t.files = s.files → wp (f a) Q t) : wp (m >>= f) Q s :=
  bind_spec (hm.ends s) hf herror

theorem required_spec {β : Type} (value : Option β) (text : String) (s : World I) :
    wp (required value text) ⟨fun a t => value = some a ∧ t = s, fun _ t => t = s⟩ s := by
  cases value with
  | none => exact rfl
  | some a => exact ⟨rfl, rfl⟩

end

-- ---- Checks.

section

variable {s : World I} {path : Path}

/-- A directory is identified only where there is one. -/
theorem directoryIdentity_spec (path : Path) (s : World I) : wp (directoryIdentity path)
      ⟨fun identity t => identityAt s.files path = some (some identity) ∧ t.files = s.files,
        fun _ t => t.files = s.files⟩ s := by
  refine check_bind rfl ?_
  rw [wp_bind, wp_lookup]
  simp only [World.next_files]
  cases hfound : s.files.lookup path with
  | none => exact rfl
  | some entry =>
    cases entry with
    | file journal => exact rfl
    | directory identity isPrivate => exact ⟨identityAt_of_lookup hfound, rfl⟩

theorem optionalDirectoryIdentity_spec (path : Path) (s : World I) :
    wp (optionalDirectoryIdentity path)
      ⟨fun found t => identityAt s.files path = found.map some ∧ t.files = s.files,
        fun _ t => t.files = s.files⟩ s := by
  unfold optionalDirectoryIdentity symlinkMetadata
  rw [wp_bind]
  refine check_bind rfl ?_
  rw [wp_lookup]
  simp only [World.next_files]
  cases hfound : s.files.lookup path with
  | none => exact ⟨by unfold identityAt; rw [hfound]; rfl, rfl⟩
  | some entry =>
    rw [wp_bind]
    exact wp_mono (directoryIdentity_spec path s.next) (fun identity t h => h) fun e t h => h

theorem requireDirectoryIdentity_spec [DecidableEq I] (path : Path) (expected : I) (label : String)
    (s : World I) :
    wp (requireDirectoryIdentity path expected label)
      ⟨fun _ t => identityAt s.files path = some (some expected) ∧ t.files = s.files,
        fun _ t => t.files = s.files⟩ s := by
  unfold requireDirectoryIdentity
  rw [wp_bind]
  refine wp_mono (directoryIdentity_spec path s) (fun actual t h => ?_) fun e t h => h
  simp only [wp_ite]
  split
  · exact h.2
  next hactual =>
    rw [not_not.mp hactual] at h
    exact h

-- ---- Moves.

/-- A rename moves what is at its source. -/
theorem rename_spec (source target : Path) (s : World I) : wp (rename source target)
      ⟨fun _ t => t.files.lookup target = s.files.lookup source,
        fun _ t => t.files = s.files⟩ s := by
  refine check_bind rfl ?_
  simp only [wp_bind, wp_get, wp_ite]
  split
  next h =>
    obtain ⟨hsource, hbelow, -, hreplaceable⟩ := h
    have habove : ¬target <+: source := by
      intro h
      obtain ⟨entry, hentry⟩ := Option.isSome_iff_exists.mp hsource
      have hall := List.all_eq_true.mp (Bool.and_eq_true_iff.mp hreplaceable).1 _
        (PathTree.mem_of_lookup hentry)
      simp only [h, decide_true, Bool.not_true, Bool.false_or, decide_eq_true_eq] at hall
      exact hbelow (hall ▸ List.prefix_rfl)
    have hmoved : ((s.files.removeTree target).moveTree source target).lookup (target ++ []) = _ :=
      PathTree.lookup_moveTree_new (PathTree.vacant_removeTree s.files target) []
    rw [List.append_nil, List.append_nil, PathTree.lookup_removeTree, if_neg habove] at hmoved
    exact hmoved
  next => exact rfl

theorem removeDirAll_spec (path : Path) (s : World I) : wp (removeDirAll path)
      ⟨fun _ t => t.files = s.files.removeTree path, fun _ _ => True⟩ s := by
  unfold removeDirAll
  simp only [wp_bind, wp_ask, wp_get, wp_ite]
  split
  · exact True.intro
  · split
    · exact rfl
    · exact True.intro

/-- **After a removal** nothing is there. -/
theorem removeInstalledDistribution_spec [DecidableEq I] (path : Path)
    (journal : TransactionJournal I) (s : World I) :
    wp (removeInstalledDistribution path journal)
      ⟨fun _ t => t.files.lookup path = none, fun _ _ => True⟩ s := by
  unfold removeInstalledDistribution
  rw [wp_bind]
  refine wp_mono (optionalDirectoryIdentity_spec path s) (fun found t h => ?_)
    fun _ _ _ => True.intro
  cases found with
  | none =>
    refine Option.map_eq_none_iff.mp (?_ : identityAt t.files path = none)
    rw [h.2]
    exact h.1
  | some identity =>
    refine (ReadOnly.required _ _).bind (fun _ _ _ => True.intro) fun expected t _ => ?_
    refine (ReadOnly.requireDirectoryIdentity _ _ _).bind (fun _ _ _ => True.intro) fun _ t _ => ?_
    rw [wp_bind]
    refine wp_mono (removeDirAll_spec path t) (fun _ u hu => ?_) fun _ _ _ => True.intro
    refine wp_of_moves (ReadOnly.syncDirectory _) (fun _ v hv => ?_) fun _ _ _ => True.intro
    show v.files.lookup path = none
    rw [show v.files = u.files from hv, hu, PathTree.lookup_removeTree, if_pos List.prefix_rfl]

-- ---- Journals.

/-- A journal in its next state. -/
def TransactionJournal.advanced (journal : TransactionJournal I) (state : TransactionState) :
    TransactionJournal I :=
  { journal with state := state, sequence := journal.sequence + 1 }

theorem writeTransactionState_spec (parent transaction : Path) (journal : TransactionJournal I)
    (state : TransactionState) (s : World I) :
    wp (writeTransactionState parent transaction journal state)
      ⟨fun written _ => written = journal.advanced state, fun _ _ => True⟩ s := by
  unfold writeTransactionState
  rw [wp_ite]
  split
  · exact True.intro
  · refine wp_rest (fun _ _ => True.intro) fun _ t => ?_
    refine wp_rest (fun _ _ => True.intro) fun _ t => ?_
    refine wp_rest (fun _ _ => True.intro) fun world t => ?_
    rw [wp_ite]
    split
    · exact True.intro
    · iterate 8 refine wp_rest (fun _ _ => True.intro) fun _ t => ?_
      exact rfl

end

end Xlfn.Distribution
