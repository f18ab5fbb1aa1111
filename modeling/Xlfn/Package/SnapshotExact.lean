import Xlfn.Package.SnapshotCapture

/-!
# Xlfn — directory snapshots are exact

The second walk accepts the tree of a snapshot, and a tree that it accepts has the entries of the
snapshot: both follow the snapshot, entry by entry, and the listing of a directory leaves no
entry over.
-/

namespace Xlfn.Package

open Xlfn.Lib List

variable {I : Type} [DecidableEq I]

-- ---- Verification accepts the tree.

@[simp] theorem verifyEntry_file (host : Host) (source : Bool) (path : List Name)
    (node : Option (Node I)) (name : Name) (identity : I) (bytes : List UInt8) :
    verifyEntry host source path node (.file name identity bytes) =
      verifyFile host source (path ++ [name]) (host.child node name) identity bytes := rfl

@[simp] theorem verifyEntry_directory (host : Host) (source : Bool) (path : List Name)
    (node : Option (Node I)) (name : Name) (contents : PreparedContents I) :
    verifyEntry host source path node (.directory name contents) =
      verifyContents host source (path ++ [name]) (host.child node name) contents := rfl

@[simp] theorem verifyEntries_nil (host : Host) (source : Bool) (path : List Name)
    (node : Option (Node I)) : verifyEntries host source path node [] = .ok () := rfl

theorem verifyEntries_cons (host : Host) (source : Bool) (path : List Name)
    (node : Option (Node I)) (entry : PreparedDirectoryEntry I)
    (rest : List (PreparedDirectoryEntry I)) :
    verifyEntries host source path node (entry :: rest) = (do
      verifyEntry host source path node entry
      verifyEntries host source path node rest) := rfl

mutual

/-- **The second walk accepts the tree of the snapshot.** -/
theorem verifyContents_taken (host : Host) (source : Bool) :
    (contents : PreparedContents I) → (path : List Name) → (node : Option (Node I)) →
      TakenContents host node contents → verifyContents host source path node contents = .ok ()
  | ⟨identity, taken, expectedNames⟩, path, node, h => by
    unfold TakenContents at h
    obtain ⟨entries, names, rfl, hread, rfl, htaken⟩ := h
    have hentries := verifyEntries_taken host source taken path _ _ htaken
    unfold verifyContents
    rw [inspectDirectoryIdentity_eq (hread path)]
    simp only [bind, Except.bind, ne_eq, not_true_eq_false, if_false, ensureExactEntrySet,
      hentries, ensureDirectoryIdentity_self]

theorem verifyEntries_taken (host : Host) (source : Bool) :
    (taken : List (PreparedDirectoryEntry I)) → (path : List Name) → (node : Option (Node I)) →
      (names : List (Name × Name)) → TakenEntries host node names taken →
      verifyEntries host source path node taken = .ok ()
  | [], _, _, _, _ => rfl
  | entry :: taken, path, node, names, h => by
    unfold TakenEntries at h
    obtain ⟨name, rest, -, hentry, hrest⟩ := h
    rw [verifyEntries_cons, verifyEntry_taken host source entry path node name.2 hentry]
    exact verifyEntries_taken host source taken path node rest hrest

theorem verifyEntry_taken (host : Host) (source : Bool) :
    (entry : PreparedDirectoryEntry I) → (path : List Name) → (node : Option (Node I)) →
      (name : Name) → TakenEntry host node name entry →
      verifyEntry host source path node entry = .ok ()
  | .file _ identity bytes, path, node, name, h => by
    unfold TakenEntry at h
    obtain ⟨rfl, hchild⟩ := h
    rw [verifyEntry_file, hchild]
    exact verifyFile_self host source _ identity bytes
  | .directory _ contents, path, node, name, h => by
    unfold TakenEntry at h
    obtain ⟨rfl, hcontents⟩ := h
    rw [verifyEntry_directory]
    exact verifyContents_taken host source contents _ _ hcontents

end

-- ---- What verification accepts.

variable {expectedNames : List Name}

theorem verifyContents_ok {host : Host} {source : Bool} {path : List Name}
    {node : Option (Node I)} {expectedIdentity : I} {taken : List (PreparedDirectoryEntry I)}
    (h : verifyContents host source path node ⟨expectedIdentity, taken, expectedNames⟩ = .ok ()) :
    ∃ entries names, node = some (.directory expectedIdentity entries) ∧ Listing entries names ∧
      names.keys = expectedNames ∧ verifyEntries host source path node taken = .ok () := by
  unfold verifyContents at h
  cases hinspect : inspectDirectoryIdentity host path node maxPreparedEntries with
  | error e =>
    rw [hinspect] at h
    cases h
  | ok inspected =>
    obtain ⟨identity, names⟩ := inspected
    obtain ⟨entries, hnode, hread⟩ := inspectDirectoryIdentity_ok hinspect
    rw [hinspect] at h
    simp only [bind, Except.bind] at h
    split at h
    · cases h
    rename_i hidentity
    rw [not_not.mp hidentity] at hnode
    unfold ensureExactEntrySet at h
    by_cases hkeys : names.keys = expectedNames
    · rw [if_neg (not_not.mpr hkeys)] at h
      dsimp only at h
      cases hverify : verifyEntries host source path node taken with
      | error e =>
        rw [hverify] at h
        cases h
      | ok _ => exact ⟨entries, names, hnode, readEntries_ok hread, hkeys, rfl⟩
    · rw [if_pos hkeys] at h
      cases h

section Same

variable {host : Host} {spelled : Name → Name → Prop}

mutual

/-- **What the second walk accepts has the contents of the snapshot**: the names are in any
relation that the host's resolution gives. -/
theorem same_of_verifyContents
    (hspelled : ∀ actual name, host.same actual name = true → ValidName actual →
      ValidName name → spelled actual name) (source : Bool) :
    (contents : PreparedContents I) → (origin : Option (Node I)) → (path : List Name) →
      (node : Option (Node I)) → TakenContents host origin contents →
      verifyContents host source path node contents = .ok () →
      ∃ tree, node = some tree ∧ SameContents spelled contents tree
  | ⟨identity, taken, expectedNames⟩, origin, path, node, htaken, hverify => by
    unfold TakenContents at htaken
    obtain ⟨_, names, rfl, hread, rfl, htaken⟩ := htaken
    have horigin := readEntries_ok (hread [])
    obtain ⟨entries, actualNames, rfl, hlisting, hkeys, hverify⟩ := verifyContents_ok hverify
    obtain ⟨paired, hpairs, hmem, hpaired⟩ := same_of_verifyEntries hspelled source taken _ _ path
      hlisting htaken (fun name hname => horigin.key_eq hname) hverify
    -- The keys of the pairs are all the keys of the directory, so no entry is left over.
    have hpairedKeys : (paired.map entryKey).Perm (entries.map entryKey) := by
      rw [hpaired, ← EntryNames.keys, ← hkeys]
      exact hlisting.keys_perm
    have hnodup : paired.Nodup :=
      List.Nodup.of_map entryKey (hpairedKeys.nodup_iff.mpr hlisting.nodup)
    have hlength : entries.length = paired.length := by
      have h := hpairedKeys.length_eq
      rw [length_map, length_map] at h
      exact h.symm
    have hperm : paired.Perm entries :=
      (subperm_of_subset hnodup hmem).perm_of_length_le hlength.le
    exact ⟨_, rfl, identity, entries, paired, rfl, hperm, hpairs⟩

theorem same_of_verifyEntries
    (hspelled : ∀ actual name, host.same actual name = true → ValidName actual →
      ValidName name → spelled actual name) (source : Bool) :
    (taken : List (PreparedDirectoryEntry I)) → (origin : Option (Node I)) →
      (names : List (Name × Name)) → (path : List Name) → {identity : I} →
      {entries : List (Option Name × Node I)} → {actualNames : EntryNames} →
      Listing entries actualNames → TakenEntries host origin names taken →
      (∀ name ∈ names, name.1 = toAsciiLowercase name.2 ∧ ValidName name.2) →
      verifyEntries host source path (some (.directory identity entries)) taken = .ok () →
      ∃ paired, Forall₂ (Matches spelled) taken paired ∧ (∀ entry ∈ paired, entry ∈ entries) ∧
        paired.map entryKey = names.map (·.1)
  | [], origin, names, path, _, entries, _, _, htaken, _, _ => by
    unfold TakenEntries at htaken
    subst htaken
    exact ⟨[], .nil, by simp, rfl⟩
  | first :: taken, origin, names, path, identity, entries, _, hlisting, htaken, hnames,
      hverify => by
    unfold TakenEntries at htaken
    obtain ⟨name, rest, rfl, hfirst, htaken⟩ := htaken
    obtain ⟨hkey, hvalid⟩ := hnames name mem_cons_self
    rw [verifyEntries_cons] at hverify
    cases hentry : verifyEntry host source path (some (.directory identity entries)) first with
    | error e =>
      rw [hentry] at hverify
      cases hverify
    | ok _ =>
      rw [hentry] at hverify
      obtain ⟨entry, hmem, hmatch, hentryKey⟩ := same_of_verifyEntry hspelled source first origin
        name.2 path hlisting hfirst hvalid hentry
      obtain ⟨paired, hpairs, hpairedMem, hpaired⟩ := same_of_verifyEntries hspelled source taken
        origin rest path hlisting htaken
        (fun other hother => hnames other (mem_cons_of_mem _ hother)) hverify
      refine ⟨entry :: paired, .cons hmatch hpairs, ?_, ?_⟩
      · intro other hother
        rcases mem_cons.mp hother with rfl | hother
        · exact hmem
        · exact hpairedMem other hother
      · rw [map_cons, map_cons, hpaired, hentryKey, hkey]

theorem same_of_verifyEntry
    (hspelled : ∀ actual name, host.same actual name = true → ValidName actual →
      ValidName name → spelled actual name) (source : Bool) :
    (first : PreparedDirectoryEntry I) → (origin : Option (Node I)) → (name : Name) →
      (path : List Name) → {identity : I} → {entries : List (Option Name × Node I)} →
      {actualNames : EntryNames} → Listing entries actualNames →
      TakenEntry host origin name first → ValidName name →
      verifyEntry host source path (some (.directory identity entries)) first = .ok () →
      ∃ entry ∈ entries, Matches spelled first entry ∧ entryKey entry = toAsciiLowercase name
  | .file _ _ bytes, origin, name, path, identity, entries, _, hlisting, htaken, hvalid,
      hverify => by
    unfold TakenEntry at htaken
    obtain ⟨rfl, -⟩ := htaken
    rw [verifyEntry_file] at hverify
    obtain ⟨found, hchild⟩ := exists_of_verifyFile hverify
    obtain ⟨actual, hmem, hsame⟩ := exists_of_child hchild
    have hactual : ValidName actual := (hlisting.named _ hmem).2
    exact ⟨_, hmem, .file (hspelled _ _ hsame hactual hvalid),
      host.same_valid _ _ hsame hactual hvalid⟩
  | .directory _ contents, origin, name, path, identity, entries, _, hlisting, htaken, hvalid,
      hverify => by
    unfold TakenEntry at htaken
    obtain ⟨rfl, hcontents⟩ := htaken
    rw [verifyEntry_directory] at hverify
    obtain ⟨tree, hchild, found, below, paired, rfl, hperm, hpairs⟩ :=
      same_of_verifyContents hspelled source contents _ _ _ hcontents hverify
    obtain ⟨actual, hmem, hsame⟩ := exists_of_child hchild
    have hactual : ValidName actual := (hlisting.named _ hmem).2
    exact ⟨_, hmem, .directory (hspelled _ _ hsame hactual hvalid) hperm hpairs,
      host.same_valid _ _ hsame hactual hvalid⟩

end

end Same

-- ---- A whole commit.

theorem EntryNames.keys_ext {a b : EntryNames} (h : ∀ key, key ∈ a.keys ↔ key ∈ b.keys) :
    a.keys = b.keys := by
  have hsorted (names : EntryNames) : names.keys.Pairwise (· < ·) := by
    rw [EntryNames.keys, pairwise_map]
    exact names.sorted
  have hperm : a.keys.Perm b.keys := (perm_ext_iff_of_nodup a.nodup_keys b.nodup_keys).mpr h
  exact hperm.eq_of_pairwise (fun _ _ _ _ hab hba => absurd hba (lt_asymm hab)) (hsorted a)
    (hsorted b)

theorem expectedNameSet_keys (hvalid : ∀ name ∈ expectedNames, ValidName name) :
    ∃ names, expectedNameSet expectedNames = .ok names ∧
      ∀ key, key ∈ names.keys ↔ key ∈ expectedNames.map toAsciiLowercase := by
  induction expectedNames with
  | nil => exact ⟨_, rfl, fun key => by simp [EntryNames.keys, OrderedTable.empty]⟩
  | cons name rest ih =>
    obtain ⟨names, hnames, hkeys⟩ := ih fun other h => hvalid other (mem_cons_of_mem _ h)
    refine ⟨names.insert (toAsciiLowercase name) name, ?_, fun key => ?_⟩
    · unfold expectedNameSet
      rw [windowsNameKey_of_valid (hvalid name mem_cons_self), hnames]
      rfl
    · rw [EntryNames.keys, OrderedTable.mem_keys_insert, ← EntryNames.keys, hkeys, map_cons,
        mem_cons]

/-- Names with one key. -/
def SameKey (actual name : Name) : Prop := toAsciiLowercase actual = toAsciiLowercase name

/-- The names that a caller expects are those at the top of the tree. -/
structure ExpectedNames (tree : Node I) (expectedNames : List Name) : Prop where
  valid : ∀ name ∈ expectedNames, ValidName name
  exact : ∀ identity entries, tree = .directory identity entries →
    ∀ key, key ∈ entries.map entryKey ↔ key ∈ expectedNames.map toAsciiLowercase

theorem prepare_spec {host : Host} {tree : Node I} {shared : SharedArtifacts}
    {prepared : PreparedContents I} {budget : PreparedBudget}
    (h : prepare host tree expectedNames shared = .ok (prepared, budget)) :
    Prepared host (some tree) prepared .default budget := by
  unfold prepare at h
  cases hset : expectedNameSet expectedNames with
  | error e =>
    rw [hset] at h
    cases h
  | ok expected =>
    rw [hset] at h
    simp only [bind, Except.bind] at h
    refine prepareNames_spec (prepareDirectoryContents_spec host shared tree.depth) ?_
      ⟨Nat.zero_le _, Nat.zero_le _⟩ h
    intro names keys hkeys
    unfold ensureExactEntrySet at hkeys
    by_cases hequal : names.keys = expected.keys
    · rw [if_neg (not_not.mpr hequal)] at hkeys
      cases hkeys
      exact hequal.symm
    · rw [if_pos hequal] at hkeys
      cases hkeys

theorem exists_prepare (host : Host) (shared : SharedArtifacts) {tree : Node I}
    (hportable : Portable tree) (hdirectory : 0 < tree.depth)
    (hexpected : ExpectedNames tree expectedNames)
    (hentries : tree.entryCount ≤ maxPreparedEntries) (hbytes : tree.byteCount ≤ maxPreparedBytes) :
    ∃ prepared budget, prepare host tree expectedNames shared = .ok (prepared, budget) := by
  cases tree with
  | directory identity entries =>
    obtain ⟨names, hset, hkeys⟩ := expectedNameSet_keys hexpected.valid
    have hkeysOk : ∀ actual, Listing entries actual → ∃ keys,
        (do
          ensureExactEntrySet actual names.keys []
          Except.ok names.keys) = Except.ok keys := by
      intro actual hlisting
      have hsame : actual.keys = names.keys := by
        refine EntryNames.keys_ext fun key => ?_
        rw [hlisting.keys_perm.mem_iff, hexpected.exact identity entries rfl key, hkeys]
      refine ⟨names.keys, ?_⟩
      unfold ensureExactEntrySet
      rw [if_neg (not_not.mpr hsame)]
      rfl
    have hroom : PreparedBudget.default.Room (Node.directory identity entries).entryCount
        (Node.directory identity entries).byteCount :=
      ⟨(Nat.zero_add _).le.trans hentries, (Nat.zero_add _).le.trans hbytes⟩
    have hdepth : depthOfEntries entries ≤ (Node.directory identity entries).depth := by
      rw [Node.depth]
      omega
    obtain ⟨⟨prepared, budget⟩, hresult⟩ :=
      exists_prepareNames shared (prepareDirectoryContents_spec host shared _)
        (exists_prepareDirectoryContents host shared (Node.directory identity entries).depth) []
        hportable hkeysOk hdepth hroom
    unfold prepare
    rw [hset]
    exact ⟨prepared, budget, hresult⟩
  | file identity bytes | link | other => exact absurd hdirectory (Nat.lt_irrefl 0)

/-- **Directory snapshots are exact.** Every portable tree within the entry and byte budgets is
captured. A captured tree is within them, and nested no deeper than it has entries; verification
accepts it, of its source or of its destination. Whatever tree verification accepts has exactly
the entries of the snapshot at every level, their kinds and their bytes, under names with the same
keys, and under the same names where the host tells all names apart. -/
theorem directory_snapshot_exact (host : Host) :
    (∀ (tree : Node I) (expectedNames : List Name) (shared : SharedArtifacts),
      Portable tree → 0 < tree.depth → ExpectedNames tree expectedNames →
      tree.entryCount ≤ maxPreparedEntries → tree.byteCount ≤ maxPreparedBytes →
      ∃ prepared budget, prepare host tree expectedNames shared = .ok (prepared, budget)) ∧
    ∀ (tree : Node I) (expectedNames : List Name) (shared : SharedArtifacts)
      (prepared : PreparedContents I) (budget : PreparedBudget),
      prepare host tree expectedNames shared = .ok (prepared, budget) →
      (budget.entries = tree.entryCount ∧ budget.entries ≤ maxPreparedEntries ∧
        budget.bytes = tree.byteCount ∧ budget.bytes ≤ maxPreparedBytes ∧
        tree.depth ≤ budget.entries + 1) ∧
      (∀ source, verifyPreparedDirectory host prepared tree source = .ok ()) ∧
      ∀ (found : Node I) (source : Bool),
        verifyPreparedDirectory host prepared found source = .ok () →
        SameContents SameKey prepared found ∧
        ((∀ actual name, host.same actual name = true → actual = name) →
          SameContents Eq prepared found) := by
  refine ⟨fun tree expectedNames shared => exists_prepare host shared, ?_⟩
  intro tree expectedNames shared prepared budget h
  obtain ⟨htaken, ⟨_, htree, -, hcounts⟩, hwithin⟩ := prepare_spec h
  cases htree
  have hentries : budget.entries = tree.entryCount := by
    rw [hcounts]
    exact Nat.zero_add _
  have hbytes : budget.bytes = tree.byteCount := by
    rw [hcounts]
    exact Nat.zero_add _
  refine ⟨⟨hentries, hwithin.entries, hbytes, hwithin.bytes, ?_⟩, ?_, ?_⟩
  · rw [hentries]
    exact depth_le_entryCount tree
  · intro source
    exact verifyContents_taken host source prepared [] (some tree) htaken
  · intro found source hverify
    constructor
    · obtain ⟨_, hfound, hsame⟩ :=
        same_of_verifyContents host.same_valid source prepared _ [] _ htaken hverify
      cases hfound
      exact hsame
    · intro hexact
      obtain ⟨_, hfound, hsame⟩ := same_of_verifyContents
        (fun actual name hname _ _ => hexact actual name hname) source prepared _ [] _ htaken
        hverify
      cases hfound
      exact hsame

/-- A host that resolves names without regard to case. -/
def caseFolding : Host where
  same       := fun actual requested => toAsciiLowercase actual == toAsciiLowercase requested
  reads      := fun _ => bufferSize
  unix       := false
  usizeMax   := 2 ^ 64 - 1
  same_refl  := fun _ => beq_self_eq_true _
  same_valid := fun _ _ h _ _ => beq_iff_eq.mp h
  wide       := by decide

/-- A directory with one file. -/
def oneFile (name : Name) : Node Nat := .directory 1 [(some name, .file 2 [0x5a])]

/-- **Names are compared by their keys.** A file whose name changes its case only is the same
file to a host that folds case, and verification accepts the tree. -/
theorem case_only_rename_verifies :
    ¬∀ (host : Host) (tree found : Node Nat) (expectedNames : List Name)
      (shared : SharedArtifacts) (prepared : PreparedContents Nat) (budget : PreparedBudget)
      (source : Bool), prepare host tree expectedNames shared = .ok (prepared, budget) →
      verifyPreparedDirectory host prepared found source = .ok () →
      SameContents Eq prepared found := by
  intro h
  have hsame := h caseFolding (oneFile ['a']) (oneFile ['A']) [['a']] (fun _ => none)
    ⟨1, [.file ['a'] 2 [0x5a]], [['a']]⟩ ⟨1, 1⟩ true rfl rfl
  obtain ⟨_, _, paired, hnode, hperm, hpairs⟩ := hsame
  cases hnode
  rw [perm_singleton.mp hperm] at hpairs
  cases hpairs with
  | cons hmatch _ =>
    cases hmatch with
    | file hname => cases hname

end Xlfn.Package
