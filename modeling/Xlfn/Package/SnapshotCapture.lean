import Xlfn.Package.SnapshotReads

/-!
# Xlfn — taking a directory snapshot

`Taken` is the relation between a tree and the snapshot that the first walk makes of it, name by
name in the order of the listings.
-/

namespace Xlfn.Package

open Xlfn.Lib List Node PreparedBudget

variable {I : Type}

-- ---- What a snapshot is taken from.

mutual

/-- The snapshot of what is behind a node. -/
def TakenContents (host : Host) (node : Option (Node I)) : PreparedContents I → Prop
  | ⟨identity, taken, expectedNames⟩ =>
    ∃ entries names, node = some (.directory identity entries) ∧
      (∀ path, readEntries path maxPreparedEntries OrderedTable.empty entries = .ok names) ∧
      expectedNames = names.keys ∧ TakenEntries host node names.entries taken
termination_by structural contents => contents

/-- The snapshots of the names of a directory, in their order. -/
def TakenEntries (host : Host) (node : Option (Node I)) (names : List (Name × Name)) :
    List (PreparedDirectoryEntry I) → Prop
  | [] => names = []
  | entry :: taken => ∃ name rest, names = name :: rest ∧ TakenEntry host node name.2 entry ∧
      TakenEntries host node rest taken
termination_by structural taken => taken

def TakenEntry (host : Host) (node : Option (Node I)) (name : Name) :
    PreparedDirectoryEntry I → Prop
  | .file taken identity bytes =>
    taken = name ∧ host.child node name = some (.file identity bytes)
  | .directory taken contents =>
    taken = name ∧ TakenContents host (host.child node name) contents
termination_by structural entry => entry

end

-- ---- Sizes.

mutual

/-- The sum of a weight over all nodes below a node. -/
def Node.total (weight : Node I → Nat) : Node I → Nat
  | .directory _ entries => totalOfEntries weight entries
  | .file .. => 0
  | .link => 0
  | .other => 0
termination_by structural node => node

def totalOfEntries (weight : Node I → Nat) : List (Option Name × Node I) → Nat
  | [] => 0
  | entry :: rest => totalOfEntry weight entry + totalOfEntries weight rest
termination_by structural entries => entries

def totalOfEntry (weight : Node I → Nat) : Option Name × Node I → Nat
  | (_, node) => weight node + node.total weight
termination_by structural entry => entry

end

/-- The number of entries at all levels. -/
def Node.entryCount (node : Node I) : Nat := node.total fun _ => 1

def Node.fileLength : Node I → Nat
  | .file _ bytes => bytes.length
  | _ => 0

/-- The number of bytes in the files at all levels. -/
def Node.byteCount (node : Node I) : Nat := node.total Node.fileLength

theorem totalOfEntries_eq (weight : Node I → Nat) (entries : List (Option Name × Node I)) :
    totalOfEntries weight entries =
      (entries.map fun entry => weight entry.2 + entry.2.total weight).sum := by
  induction entries with
  | nil => rfl
  | cons entry rest ih =>
    obtain ⟨name, node⟩ := entry
    rw [totalOfEntries, ih, map_cons, sum_cons, totalOfEntry]

theorem length_le_totalOfEntries (entries : List (Option Name × Node I)) :
    entries.length ≤ totalOfEntries (fun _ => 1) entries := by
  induction entries with
  | nil => exact Nat.le_refl 0
  | cons entry rest ih =>
    obtain ⟨name, node⟩ := entry
    rw [length_cons, totalOfEntries, totalOfEntry]
    omega

variable {entries : List (Option Name × Node I)} {host : Host} {path : List Name}
  {budget budget' : PreparedBudget} {shared : SharedArtifacts} {readContents : ReadContents I}
  {directory : Option (Node I)}

theorem depthOfEntries_le {entry : Option Name × Node I} (h : entry ∈ entries) :
    entry.2.depth ≤ depthOfEntries entries := by
  induction entries with
  | nil => cases h
  | cons first rest ih =>
    obtain ⟨name, node⟩ := first
    rw [depthOfEntries, depthOfEntry]
    rcases mem_cons.mp h with rfl | h
    · exact Nat.le_max_left _ _
    · exact Nat.le_trans (ih h) (Nat.le_max_right _ _)

mutual

/-- **The entry budget bounds the nesting.** -/
theorem depth_le_entryCount : (node : Node I) → node.depth ≤ node.entryCount + 1
  | .directory _ entries => by
    have h := depthOfEntries_le_total entries
    rw [Node.depth, entryCount, total]
    omega
  | .file .. => Nat.zero_le _
  | .link => Nat.zero_le _
  | .other => Nat.zero_le _

theorem depthOfEntries_le_total : (entries : List (Option Name × Node I)) →
    depthOfEntries entries ≤ totalOfEntries (fun _ => 1) entries
  | [] => Nat.le_refl 0
  | (name, node) :: rest => by
    have hnode := depth_le_entryCount node
    have hrest := depthOfEntries_le_total rest
    rw [entryCount] at hnode
    rw [depthOfEntries, depthOfEntry, totalOfEntries, totalOfEntry]
    omega

end

variable [DecidableEq I]

-- ---- The first walk.

/-- A budget that is not exhausted. -/
structure PreparedBudget.Within (budget : PreparedBudget) : Prop where
  entries : budget.entries ≤ maxPreparedEntries
  bytes   : budget.bytes ≤ maxPreparedBytes

/-- What is behind a name counts as an entry, and so does everything below it. -/
def cost (weight : Node I → Nat) (node : Option (Node I)) : Nat :=
  node.elim 0 fun node => weight node + node.total weight

/-- What the first walk gives for a directory. -/
structure Prepared (host : Host) (node : Option (Node I)) (contents : PreparedContents I)
    (budget budget' : PreparedBudget) : Prop where
  taken  : TakenContents host node contents
  counts : ∃ tree, node = some tree ∧ tree.fileLength = 0 ∧
    budget' = ⟨budget.entries + tree.entryCount, budget.bytes + tree.byteCount⟩
  within : budget'.Within

/-- A reading of directories that does so. -/
def Reads (host : Host) (readContents : ReadContents I) : Prop :=
  ∀ path node budget contents budget', budget.Within →
    readContents path node budget = .ok (contents, budget') →
    Prepared host node contents budget budget'

omit [DecidableEq I] in
theorem accountEntry_ok (h : budget.accountEntry host path = .ok budget') :
    budget' = ⟨budget.entries + 1, budget.bytes⟩ ∧ budget.entries + 1 ≤ maxPreparedEntries := by
  unfold accountEntry at h
  split at h
  · cases h
  · split at h
    · cases h
    · cases h
      exact ⟨rfl, by omega⟩

variable {size : Nat}

theorem reserveBytes_ok (h : budget.reserveBytes path size = .ok budget') :
    budget' = ⟨budget.entries, budget.bytes + size⟩ ∧ budget.bytes + size ≤ maxPreparedBytes := by
  unfold reserveBytes at h
  split at h
  · cases h
  · split at h
    · cases h
    · cases h
      exact ⟨rfl, by omega⟩

theorem le_usizeMax (host : Host) (h : size ≤ maxPreparedBytes) : size ≤ host.usizeMax := by
  have hwide := host.wide
  rw [maxPreparedBytes] at h
  omega

omit [DecidableEq I] in
theorem prepareDirectoryEntry_spec (hreads : Reads host readContents) {nameKey name : Name}
    {entry : PreparedDirectoryEntry I} (hbudget : budget.Within)
    (h : prepareDirectoryEntry host shared readContents nameKey name path
      (host.child directory name) budget = .ok (entry, budget')) :
    TakenEntry host directory name entry ∧ budget'.Within ∧
      budget' = ⟨budget.entries + cost (fun _ => 1) (host.child directory name),
        budget.bytes + cost fileLength (host.child directory name)⟩ := by
  unfold prepareDirectoryEntry at h
  cases hcount : budget.accountEntry host path with
  | error e =>
    rw [hcount] at h
    cases h
  | ok counted =>
    rw [hcount] at h
    obtain ⟨rfl, hentries⟩ := accountEntry_ok hcount
    simp only [bind, Except.bind] at h
    cases hchild : host.child directory name with
    | none =>
      rw [hchild] at h
      cases h
    | some node =>
      rw [hchild] at h
      cases node with
      | file identity bytes =>
        simp only [Host.openNoFollow] at h
        cases hreserve : reserveBytes ⟨budget.entries + 1, budget.bytes⟩ path
            bytes.length with
        | error e =>
          rw [hreserve] at h
          cases h
        | ok reserved =>
          obtain ⟨rfl, hbytes⟩ := reserveBytes_ok hreserve
          dsimp only at hbytes
          rw [hreserve] at h
          dsimp only at h
          rw [prepareFile_eq host shared path name identity
            (le_usizeMax host (Nat.le_trans (Nat.le_add_left _ _) hbytes))] at h
          cases h
          refine ⟨?_, ⟨hentries, hbytes⟩, rfl⟩
          unfold TakenEntry
          exact ⟨rfl, hchild⟩
      | directory identity entries =>
        simp only [Host.openNoFollow, Bool.or_true, if_true] at h
        cases hread : readContents path (some (.directory identity entries))
            ⟨budget.entries + 1, budget.bytes⟩ with
        | error e =>
          rw [hread] at h
          cases h
        | ok result =>
          obtain ⟨contents, budget''⟩ := result
          rw [hread] at h
          cases h
          obtain ⟨htaken, ⟨tree, htree, -, rfl⟩, hwithin⟩ :=
            hreads _ _ ⟨budget.entries + 1, budget.bytes⟩ _ _ ⟨hentries, hbudget.bytes⟩ hread
          cases htree
          refine ⟨?_, hwithin, ?_⟩
          · unfold TakenEntry
            rw [hchild]
            exact ⟨rfl, htaken⟩
          · simp only [cost, Option.elim_some, fileLength, entryCount, byteCount,
              Nat.zero_add, Nat.add_assoc]
      | link =>
        simp only [Host.openNoFollow] at h
        cases hunix : host.unix with
        | true | false =>
          rw [hunix] at h
          cases h
      | other =>
        simp only [Host.openNoFollow] at h
        cases h

omit [DecidableEq I] in
theorem prepareEntries_spec (hreads : Reads host readContents) {names : List (Name × Name)}
    {taken : List (PreparedDirectoryEntry I)} (hbudget : budget.Within)
    (h : prepareEntries host shared readContents path directory names budget =
      .ok (taken, budget')) : TakenEntries host directory names taken ∧ budget'.Within ∧
      budget' =
        ⟨budget.entries +
          (names.map fun name => cost (fun _ => 1) (host.child directory name.2)).sum,
        budget.bytes +
          (names.map fun name => cost fileLength (host.child directory name.2)).sum⟩ := by
  induction names generalizing budget taken with
  | nil =>
    cases h
    refine ⟨?_, hbudget, rfl⟩
    unfold TakenEntries
    rfl
  | cons name rest ih =>
    obtain ⟨nameKey, name⟩ := name
    unfold prepareEntries at h
    cases hentry : prepareDirectoryEntry host shared readContents nameKey name (path ++ [name])
        (host.child directory name) budget with
    | error e =>
      rw [hentry] at h
      cases h
    | ok result =>
      obtain ⟨entry, counted⟩ := result
      obtain ⟨htakenEntry, hcounted, rfl⟩ := prepareDirectoryEntry_spec hreads hbudget hentry
      rw [hentry] at h
      simp only [bind, Except.bind] at h
      cases hrest : prepareEntries host shared readContents path directory rest _ with
      | error e =>
        rw [hrest] at h
        cases h
      | ok result =>
        obtain ⟨entries, counted⟩ := result
        rw [hrest] at h
        cases h
        obtain ⟨htaken, hwithin, rfl⟩ := ih hcounted hrest
        refine ⟨?_, hwithin, ?_⟩
        · unfold TakenEntries
          exact ⟨(nameKey, name), rest, rfl, htakenEntry, htaken⟩
        · simp only [map_cons, sum_cons, Nat.add_assoc]

omit [DecidableEq I] in
theorem Listing.total_eq {identity : I} {names : EntryNames} (h : Listing entries names)
    (weight : Node I → Nat) : (names.entries.map fun name =>
      cost weight (host.child (some (.directory identity entries)) name.2)).sum =
      (Node.directory identity entries).total weight := by
  have hperm := h.perm.map fun name =>
    cost weight (host.child (some (.directory identity entries)) name.2)
  rw [hperm.sum_nat, List.map_map, total, totalOfEntries_eq]
  congr 1
  refine map_congr_left fun entry hentry => ?_
  rw [Function.comp_apply, h.child_of_mem hentry]
  rfl

variable {expected : EntryNames → Except PackageError (List Name)}

/-- **The first walk takes a snapshot and counts the tree**, one level. -/
theorem prepareNames_spec (hreads : Reads host readContents)
    (hexpected : ∀ names keys, expected names = .ok keys → keys = names.keys)
    {node : Option (Node I)} {contents : PreparedContents I} (hbudget : budget.Within)
    (h : prepareNames host shared readContents expected path node budget =
      .ok (contents, budget')) : Prepared host node contents budget budget' := by
  unfold prepareNames at h
  cases hinspect : inspectDirectoryIdentity host path node budget.remainingEntries with
  | error e =>
    rw [hinspect] at h
    cases h
  | ok inspected =>
    obtain ⟨identity, names⟩ := inspected
    obtain ⟨entries, rfl, hread⟩ := inspectDirectoryIdentity_ok hinspect
    rw [hinspect] at h
    simp only [bind, Except.bind] at h
    cases hkeys : expected names with
    | error e =>
      rw [hkeys] at h
      cases h
    | ok keys =>
      have hkeysEq := hexpected names keys hkeys
      rw [hkeys] at h
      dsimp only at h
      split at h
      · cases h
      cases hentries : prepareEntries host shared readContents path
          (some (.directory identity entries)) names.entries budget with
      | error e =>
        rw [hentries] at h
        cases h
      | ok result =>
        obtain ⟨taken, counted⟩ := result
        rw [hentries] at h
        dsimp only at h
        rw [ensureDirectoryIdentity_self] at h
        cases h
        obtain ⟨htaken, hwithin, rfl⟩ := prepareEntries_spec hreads hbudget hentries
        have hlisting := readEntries_ok hread
        refine ⟨?_, ⟨_, rfl, rfl, ?_⟩, hwithin⟩
        · unfold TakenContents
          exact ⟨entries, names, rfl, fun path' => readEntries_mono (Nat.sub_le _ _) hread,
            hkeysEq, htaken⟩
        · rw [hlisting.total_eq, hlisting.total_eq, entryCount, byteCount]

/-- The first walk takes a snapshot and counts the tree. -/
theorem prepareDirectoryContents_spec (host : Host) (shared : SharedArtifacts) (depth : Nat) :
    Reads (I := I) host (prepareDirectoryContents host shared depth) := by
  induction depth with
  | zero =>
    intro path node budget contents budget' _ h
    cases h
  | succ depth ih =>
    intro path node budget contents budget' hbudget h
    refine prepareNames_spec ih (fun names keys hkeys => ?_) hbudget h
    cases hkeys
    rfl

-- ---- Trees within the budgets.

/-- Files and directories only, with valid names that differ in their keys. -/
inductive Portable : Node I → Prop where
  | file (identity : I) (bytes : List UInt8) : Portable (.file identity bytes)
  | directory (identity : I) (entries : List (Option Name × Node I))
      (hnamed : ∀ entry ∈ entries, entry.1 = some (entryName entry) ∧ ValidName (entryName entry))
      (hnodup : (entries.map entryKey).Nodup) (hbelow : ∀ entry ∈ entries, Portable entry.2) :
      Portable (.directory identity entries)

/-- A budget has room for so much more. -/
structure PreparedBudget.Room (budget : PreparedBudget) (entries bytes : Nat) : Prop where
  entries : budget.entries + entries ≤ maxPreparedEntries
  bytes   : budget.bytes + bytes ≤ maxPreparedBytes

/-- A reading that succeeds on every directory nested at most `depth` deep. -/
def Succeeds (readContents : ReadContents I) (depth : Nat) : Prop :=
  ∀ path identity entries (budget : PreparedBudget), Portable (.directory identity entries) →
    (Node.directory identity entries).depth ≤ depth →
    budget.Room (Node.directory identity entries).entryCount
      (Node.directory identity entries).byteCount →
    ∃ result, readContents path (some (.directory identity entries)) budget = .ok result

omit [DecidableEq I] in
theorem accountEntry_eq (host : Host) (path : List Name)
    (h : budget.entries + 1 ≤ maxPreparedEntries) :
    budget.accountEntry host path = .ok ⟨budget.entries + 1, budget.bytes⟩ := by
  have hwide := host.wide
  unfold accountEntry
  rw [if_neg (by rw [maxPreparedEntries] at h; omega), if_neg (by omega)]

theorem reserveBytes_eq (path : List Name) (h : budget.bytes + size ≤ maxPreparedBytes) :
    budget.reserveBytes path size = .ok ⟨budget.entries, budget.bytes + size⟩ := by
  unfold reserveBytes
  rw [if_neg (by rw [maxPreparedBytes] at h; rw [u64Max]; omega), if_neg (by omega)]

omit [DecidableEq I] in
theorem exists_prepareDirectoryEntry (shared : SharedArtifacts) {depth : Nat}
    (hsucceeds : Succeeds readContents depth) (nameKey name : Name) (path : List Name)
    {node : Node I} (hportable : Portable node) (hdepth : node.depth ≤ depth)
    (hroom : budget.Room (cost (fun _ => 1) (some node)) (cost fileLength (some node))) :
    ∃ result, prepareDirectoryEntry host shared readContents nameKey name path (some node) budget =
      .ok result := by
  obtain ⟨hentries, hbytes⟩ := hroom
  simp only [cost, Option.elim_some] at hentries hbytes
  unfold prepareDirectoryEntry
  rw [accountEntry_eq host path (by omega)]
  simp only [bind, Except.bind]
  cases hportable with
  | file identity bytes =>
    have hsize : budget.bytes + bytes.length ≤ maxPreparedBytes :=
      Nat.le_trans (Nat.le_add_right _ _) (Nat.add_assoc .. ▸ hbytes)
    simp only [Host.openNoFollow]
    have hreserve := reserveBytes_eq path
      (show PreparedBudget.bytes ⟨budget.entries + 1, budget.bytes⟩ + bytes.length ≤
        maxPreparedBytes from hsize)
    rw [hreserve]
    dsimp only
    rw [prepareFile_eq host shared path name identity
      (le_usizeMax host (Nat.le_trans (Nat.le_add_left _ _) hsize))]
    exact ⟨_, rfl⟩
  | directory identity entries hnamed hnodup hbelow =>
    simp only [Host.openNoFollow, Bool.or_true, if_true]
    obtain ⟨result, hresult⟩ := hsucceeds path identity entries ⟨budget.entries + 1, budget.bytes⟩
      (.directory identity entries hnamed hnodup hbelow) hdepth
      ⟨by rw [entryCount, Nat.add_assoc]; exact hentries,
        by rw [byteCount]; simpa [fileLength] using hbytes⟩
    rw [hresult]
    exact ⟨_, rfl⟩

omit [DecidableEq I] in
theorem exists_prepareEntries (shared : SharedArtifacts) {depth : Nat}
    (hreads : Reads host readContents) (hsucceeds : Succeeds readContents depth)
    (path : List Name) {names : List (Name × Name)} (hbudget : budget.Within)
    (hnodes : ∀ name ∈ names, ∃ node, host.child directory name.2 = some node ∧ Portable node ∧
      node.depth ≤ depth) (hroom : budget.Room
      (names.map fun name => cost (fun _ => 1) (host.child directory name.2)).sum
      (names.map fun name => cost fileLength (host.child directory name.2)).sum) :
    ∃ result, prepareEntries host shared readContents path directory names budget = .ok result := by
  induction names generalizing budget with
  | nil => exact ⟨_, rfl⟩
  | cons name rest ih =>
    obtain ⟨nameKey, name⟩ := name
    obtain ⟨node, hchild, hportable, hdepth⟩ := hnodes (nameKey, name) mem_cons_self
    obtain ⟨hentries, hbytes⟩ := hroom
    simp only [map_cons, sum_cons] at hentries hbytes
    have hchild : host.child directory name = some node := hchild
    have hroom : budget.Room (cost (fun _ => 1) (some node)) (cost fileLength (some node)) :=
      ⟨by rw [← hchild]; omega, by rw [← hchild]; omega⟩
    obtain ⟨⟨entry, counted⟩, hentry⟩ := exists_prepareDirectoryEntry shared hsucceeds nameKey name
      (path ++ [name]) hportable hdepth hroom
    rw [← hchild] at hentry
    obtain ⟨-, hwithin, hcounted⟩ := prepareDirectoryEntry_spec hreads hbudget hentry
    obtain ⟨⟨entries, final⟩, hrest⟩ := ih hwithin
      (fun other hother => hnodes other (mem_cons_of_mem _ hother))
      ⟨by rw [hcounted]; dsimp only; omega, by rw [hcounted]; dsimp only; omega⟩
    unfold prepareEntries
    rw [hentry]
    simp only [bind, Except.bind]
    rw [hrest]
    exact ⟨_, rfl⟩

/-- **The first walk succeeds on a tree within the budgets**, one level. -/
theorem exists_prepareNames (shared : SharedArtifacts) {depth : Nat}
    (hreads : Reads host readContents) (hsucceeds : Succeeds readContents depth) (path : List Name) {identity : I}
    (hportable : Portable (.directory identity entries))
    (hexpected : ∀ names, Listing entries names → ∃ keys, expected names = .ok keys)
    (hdepth : depthOfEntries entries ≤ depth)
    (hroom : budget.Room (Node.directory identity entries).entryCount
      (Node.directory identity entries).byteCount) :
    ∃ result, prepareNames host shared readContents expected path
      (some (.directory identity entries)) budget = .ok result := by
  cases hportable with
  | directory _ _ hnamed hnodup hbelow =>
  obtain ⟨hentries, hbytes⟩ := hroom
  rw [entryCount] at hentries
  rw [byteCount] at hbytes
  have hcount : entries.length ≤ (Node.directory identity entries).total fun _ => 1 := by
    rw [total]
    exact length_le_totalOfEntries entries
  have hremaining : entries.length ≤ budget.remainingEntries := by
    rw [remainingEntries]
    omega
  have hfresh : ∀ entry ∈ entries, entryKey entry ∉ EntryNames.keys OrderedTable.empty := by
    simp [EntryNames.keys, OrderedTable.empty]
  obtain ⟨names, hread⟩ := exists_readEntries path hnamed hnodup hfresh
    (show 0 + entries.length ≤ budget.remainingEntries by omega)
  have hlisting := readEntries_ok hread
  have hlength : names.entries.length = entries.length := by
    rw [hlisting.perm.length_eq, length_map]
  obtain ⟨keys, hkeys⟩ := hexpected names hlisting
  have hnodes : ∀ name ∈ names.entries, ∃ node,
      host.child (some (.directory identity entries)) name.2 = some node ∧ Portable node ∧
        node.depth ≤ depth := by
    intro name hname
    obtain ⟨entry, hentry, rfl⟩ := List.mem_map.mp (hlisting.perm.mem_iff.mp hname)
    exact ⟨_, hlisting.child_of_mem hentry, hbelow entry hentry,
      Nat.le_trans (depthOfEntries_le hentry) hdepth⟩
  have hwithin : budget.Within := ⟨by omega, by omega⟩
  obtain ⟨⟨taken, counted⟩, htaken⟩ := exists_prepareEntries shared hreads hsucceeds path hwithin
    hnodes ⟨by rw [hlisting.total_eq]; exact hentries, by rw [hlisting.total_eq]; exact hbytes⟩
  unfold prepareNames
  rw [inspectDirectoryIdentity_eq hread]
  simp only [bind, Except.bind]
  rw [hkeys]
  dsimp only
  rw [if_neg (by omega), htaken]
  dsimp only
  rw [ensureDirectoryIdentity_self]
  exact ⟨_, rfl⟩

/-- **Every portable tree within the budgets is captured.** -/
theorem exists_prepareDirectoryContents (host : Host) (shared : SharedArtifacts) (depth : Nat) :
    Succeeds (I := I) (prepareDirectoryContents host shared depth) depth := by
  induction depth with
  | zero =>
    intro path identity entries budget _ hdepth _
    rw [Node.depth] at hdepth
    omega
  | succ depth ih =>
    intro path identity entries budget hportable hdepth hroom
    rw [Node.depth] at hdepth
    exact exists_prepareNames shared (prepareDirectoryContents_spec host shared depth) ih path
      hportable (fun names _ => ⟨_, rfl⟩) (by omega) hroom

end Xlfn.Package
