import Mathlib.Data.List.Nodup
import Mathlib.Data.List.Perm.Subperm
import Xlfn.Package.Snapshot

/-!
# Xlfn — reading files and listings

What the parts of both walks return on a tree that rests: a file is compared and read in full
whatever the sizes of the reads are, and a listing has every entry of its directory once under
its key, so that each name is resolved to its own entry.

* `Listing`, `readEntries_ok` — a listing that is accepted.
-/

namespace Xlfn.Package

open Xlfn.Lib List Option OrderedTable

-- ---- Files.

theorem readCount_bounds (host : Host) {length capacity offset : Nat} (hcapacity : 0 < capacity)
    (hoffset : offset < length) :
    0 < host.readCount length capacity offset ∧
      offset + host.readCount length capacity offset ≤ length := by
  unfold Host.readCount
  omega

theorem readCount_end (host : Host) (length capacity : Nat) :
    host.readCount length capacity length = 0 := by
  unfold Host.readCount
  omega

variable {bytes : List UInt8}

/-- The comparison of two tails is the comparison of what a read returns and of the rest. -/
theorem drop_eq_iff {expected : List UInt8} (offset count : Nat) :
    expected.drop offset = bytes.drop offset ↔
      (expected.drop offset).take count = (bytes.drop offset).take count ∧
        expected.drop (offset + count) = bytes.drop (offset + count) := by
  constructor
  · intro h
    rw [← drop_drop, ← drop_drop, h]
    exact ⟨rfl, rfl⟩
  · rintro ⟨htake, hdrop⟩
    rw [← take_append_drop count (expected.drop offset), htake, drop_drop, hdrop,
      ← drop_drop, take_append_drop]

/-- **The loop** compares what is left, where it can be equal. -/
theorem compareLoop_eq (host : Host) {expected : List UInt8} {fuel offset : Nat}
    (hoffset : offset ≤ bytes.length) (hfuel : bytes.length < offset + fuel) {equal : Bool}
    (hequal : equal = true → expected.length = bytes.length) :
    compareLoop host bytes expected fuel offset equal =
      some (bytes.length, equal && expected.drop offset == bytes.drop offset) := by
  induction fuel generalizing offset equal with
  | zero => omega
  | succ fuel ih =>
    unfold compareLoop
    dsimp only
    rcases Nat.lt_or_eq_of_le hoffset with hlt | rfl
    · obtain ⟨hpos, hle⟩ := readCount_bounds host (show 0 < bufferSize by decide) hlt
      have hnext : (equal && (expected.drop offset).take
          (host.readCount bytes.length bufferSize offset) == (bytes.drop offset).take
          (host.readCount bytes.length bufferSize offset)) = true →
          expected.length = bytes.length := by
        intro h
        exact hequal (Bool.and_eq_true_iff.mp h).1
      rw [if_neg (by omega), if_neg (by omega), ih hle (by omega) hnext, Bool.and_assoc]
      congr 3
      rw [Bool.eq_iff_iff, Bool.and_eq_true, beq_iff_eq, beq_iff_eq, beq_iff_eq]
      exact (drop_eq_iff offset _).symm
    · rw [readCount_end, if_pos rfl]
      cases equal with
      | false => rfl
      | true =>
        rw [drop_length, ← hequal rfl, drop_length]
        rfl

/-- **The comparison of a file at rest** is equality. -/
theorem compareStableSnapshot_eq (host : Host) (path : List Name) (bytes expected : List UInt8)
    {maximumLen : Option Nat} (hmax : maximumLen.any (· < bytes.length) = false) :
    compareStableSnapshot host path bytes expected maximumLen = .ok (expected == bytes) := by
  have hequal : (bytes.length == expected.length) = true → expected.length = bytes.length := by
    intro h
    exact (beq_iff_eq.mp h).symm
  unfold compareStableSnapshot
  rw [hmax, if_neg Bool.false_ne_true, compareLoop_eq host (Nat.zero_le _) (by omega) hequal]
  dsimp only
  rw [if_neg (not_not.mpr rfl), drop_zero, drop_zero]
  congr 1
  rw [Bool.eq_iff_iff, Bool.and_eq_true, beq_iff_eq, beq_iff_eq]
  constructor
  · exact And.right
  · rintro rfl
    exact ⟨rfl, rfl⟩

theorem compareStableSnapshot_long (host : Host) (path : List Name) (bytes expected : List UInt8)
    {maximumLen : Option Nat} (hmax : maximumLen.any (· < bytes.length) = true) :
    compareStableSnapshot host path bytes expected maximumLen =
      .error (.message "file exceeds the snapshot byte budget" path) := by
  unfold compareStableSnapshot
  rw [hmax, if_pos rfl]

theorem secondRead_self (host : Host) (path : List Name) (bytes : List UInt8) :
    secondRead host path bytes bytes = .ok () := by
  unfold secondRead
  rw [compareStableSnapshot_eq host path bytes bytes rfl, beq_self_eq_true]
  cases host.unix <;> rfl

/-- **The reading of a file at rest** returns its bytes. -/
theorem readStableSnapshot_eq (host : Host) (path : List Name)
    (hbytes : bytes.length ≤ host.usizeMax) :
    readStableSnapshot host path bytes bytes.length = .ok bytes := by
  have hsnapshot (count : Nat) :
      bytes.take count ++ (bytes.drop count).take (bytes.length - count) = bytes := by
    rw [← length_drop, take_length, take_append_drop]
  unfold readStableSnapshot
  rw [if_neg (Nat.lt_irrefl _), if_neg (Nat.not_lt.mpr hbytes)]
  dsimp only
  rw [hsnapshot, if_neg (not_not.mpr rfl), readCount_end, if_neg (not_not.mpr rfl)]

/-- **A file is captured** with its name, its identity and its bytes, known or not. -/
theorem prepareFile_eq {I : Type} (host : Host) (shared : SharedArtifacts) (path : List Name)
    (name : Name) (identity : I) (hbytes : bytes.length ≤ host.usizeMax) :
    prepareFile host shared path name identity bytes = .ok (.file name identity bytes) := by
  have hmax : (some bytes.length).any (· < bytes.length) = false := by simp
  unfold prepareFile
  cases shared path with
  | none =>
    simp only [bind, Except.bind]
    rw [readStableSnapshot_eq host path hbytes]
    dsimp only
    rw [secondRead_self]
  | some candidate =>
    dsimp only
    rw [compareStableSnapshot_eq host path bytes candidate hmax]
    by_cases hsame : candidate = bytes
    · rw [hsame, beq_self_eq_true]
      simp only [bind, Except.bind, if_true]
      rw [secondRead_self]
    · rw [beq_eq_false_iff_ne.mpr hsame]
      simp only [bind, Except.bind, Bool.false_eq_true, if_false]
      rw [readStableSnapshot_eq host path hbytes]
      dsimp only
      rw [secondRead_self]

variable {host : Host} {path : List Name}

section Verify

variable {I : Type} [DecidableEq I]

/-- **A file that is verified** has the bytes of the snapshot. -/
theorem exists_of_verifyFile {source : Bool} {node : Option (Node I)} {expectedIdentity : I}
    {expectedBytes : List UInt8}
    (h : verifyFile host source path node expectedIdentity expectedBytes = .ok ()) :
    ∃ identity, node = some (.file identity expectedBytes) := by
  unfold verifyFile at h
  split at h
  case h_1 identity bytes hopen =>
    have hnode : node = some (.file identity bytes) := by
      unfold Host.openNoFollow at hopen
      split at hopen
      · split at hopen <;> cases hopen
      · split at hopen <;> cases hopen
      · exact hopen
    by_cases hlong : (some expectedBytes.length).any (· < bytes.length) = true
    · rw [compareStableSnapshot_long host path bytes expectedBytes hlong] at h
      cases h
    · rw [compareStableSnapshot_eq host path bytes expectedBytes (Bool.eq_false_iff.mpr hlong)] at h
      by_cases hsame : expectedBytes = bytes
      · exact ⟨identity, by rw [hnode, hsame]⟩
      · rw [beq_eq_false_iff_ne.mpr hsame] at h
        cases h
  case h_2 => cases h

theorem verifyFile_self (host : Host) (source : Bool) (path : List Name) (identity : I)
    (bytes : List UInt8) :
    verifyFile host source path (some (.file identity bytes)) identity bytes = .ok () := by
  have hmax : (some bytes.length).any (· < bytes.length) = false := by simp
  unfold verifyFile Host.openNoFollow
  dsimp only
  rw [compareStableSnapshot_eq host path bytes bytes hmax, beq_self_eq_true]
  simp only [bind, Except.bind, not_true_eq_false, if_false, secondRead_self]
  cases source <;> simp

end Verify

-- ---- Listings.

variable {I : Type}

def entryName (entry : Option Name × Node I) : Name := entry.1.getD []

def entryKey (entry : Option Name × Node I) : Name := toAsciiLowercase (entryName entry)

/-- The names of a directory, each valid and once under its key. -/
structure Listing (entries : List (Option Name × Node I)) (names : EntryNames) : Prop where
  named : ∀ entry ∈ entries, entry.1 = some (entryName entry) ∧ ValidName (entryName entry)
  perm  : names.entries.Perm (entries.map fun entry => (entryKey entry, entryName entry))

variable {entries : List (Option Name × Node I)} {names : EntryNames}

theorem Listing.keys_perm (h : Listing entries names) : names.keys.Perm (entries.map entryKey) := by
  have hmap := h.perm.map (·.1)
  rwa [List.map_map] at hmap

theorem EntryNames.nodup_keys (names : EntryNames) : names.keys.Nodup := by
  have hsorted := names.sorted
  rw [EntryNames.keys, Nodup, pairwise_map]
  exact hsorted.imp fun hlt => ne_of_lt hlt

theorem Listing.nodup (h : Listing entries names) : (entries.map entryKey).Nodup :=
  h.keys_perm.nodup_iff.mp names.nodup_keys

theorem Listing.entry_unique (h : Listing entries names) {a b : Option Name × Node I}
    (ha : a ∈ entries) (hb : b ∈ entries) (hkey : entryKey a = entryKey b) : a = b :=
  inj_on_of_nodup_map h.nodup ha hb hkey

theorem Listing.key_eq (h : Listing entries names) {name : Name × Name}
    (hname : name ∈ names.entries) : name.1 = toAsciiLowercase name.2 ∧ ValidName name.2 := by
  obtain ⟨entry, hentry, rfl⟩ := List.mem_map.mp (h.perm.mem_iff.mp hname)
  exact ⟨rfl, (h.named entry hentry).2⟩

variable {maxEntries : Nat} {result : EntryNames}

theorem readEntries_listed (h : readEntries path maxEntries names entries = .ok result) :
    (∀ entry ∈ entries, entry.1 = some (entryName entry) ∧ ValidName (entryName entry)) ∧
    result.entries.Perm
      (entries.map (fun entry => (entryKey entry, entryName entry)) ++ names.entries) := by
  induction entries generalizing names with
  | nil =>
    cases h
    exact ⟨by simp, List.Perm.refl _⟩
  | cons entry rest ih =>
    obtain ⟨name, node⟩ := entry
    unfold readEntries at h
    split at h
    · cases h
    cases name with
    | none => cases h
    | some name =>
      dsimp only at h
      cases hkey : windowsNameKey name with
      | error reason =>
        rw [hkey] at h
        cases h
      | ok key =>
        rw [hkey] at h
        dsimp only at h
        split at h
        · cases h
        rename_i hfresh
        obtain ⟨hvalid, rfl⟩ := windowsNameKey_ok.mp hkey
        obtain ⟨hnamed, hperm⟩ := ih h
        have hnew : ∀ e ∈ names.entries, e.1 ≠ toAsciiLowercase name := by
          intro e he heq
          apply hfresh
          rw [contains_iff_mem, ← heq]
          exact List.mem_map_of_mem he
        constructor
        · intro entry hentry
          rcases mem_cons.mp hentry with rfl | hentry
          · exact ⟨rfl, hvalid⟩
          · exact hnamed entry hentry
        · refine (hperm.trans ((insert_perm name hnew).append_left _)).trans ?_
          rw [map_cons, cons_append]
          exact perm_middle

theorem readEntries_ok (h : readEntries path maxEntries empty entries = .ok result) :
    Listing entries result := by
  obtain ⟨hnamed, hperm⟩ := readEntries_listed h
  refine ⟨hnamed, ?_⟩
  simpa [empty] using hperm

/-- A listing that is accepted is accepted where more entries may be, whatever the path is. -/
theorem readEntries_mono {path' : List Name} {maxEntries' : Nat} (hle : maxEntries ≤ maxEntries')
    (h : readEntries path maxEntries names entries = .ok result) :
    readEntries path' maxEntries' names entries = .ok result := by
  induction entries generalizing names with
  | nil => exact h
  | cons entry rest ih =>
    obtain ⟨name, node⟩ := entry
    unfold readEntries at h ⊢
    split at h
    · cases h
    rw [if_neg (by omega)]
    cases name with
    | none => cases h
    | some name =>
      dsimp only at h ⊢
      cases hkey : windowsNameKey name with
      | error reason =>
        rw [hkey] at h
        cases h
      | ok key =>
        rw [hkey] at h
        dsimp only at h ⊢
        split at h
        · cases h
        rename_i hfresh
        rw [if_neg hfresh]
        exact ih h

/-- **A directory is listed** if its names are valid and differ in their keys, and there are not
too many. -/
theorem exists_readEntries (path : List Name)
    (hnamed : ∀ entry ∈ entries, entry.1 = some (entryName entry) ∧ ValidName (entryName entry))
    (hnodup : (entries.map entryKey).Nodup)
    (hfresh : ∀ entry ∈ entries, entryKey entry ∉ names.keys)
    (hroom : names.entries.length + entries.length ≤ maxEntries) :
    ∃ result, readEntries path maxEntries names entries = .ok result := by
  induction entries generalizing names with
  | nil => exact ⟨names, rfl⟩
  | cons entry rest ih =>
    obtain ⟨name, node⟩ := entry
    obtain ⟨hname, hvalid⟩ := hnamed (name, node) mem_cons_self
    have hname : name = some (entryName (name, node)) := hname
    obtain ⟨hkey, hrest⟩ := nodup_cons.mp hnodup
    have hnew : entryKey (name, node) ∉ names.keys := hfresh _ mem_cons_self
    have hinserted : (names.insert (toAsciiLowercase (entryName (name, node)))
        (entryName (name, node))).entries.Perm
        ((entryKey (name, node), entryName (name, node)) :: names.entries) := by
      refine insert_perm _ fun e he heq => ?_
      have hmem : e.1 ∈ names.keys := List.mem_map_of_mem he
      rw [heq] at hmem
      exact hnew hmem
    have hlength := hinserted.length_eq
    rw [length_cons] at hlength hroom
    unfold readEntries
    rw [if_neg (by omega), hname]
    dsimp only
    rw [windowsNameKey_of_valid hvalid]
    dsimp only
    rw [if_neg]
    · refine ih (fun e he => hnamed e (mem_cons_of_mem _ he)) hrest (fun e he hmem => ?_)
        (by omega)
      have hmem := (hinserted.map (·.1)).mem_iff.mp hmem
      rw [map_cons, mem_cons] at hmem
      rcases hmem with heq | hmem
      · have hmem : entryKey e ∈ rest.map entryKey := List.mem_map_of_mem he
        rw [heq] at hmem
        exact hkey hmem
      · exact hfresh e (mem_cons_of_mem _ he) hmem
    · rw [contains_iff_mem]
      exact hnew

variable {identity : I}

theorem inspectDirectoryIdentity_ok {node : Option (Node I)}
    (h : inspectDirectoryIdentity host path node maxEntries = .ok (identity, names)) :
    ∃ entries, node = some (.directory identity entries) ∧
      readEntries path maxEntries empty entries = .ok names := by
  unfold inspectDirectoryIdentity at h
  split at h
  case h_1 => cases h
  case h_2 found entries hopen =>
    have hnode : node = some (.directory found entries) := by
      unfold Host.openNoFollow at hopen
      split at hopen
      · split at hopen <;> cases hopen
      · split at hopen
        · exact hopen
        · cases hopen
      · exact hopen
    cases hread : readEntries path maxEntries empty entries with
    | error e =>
      rw [hread] at h
      cases h
    | ok result =>
      rw [hread] at h
      cases h
      exact ⟨entries, hnode, hread⟩
  case h_3 => cases h

theorem openNoFollow_directory (host : Host) (identity : I)
    (entries : List (Option Name × Node I)) :
    host.openNoFollow true (some (.directory identity entries)) =
      some (.directory identity entries) := by
  unfold Host.openNoFollow
  dsimp only
  rw [Bool.or_true, if_pos rfl]

theorem inspectDirectoryIdentity_eq (h : readEntries path maxEntries empty entries = .ok names) :
    inspectDirectoryIdentity host path (some (.directory identity entries)) maxEntries =
      .ok (identity, names) := by
  unfold inspectDirectoryIdentity
  rw [openNoFollow_directory]
  dsimp only
  rw [h]
  rfl

theorem ensureDirectoryIdentity_self [DecidableEq I] (host : Host) (path : List Name)
    (identity : I) (entries : List (Option Name × Node I)) :
    ensureDirectoryIdentity host path (some (.directory identity entries)) identity = .ok () := by
  unfold ensureDirectoryIdentity
  rw [openNoFollow_directory]
  dsimp only
  rw [if_neg (not_not.mpr rfl)]

-- ---- Names and entries.

/-- A name that is resolved is the name of an entry, up to what the host takes as the same. -/
theorem exists_of_child {requested : Name} {node : Node I}
    (h : host.child (some (.directory identity entries)) requested = some node) :
    ∃ actual, (some actual, node) ∈ entries ∧ host.same actual requested = true := by
  obtain ⟨⟨name, _⟩, hfind, rfl⟩ := map_eq_some_iff.mp h
  have hresolves := find?_some hfind
  cases name with
  | none => cases hresolves
  | some actual => exact ⟨actual, mem_of_find?_eq_some hfind, hresolves⟩

/-- **A name of the listing is resolved to its own entry.** -/
theorem Listing.child_of_mem (h : Listing entries names) {entry : Option Name × Node I}
    (hentry : entry ∈ entries) :
    host.child (some (.directory identity entries)) (entryName entry) = some entry.2 := by
  obtain ⟨hname, hvalid⟩ := h.named entry hentry
  have hself : host.resolves (entryName entry) entry = true := by
    rw [Host.resolves, hname, any_some]
    exact host.same_refl _
  obtain ⟨found, hfound⟩ :
      ∃ found, entries.find? (host.resolves (entryName entry)) = some found := by
    rw [← isSome_iff_exists, find?_isSome]
    exact ⟨entry, hentry, hself⟩
  have hmem := mem_of_find?_eq_some hfound
  obtain ⟨hfoundName, hfoundValid⟩ := h.named found hmem
  have hsame : host.same (entryName found) (entryName entry) = true := by
    have hresolves := find?_some hfound
    rwa [Host.resolves, hfoundName, any_some] at hresolves
  have heq : found = entry :=
    h.entry_unique hmem hentry (host.same_valid _ _ hsame hfoundValid hvalid)
  rw [Host.child, hfound, heq, map_some]

end Xlfn.Package
