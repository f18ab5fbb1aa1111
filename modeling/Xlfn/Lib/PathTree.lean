import Mathlib.Data.List.Basic
import Mathlib.Data.List.Infix
import Mathlib.Tactic.Cases

/-!
# Xlfn — trees by their paths

A tree as the list of its paths, each with what is there. Removing and moving a subtree are a
filter and a map; what is at a path afterwards is read off the path alone.
-/

namespace Xlfn.Lib

open List

/-- A tree with names in `N` and entries in `E`. -/
abbrev PathTree (N E : Type) : Type := List (List N × E)

namespace PathTree

variable {N E : Type} [DecidableEq N]

-- ---- Reading and writing.

/-- What is at a path. -/
def lookup : PathTree N E → List N → Option E
  | [], _ => none
  | (path, entry) :: rest, wanted => if path = wanted then some entry else lookup rest wanted

section

variable (tree : PathTree N E)

/-- The paths that a condition keeps. -/
def keep (kept : List N → Bool) : PathTree N E :=
  tree.filter fun entry => kept entry.1

/-- The tree without what is at and below a path. -/
def removeTree (path : List N) : PathTree N E :=
  tree.keep fun other => !decide (path <+: other)

def put (path : List N) (entry : E) : PathTree N E :=
  (tree.keep fun other => !decide (other = path)) ++ [(path, entry)]

/-- A path after its prefix was replaced. -/
def relocate (old new path : List N) : List N :=
  if old <+: path then new ++ path.drop old.length else path

/-- What is at and below a path is moved. -/
def moveTree (old new : List N) : PathTree N E :=
  tree.map fun entry => (relocate old new entry.1, entry.2)

/-- Nothing is at or below a path. -/
def Vacant (path : List N) : Prop := ∀ entry ∈ tree, ¬path <+: entry.1

instance (tree : PathTree N E) (path : List N) : Decidable (tree.Vacant path) :=
  inferInstanceAs (Decidable (∀ entry ∈ tree, ¬path <+: entry.1))

/-- The name of a path below a directory. -/
def childName (directory path : List N) : Option N :=
  if directory <+: path ∧ path.length = directory.length + 1 then path.getLast? else none

/-- The names below a path. -/
def children (directory : List N) : List N :=
  tree.filterMap fun entry => childName directory entry.1

end

-- ---- Lemmas.

variable {tree : PathTree N E} {path old new wanted : List N} {entry : E}

theorem mem_of_lookup (h : tree.lookup path = some entry) : (path, entry) ∈ tree := by
  induction tree with
  | nil => cases h
  | cons first rest ih =>
    obtain ⟨own, found⟩ := first
    unfold lookup at h
    split at h
    next hown =>
      cases h
      rw [hown]
      exact mem_cons_self
    next => exact mem_cons_of_mem _ (ih h)

theorem vacant_removeTree (tree : PathTree N E) (path : List N) :
    (tree.removeTree path).Vacant path := by
  rintro entry hentry hbelow
  have hkept := (mem_filter.mp hentry).2
  simp [hbelow] at hkept

@[simp] theorem lookup_append (tree more : PathTree N E) (wanted : List N) :
    lookup (tree ++ more) wanted = (tree.lookup wanted).or (more.lookup wanted) := by
  induction tree with
  | nil => rfl
  | cons first rest ih =>
    obtain ⟨own, found⟩ := first
    rw [cons_append, lookup, lookup]
    by_cases hown : own = wanted
    · rw [if_pos hown, if_pos hown, Option.some_or]
    · rw [if_neg hown, if_neg hown, ih]

theorem lookup_keep (tree : PathTree N E) (kept : List N → Bool) (wanted : List N) :
    (tree.keep kept).lookup wanted = if kept wanted then tree.lookup wanted else none := by
  induction tree with
  | nil =>
    rw [show (keep [] kept : PathTree N E) = [] from rfl, lookup]
    split <;> rfl
  | cons first rest ih =>
    obtain ⟨own, found⟩ := first
    by_cases hkept : kept own = true
    · rw [show keep ((own, found) :: rest) kept = (own, found) :: keep rest kept from
        filter_cons_of_pos hkept, lookup, lookup, ih]
      by_cases hown : own = wanted
      · rw [if_pos hown, if_pos hown, if_pos (hown ▸ hkept)]
      · rw [if_neg hown, if_neg hown]
    · rw [show keep ((own, found) :: rest) kept = keep rest kept from
        filter_cons_of_neg hkept, ih, lookup]
      by_cases hown : own = wanted
      · rw [if_pos hown, if_neg (hown ▸ hkept), if_neg (hown ▸ hkept)]
      · rw [if_neg hown]

/-- A removal empties the paths below its own, and no others. -/
theorem lookup_removeTree (tree : PathTree N E) (path wanted : List N) :
    (tree.removeTree path).lookup wanted =
      if path <+: wanted then none else tree.lookup wanted := by
  unfold removeTree
  rw [lookup_keep]
  by_cases h : path <+: wanted
  · rw [if_pos h, if_neg (by simp [h])]
  · rw [if_neg h, if_pos (by simp [h])]

theorem lookup_put (tree : PathTree N E) (path wanted : List N) (entry : E) :
    (tree.put path entry).lookup wanted =
      if wanted = path then some entry else tree.lookup wanted := by
  unfold put
  rw [lookup_append, lookup_keep, lookup, lookup]
  by_cases h : wanted = path
  · rw [if_pos h, if_neg (by simp [h]), if_pos h.symm, Option.none_or]
  · rw [if_neg h, if_pos (by simp [h]), if_neg (Ne.symm h), Option.or_none]

theorem lookup_moveTree_of_not (hnew : ¬new <+: wanted) (hold : ¬old <+: wanted) :
    (tree.moveTree old new).lookup wanted = tree.lookup wanted := by
  induction tree with
  | nil => rfl
  | cons first rest ih =>
    obtain ⟨own, found⟩ := first
    rw [show moveTree ((own, found) :: rest) old new =
      (relocate old new own, found) :: moveTree rest old new from rfl, lookup, lookup, ih]
    by_cases hown : own = wanted
    · subst hown
      rw [if_pos rfl, if_pos (by unfold relocate; rw [if_neg hold])]
    · rw [if_neg hown, if_neg]
      unfold relocate
      split
      · rintro rfl
        exact hnew (prefix_append _ _)
      · exact hown

/-- **A moved subtree** is where it was moved to. -/
theorem lookup_moveTree_new (hvacant : tree.Vacant new) (rest : List N) :
    (tree.moveTree old new).lookup (new ++ rest) = tree.lookup (old ++ rest) := by
  induction tree with
  | nil => rfl
  | cons first more ih =>
    obtain ⟨own, found⟩ := first
    have hown : ¬new <+: own := hvacant _ mem_cons_self
    rw [show moveTree ((own, found) :: more) old new =
      (relocate old new own, found) :: moveTree more old new from rfl, lookup, lookup,
      ih fun entry hentry => hvacant entry (mem_cons_of_mem _ hentry)]
    by_cases hsame : own = old ++ rest
    · subst hsame
      rw [if_pos rfl, if_pos]
      unfold relocate
      rw [if_pos (prefix_append _ _), drop_left]
    · rw [if_neg hsame, if_neg]
      unfold relocate
      split
      next hold =>
        obtain ⟨below, rfl⟩ := hold
        rw [drop_left]
        intro h
        exact hsame (congrArg (old ++ ·) (append_cancel_left h))
      next =>
        rintro rfl
        exact hown (prefix_append _ _)

end PathTree

end Xlfn.Lib
