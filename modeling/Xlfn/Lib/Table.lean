import Mathlib.Data.List.AList
import Mathlib.Algebra.BigOperators.Fin

/-!
# Xlfn — finite tables and keyed counts

A `Table K V` is a finite map without duplicate keys (Mathlib's `AList` at a
constant family). It stands for the hash maps and dense index maps of a program
whose behaviour does not depend on their order.

* `countKeys` — how many keys satisfy a predicate, and how one write changes it.
* `sumEntries` — a sum over all entries, and how one write changes it.
-/

namespace Xlfn.Lib

open List AList Function

/-- A finite map from `K` to `V`. -/
abbrev Table (K : Type*) (V : Type*) := AList fun _ : K => V

namespace Table

variable {K V : Type*} [DecidableEq K]

/-- A write is read back under its own key only. -/
theorem lookup_insert_ite (m : Table K V) (k k' : K) (v : V) :
    (m.insert k v).lookup k' = if k' = k then some v else m.lookup k' := by
  by_cases h : k' = k
  · subst h
    rw [if_pos rfl, lookup_insert]
  · rw [if_neg h, lookup_insert_ne h]

/-- What an erasure leaves under each key. -/
theorem lookup_erase_ite (m : Table K V) (k k' : K) :
    (m.erase k).lookup k' = if k' = k then none else m.lookup k' := by
  by_cases h : k' = k
  · subst h
    rw [if_pos rfl, lookup_erase]
  · rw [if_neg h, lookup_erase_ne h]

/-- An inserted key is erased with its value. -/
theorem erase_insert (m : Table K V) (k : K) (v : V) : (m.insert k v).erase k = m.erase k := by
  refine AList.ext ?_
  show kerase k (m.insert k v).entries = kerase k m.entries
  rw [entries_insert]
  exact kerase_cons_eq rfl

variable {m : Table K V} {k : K} {w : V}

theorem mem_keys_of_lookup {v : V} (h : m.lookup k = some v) : k ∈ m.keys := by
  rw [← AList.mem_keys, ← lookup_isSome, h]
  rfl

theorem notMem_keys_of_lookup (h : m.lookup k = none) : k ∉ m.keys := by
  rw [← AList.mem_keys]
  exact lookup_eq_none.mp h

/-- Keys are unique, so an entry is what its key looks up. -/
theorem lookup_of_mem_entries {v : V} (h : (⟨k, v⟩ : Sigma fun _ : K => V) ∈ m.entries) :
    m.lookup k = some v :=
  mem_lookup_iff.mpr h

-- ---- Counting keys.

/-- The number of keys that satisfy `p`. -/
def countKeys (p : K → Bool) (m : Table K V) : Nat := m.keys.countP p

/-- The number of entries. -/
def size (m : Table K V) : Nat := m.entries.length

omit [DecidableEq K] in
theorem size_eq_countKeys (m : Table K V) : size m = countKeys (fun _ => true) m := by
  simp [size, countKeys, AList.keys, List.keys]

omit [DecidableEq K] in
@[simp] theorem countKeys_empty (p : K → Bool) : countKeys p (∅ : Table K V) = 0 := rfl

omit [DecidableEq K] in
@[simp] theorem size_empty : size (∅ : Table K V) = 0 := rfl

/-- The count with one key apart. -/
private theorem countKeys_split (p : K → Bool) (hk : k ∈ m.keys) :
    countKeys p m = (m.keys.erase k).countP p + if p k then 1 else 0 := by
  rw [countKeys, (perm_cons_erase hk).countP_eq, countP_cons]

/-- A new key is counted. -/
theorem countKeys_insert_new (p : K → Bool) (v : V) (h : m.lookup k = none) :
    countKeys p (m.insert k v) = countKeys p m + if p k then 1 else 0 := by
  rw [countKeys, keys_insert, List.erase_of_not_mem (notMem_keys_of_lookup h), countP_cons]
  rfl

/-- A known key was counted already. -/
theorem countKeys_insert_old (p : K → Bool) (v : V) (h : m.lookup k = some w) :
    countKeys p (m.insert k v) = countKeys p m := by
  rw [countKeys_split p (mem_keys_of_lookup h), countKeys, keys_insert, countP_cons]

/-- An erased key is not counted any more. -/
theorem countKeys_erase (p : K → Bool) (h : m.lookup k = some w) :
    countKeys p (m.erase k) + (if p k then 1 else 0) = countKeys p m := by
  rw [countKeys_split p (mem_keys_of_lookup h), countKeys, keys_erase]

theorem size_insert_new (v : V) (h : m.lookup k = none) : size (m.insert k v) = size m + 1 := by
  rw [size_eq_countKeys, size_eq_countKeys, countKeys_insert_new _ v h, if_pos rfl]

theorem size_insert_old (v : V) (h : m.lookup k = some w) : size (m.insert k v) = size m := by
  rw [size_eq_countKeys, size_eq_countKeys, countKeys_insert_old _ v h]

theorem size_erase (h : m.lookup k = some w) : size (m.erase k) + 1 = size m := by
  rw [size_eq_countKeys, size_eq_countKeys, ← countKeys_erase _ h, if_pos rfl]

omit [DecidableEq K] in
/-- The count depends on the keys present only. -/
theorem countKeys_congr {p q : K → Bool} (h : ∀ k ∈ m.keys, p k = q k) :
    countKeys p m = countKeys q m :=
  countP_congr fun k hk => by rw [h k hk]

/-- A key that is absent does not matter to the count. -/
theorem countKeys_congr_absent {p q : K → Bool} (h : m.lookup k = none)
    (hpq : ∀ k', k' ≠ k → p k' = q k') : countKeys p m = countKeys q m := by
  refine countKeys_congr fun k' hk' => hpq k' ?_
  rintro rfl
  exact notMem_keys_of_lookup h hk'

/-- One key begins to count. -/
theorem countKeys_switch {p q : K → Bool} (h : m.lookup k = some w) (hp : p k = false)
    (hq : q k = true) (hpq : ∀ k', k' ≠ k → p k' = q k') : countKeys q m = countKeys p m + 1 := by
  have hk := mem_keys_of_lookup h
  rw [countKeys_split q hk, countKeys_split p hk, hp, hq]
  have herase : (m.keys.erase k).countP q = (m.keys.erase k).countP p := by
    refine countP_congr fun k' hk' => ?_
    have hne : k' ≠ k := by
      rintro rfl
      exact m.keys_nodup.not_mem_erase hk'
    rw [hpq k' hne]
  rw [herase]
  rfl

omit [DecidableEq K] in
theorem countKeys_le_size (p : K → Bool) (m : Table K V) : countKeys p m ≤ size m := by
  rw [size_eq_countKeys]
  exact countP_mono_left fun _ _ _ => rfl

/-- The size depends on what is looked up only. -/
theorem size_congr {m' : Table K V} (h : ∀ k, m'.lookup k = m.lookup k) : size m' = size m := by
  refine List.Perm.length_eq (List.lookup_ext m'.nodupKeys m.nodupKeys ?_)
  intro k v
  exact iff_of_eq (congrArg (v ∈ ·) (h k))

theorem size_eq_zero_iff : size m = 0 ↔ ∀ k, m.lookup k = none := by
  constructor
  · intro h k
    rw [lookup_eq_none]
    intro hk
    rw [size, List.length_eq_zero_iff] at h
    rw [AList.mem_keys, AList.keys, h] at hk
    simp at hk
  · intro h
    rw [size, List.length_eq_zero_iff, List.eq_nil_iff_forall_not_mem]
    rintro ⟨k, v⟩ hkv
    have hnone := h k
    rw [lookup_of_mem_entries hkv] at hnone
    cases hnone

-- ---- Sums over all entries.

/-- The sum of `f` over all entries. -/
def sumEntries (f : K → V → Nat) (m : Table K V) : Nat := (m.entries.map fun x => f x.1 x.2).sum

omit [DecidableEq K] in
@[simp] theorem sumEntries_empty (f : K → V → Nat) : sumEntries f (∅ : Table K V) = 0 := rfl

/-- An erased entry leaves the sum. -/
theorem sumEntries_erase (f : K → V → Nat) (h : m.lookup k = some w) :
    sumEntries f (m.erase k) + f k w = sumEntries f m := by
  obtain ⟨b, l₁, l₂, hnot, hentries, hkerase⟩ :=
    List.exists_of_kerase (mem_keys_of_lookup h)
  have hb : w = b := by
    have hmem : (⟨k, b⟩ : Sigma fun _ : K => V) ∈ m.entries := by simp [hentries]
    rw [lookup_of_mem_entries hmem] at h
    exact (Option.some.inj h).symm
  show ((kerase k m.entries).map fun x => f x.1 x.2).sum + f k w = _
  rw [sumEntries, hkerase, hentries, hb]
  simp only [map_append, map_cons, sum_append, sum_cons]
  omega

/-- A new entry joins the sum. -/
theorem sumEntries_insert_new (f : K → V → Nat) (v : V) (h : m.lookup k = none) :
    sumEntries f (m.insert k v) = sumEntries f m + f k v := by
  rw [sumEntries, entries_insert, kerase_of_notMem_keys (notMem_keys_of_lookup h), map_cons,
    sum_cons, sumEntries, Nat.add_comm]

/-- A replaced entry takes its predecessor's part in the sum. -/
theorem sumEntries_insert_old (f : K → V → Nat) (v : V) (h : m.lookup k = some w) :
    sumEntries f (m.insert k v) + f k w = sumEntries f m + f k v := by
  have herase := sumEntries_erase f h
  have hinsert : sumEntries f (m.insert k v) = f k v + sumEntries f (m.erase k) := by
    rw [sumEntries, entries_insert, map_cons, sum_cons]
    rfl
  omega

end Table

-- ---- Counts over a list of parties.

variable {α : Type*} {i : Nat}

/-- An entry after a replacement: the new one, or an old one elsewhere. -/
theorem getElem?_set_cases {l : List α} {j : Nat} {x y z : α} (h : l[i]? = some x)
    (hz : (l.set i y)[j]? = some z) : (j = i ∧ z = y) ∨ (j ≠ i ∧ l[j]? = some z) := by
  by_cases hji : j = i
  · subst hji
    obtain ⟨hlt, -⟩ := List.getElem_of_getElem? h
    rw [List.getElem?_set_self hlt] at hz
    exact .inl ⟨rfl, (Option.some.inj hz).symm⟩
  · rw [List.getElem?_set_ne (Ne.symm hji)] at hz
    exact .inr ⟨hji, hz⟩

/-- An entry of a longer list: an old one, or the last. -/
theorem getElem?_append_singleton_cases {l : List α} {x y : α} (h : (l ++ [x])[i]? = some y) :
    l[i]? = some y ∨ (i = l.length ∧ y = x) := by
  rcases Nat.lt_trichotomy i l.length with hlt | heq | hgt
  · rw [List.getElem?_append_left hlt] at h
    exact .inl h
  · subst heq
    rw [List.getElem?_append_right (Nat.le_refl _)] at h
    exact .inr ⟨rfl, by simpa using h.symm⟩
  · rw [List.getElem?_eq_none (by simp; omega)] at h
    cases h

/-- **Replacing one member of a list.** The count loses the old member's
contribution and gains the new one's; stated without subtraction. -/
theorem countP_set_add (p : α → Bool) {l : List α} {x : α} (y : α) (h : l[i]? = some x) :
    (l.set i y).countP p + (if p x then 1 else 0) = l.countP p + if p y then 1 else 0 := by
  obtain ⟨hi, hx⟩ := List.getElem_of_getElem? h
  have hle : (if p x then 1 else 0) ≤ l.countP p := by
    split
    · rename_i hp
      exact List.countP_pos_iff.mpr ⟨x, hx ▸ List.getElem_mem hi, hp⟩
    · exact Nat.zero_le _
  rw [List.countP_set hi, hx]
  omega

/-- A removed entry and the rest are the list. -/
theorem perm_cons_eraseIdx {l : List α} {x : α} (h : l[i]? = some x) :
    l.Perm (x :: l.eraseIdx i) := by
  obtain ⟨hi, rfl⟩ := List.getElem_of_getElem? h
  exact (List.getElem_cons_eraseIdx_perm hi).symm

/-- **Removing one member of a list.** The count loses the member's contribution. -/
theorem countP_eraseIdx_add (p : α → Bool) {l : List α} {x : α} (h : l[i]? = some x) :
    (l.eraseIdx i).countP p + (if p x then 1 else 0) = l.countP p := by
  rw [(perm_cons_eraseIdx h).countP_eq p, List.countP_cons]

/-- Two entries that are counted at most once are one. -/
theorem eq_of_countP_le_one (p : α → Bool) {l : List α} {j : Nat} {x y : α} (hle : l.countP p ≤ 1)
    (hi : l[i]? = some x) (hj : l[j]? = some y) (hx : p x = true) (hy : p y = true) : i = j := by
  by_contra hne
  have herase := countP_eraseIdx_add p hi
  rw [if_pos hx] at herase
  have hmem : y ∈ l.eraseIdx i :=
    List.mem_eraseIdx_iff_getElem?.mpr ⟨j, fun h => hne h.symm, hj⟩
  have hpos : 0 < (l.eraseIdx i).countP p := List.countP_pos_iff.mpr ⟨y, hmem, hy⟩
  omega

/-- **Replacing one member of a list** in a sum over the list. -/
theorem sum_map_set_add (f : α → Nat) {l : List α} {x : α} (y : α) (h : l[i]? = some x) :
    ((l.set i y).map f).sum + f x = (l.map f).sum + f y := by
  induction l generalizing i with
  | nil => simp at h
  | cons z l ih =>
    cases i with
    | zero =>
      rw [List.getElem?_cons_zero, Option.some.injEq] at h
      subst h
      simp only [List.set_cons_zero, List.map_cons, List.sum_cons]
      omega
    | succ i =>
      rw [List.getElem?_cons_succ] at h
      have hrest := ih h
      simp only [List.set_cons_succ, List.map_cons, List.sum_cons]
      omega

-- ---- Sums over a finite family.

/-- **Replacing one member of a family.** The sum loses the old contribution and
gains the new one; stated without subtraction. -/
theorem sum_update_add {ι σ : Type*} [Fintype ι] [DecidableEq ι] (g : σ → Nat) (f : ι → σ)
    (i : ι) (x : σ) :
    (∑ j, g (update f i x j)) + g (f i) = (∑ j, g (f j)) + g x := by
  have hsplit : ∀ h : ι → σ, ∑ j, g (h j) = g (h i) + ∑ j ∈ Finset.univ.erase i, g (h j) :=
    fun h => (Finset.add_sum_erase Finset.univ (fun j => g (h j)) (Finset.mem_univ i)).symm
  have hrest : ∑ j ∈ Finset.univ.erase i, g (update f i x j) =
      ∑ j ∈ Finset.univ.erase i, g (f j) := by
    refine Finset.sum_congr rfl fun j hj => ?_
    rw [update_of_ne (Finset.ne_of_mem_erase hj)]
  rw [hsplit (update f i x), hsplit f, hrest, update_self]
  omega

end Xlfn.Lib
