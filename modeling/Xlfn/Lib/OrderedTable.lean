import Mathlib.Data.List.Perm.Basic
import Mathlib.Data.List.Pairwise
import Mathlib.Order.Lattice

/-!
# Xlfn — ordered tables

A map whose entries are kept in the order of their keys, as a binary-search map iterates
them. `update` is an entry call: it inserts at the place of the key or changes what is there.
-/

namespace Xlfn.Lib

open List

variable {K V : Type*} [LinearOrder K]

/-- Entries in the strict order of their keys. -/
structure OrderedTable (K V : Type*) [LinearOrder K] where
  entries : List (K × V)
  sorted  : entries.Pairwise fun a b => a.1 < b.1

namespace OrderedTable

def empty : OrderedTable K V := ⟨[], .nil⟩

/-- Insert at the place of `k`, or change what is there. -/
def place (k : K) (f : Option V → V) : List (K × V) → List (K × V)
  | [] => [(k, f none)]
  | (k', v) :: rest =>
    if k < k' then (k, f none) :: (k', v) :: rest
    else if k = k' then (k, f (some v)) :: rest
    else (k', v) :: place k f rest

/-- What `update` does to the entries, said once. -/
theorem place_cases (k : K) (f : Option V → V) (l : List (K × V)) :
    (∃ l₁ l₂, l = l₁ ++ l₂ ∧ place k f l = l₁ ++ (k, f none) :: l₂) ∨
      ∃ l₁ v l₂, l = l₁ ++ (k, v) :: l₂ ∧ place k f l = l₁ ++ (k, f (some v)) :: l₂ := by
  induction l with
  | nil => exact .inl ⟨[], [], rfl, rfl⟩
  | cons e rest ih =>
    obtain ⟨k', v⟩ := e
    rw [place]
    split
    · exact .inl ⟨[], (k', v) :: rest, rfl, rfl⟩
    · split
      · next heq =>
        subst heq
        exact .inr ⟨[], v, rest, rfl, rfl⟩
      · rcases ih with ⟨l₁, l₂, hl, hp⟩ | ⟨l₁, w, l₂, hl, hp⟩
        · exact .inl ⟨(k', v) :: l₁, l₂, by rw [hl]; rfl, by rw [hp]; rfl⟩
        · exact .inr ⟨(k', v) :: l₁, w, l₂, by rw [hl]; rfl, by rw [hp]; rfl⟩

variable {k : K} {m : OrderedTable K V}

theorem key_of_mem_place {f : Option V → V} {l : List (K × V)} {e : K × V} (h : e ∈ place k f l) :
    e.1 = k ∨ ∃ e' ∈ l, e'.1 = e.1 := by
  rcases place_cases k f l with ⟨l₁, l₂, rfl, hp⟩ | ⟨l₁, v, l₂, rfl, hp⟩
  · rw [hp, mem_append, mem_cons] at h
    rcases h with h | rfl | h
    · exact .inr ⟨e, mem_append_left _ h, rfl⟩
    · exact .inl rfl
    · exact .inr ⟨e, mem_append_right _ h, rfl⟩
  · rw [hp, mem_append, mem_cons] at h
    rcases h with h | rfl | h
    · exact .inr ⟨e, mem_append_left _ h, rfl⟩
    · exact .inl rfl
    · exact .inr ⟨e, mem_append_right _ (mem_cons_of_mem _ h), rfl⟩

theorem sorted_place {f : Option V → V} {l : List (K × V)} (h : l.Pairwise fun a b => a.1 < b.1) :
    (place k f l).Pairwise fun a b => a.1 < b.1 := by
  induction l with
  | nil => exact pairwise_singleton ..
  | cons e rest ih =>
    obtain ⟨k', v⟩ := e
    obtain ⟨hfirst, hrest⟩ := pairwise_cons.mp h
    rw [place]
    split
    · next hlt =>
      refine pairwise_cons.mpr ⟨fun b hb => ?_, h⟩
      rcases mem_cons.mp hb with rfl | hb
      · exact hlt
      · exact hlt.trans (hfirst b hb)
    · next hnot =>
      split
      · next heq =>
        subst heq
        exact pairwise_cons.mpr ⟨hfirst, hrest⟩
      · next hne =>
        have hgt : k' < k := lt_of_le_of_ne (not_lt.mp hnot) (Ne.symm hne)
        refine pairwise_cons.mpr ⟨fun b hb => ?_, ih hrest⟩
        rcases key_of_mem_place hb with hb | ⟨b', hb', hkey⟩
        · exact hb ▸ hgt
        · exact hkey ▸ hfirst b' hb'

/-- An entry call. -/
def update (m : OrderedTable K V) (k : K) (f : Option V → V) : OrderedTable K V :=
  ⟨place k f m.entries, sorted_place m.sorted⟩

def insert (m : OrderedTable K V) (k : K) (v : V) : OrderedTable K V := m.update k fun _ => v

/-- The entries after an insertion. -/
theorem mem_keys_insert {k' : K} {v : V} :
    k' ∈ (m.insert k v).entries.map (·.1) ↔ k' = k ∨ k' ∈ m.entries.map (·.1) := by
  have hentries : (m.insert k v).entries = place k (fun _ => v) m.entries := rfl
  rw [hentries]
  rcases place_cases k (fun _ => v) m.entries with ⟨l₁, l₂, hm, hp⟩ | ⟨l₁, w, l₂, hm, hp⟩
  · rw [hp, hm]
    simp only [map_append, map_cons, mem_append, mem_cons]
    exact or_left_comm
  · rw [hp, hm]
    simp only [map_append, map_cons, mem_append, mem_cons]
    constructor
    · exact .inr
    · rintro (rfl | h)
      · exact .inr (.inl rfl)
      · exact h

theorem insert_perm (v : V) (h : ∀ e ∈ m.entries, e.1 ≠ k) :
    (m.insert k v).entries.Perm ((k, v) :: m.entries) := by
  have hentries : (m.insert k v).entries = place k (fun _ => v) m.entries := rfl
  rw [hentries]
  rcases place_cases k (fun _ => v) m.entries with ⟨l₁, l₂, hm, hp⟩ | ⟨l₁, w, l₂, hm, -⟩
  · rw [hp, hm]
    exact perm_middle
  · exact absurd rfl (h (k, w) (hm ▸ mem_append_right _ mem_cons_self))

end OrderedTable

end Xlfn.Lib
