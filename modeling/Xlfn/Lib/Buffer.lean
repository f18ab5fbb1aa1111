import Mathlib.Algebra.GroupWithZero.Nat
import Mathlib.Data.List.Basic

/-!
# Xlfn — uninitialised memory

A buffer is a run of cells of which each holds a value or was never written. Writing beyond
its end, and reading a cell that was never written, have no result.

* `Filled` — the first cells hold the given values.
* `chunks` — a list cut into pieces of one length.
-/

namespace Xlfn.Lib

open List

variable {α : Type*}

/-- Cells of memory; `none` was never written. -/
abbrev Cells (α : Type*) := List (Option α)

namespace Cells

def uninit (n : Nat) : Cells α := List.replicate n none

/-- Write `xs` from cell `i` on. -/
def store (cells : Cells α) (i : Nat) (xs : List α) : Option (Cells α) :=
  if i + xs.length ≤ cells.length then
    some (cells.take i ++ (xs.map some ++ cells.drop (i + xs.length)))
  else none

/-- Read every cell. -/
def assumeInit : Cells α → Option (List α)
  | [] => some []
  | none :: _ => none
  | some x :: cells => (assumeInit cells).map (x :: ·)

/-- The first cells hold `xs`. -/
def Filled (cells : Cells α) (xs : List α) : Prop := ∃ rest, cells = xs.map some ++ rest

@[simp] theorem assumeInit_map_some (xs : List α) : assumeInit (xs.map some) = some xs := by
  induction xs with
  | nil => rfl
  | cons x xs ih => rw [map_cons, assumeInit, ih, Option.map_some]

theorem Filled.assumeInit {cells : Cells α} {xs : List α} (h : Filled cells xs) :
    assumeInit (cells.take xs.length) = some xs := by
  obtain ⟨rest, rfl⟩ := h
  have hlength : (xs.map some).length = xs.length := length_map some
  rw [← hlength, take_left, assumeInit_map_some]

/-- **Writing behind what was written.** -/
theorem Filled.store {cells : Cells α} {xs : List α} (h : Filled cells xs) (ys : List α)
    (hroom : xs.length + ys.length ≤ cells.length) :
    ∃ cells', cells.store xs.length ys = some cells' ∧ cells'.length = cells.length ∧
      Filled cells' (xs ++ ys) := by
  refine ⟨_, if_pos hroom, ?_, ?_⟩
  · simp only [length_append, length_take, length_map, length_drop]
    omega
  · obtain ⟨rest, rfl⟩ := h
    refine ⟨(xs.map some ++ rest).drop (xs.length + ys.length), ?_⟩
    rw [map_append, append_assoc]
    congr 1
    have hlength : (xs.map some).length = xs.length := length_map some
    rw [← hlength, take_left]

theorem store_cons (c : Option α) (cells : Cells α) (i : Nat) (xs : List α) :
    Cells.store (c :: cells) (i + 1) xs = (cells.store i xs).map (c :: ·) := by
  unfold store
  rw [length_cons, Nat.add_right_comm]
  by_cases hroom : i + xs.length ≤ cells.length
  · rw [if_pos hroom, if_pos (Nat.succ_le_succ hroom)]
    rfl
  · rw [if_neg hroom, if_neg fun h => hroom (Nat.le_of_succ_le_succ h)]
    rfl

theorem store_zero (c : Option α) (cells : Cells α) (x : α) :
    Cells.store (c :: cells) 0 [x] = some (some x :: cells) := by
  have hroom : 0 + [x].length ≤ (c :: cells).length := by
    simp only [length_cons, length_nil]
    omega
  rw [store, if_pos hroom]
  rfl

end Cells

-- ---- Chunks.

/-- `xs` in pieces of length `n`, the last of which may be shorter; one piece for `n = 0`. -/
def chunks (n : Nat) (xs : List α) : List (List α) :=
  if _h : xs = [] ∨ n = 0 then [xs] else xs.take n :: chunks n (xs.drop n)
termination_by xs.length
decreasing_by
  have hpos : 0 < xs.length := length_pos_of_ne_nil fun hnil => _h (.inl hnil)
  rw [length_drop]
  omega

theorem chunks_flatten (n : Nat) (xs : List α) : (chunks n xs).flatten = xs := by
  fun_induction chunks n xs with
  | case1 xs h => simp
  | case2 xs h ih => rw [flatten_cons, ih, take_append_drop]

theorem length_le_of_mem_chunks {n : Nat} (hn : 0 < n) {xs c : List α} (h : c ∈ chunks n xs) :
    c.length ≤ n := by
  fun_induction chunks n xs with
  | case1 xs hstop =>
    rw [mem_singleton.mp h]
    rcases hstop with rfl | hzero
    · exact Nat.zero_le _
    · omega
  | case2 xs hstop ih =>
    rcases mem_cons.mp h with rfl | h
    · rw [length_take]
      exact Nat.min_le_left _ _
    · exact ih h

theorem sum_chunks (f : α → Nat) (n : Nat) (xs : List α) :
    ((chunks n xs).map fun c => (c.map f).sum).sum = (xs.map f).sum := by
  have hflat : ((chunks n xs).flatten.map f).sum =
      ((chunks n xs).map fun c => (c.map f).sum).sum := by
    rw [map_flatten, sum_flatten, List.map_map]
    rfl
  rw [← hflat, chunks_flatten]

end Xlfn.Lib
