import Mathlib.Tactic.Cases

/-!
# Xlfn — computations that unwind

A computation over a state may return, unwind or abort the process. Unwinding runs the destructors
of the scopes it leaves; a destructor that unwinds while another panic is unwinding aborts. `wp m Q`
is the weakest precondition of `m` for a postcondition with one part for each way to end, and each
combinator has a rule that turns its `wp` into those of its parts.

* `withDrop` — a local whose destructor runs however its scope is left.
* `onUnwind` — a local that is moved on when its scope returns.
* `catchUnwind` — a boundary that consumes a panic.
-/

namespace Xlfn.Lib

-- ---- Computations.

/-- How a computation ends. -/
inductive Exit (α : Type)
  | returned (a : α)
  | unwound
  | aborted
deriving DecidableEq

/-- A computation over a state of type `σ`. -/
def Comp (σ α : Type) : Type := σ → Exit α × σ

namespace Comp

variable {σ α β : Type}

instance : Monad (Comp σ) where
  pure a := fun s => (.returned a, s)
  bind m f := fun s =>
    match m s with
    | (.returned a, s) => f a s
    | (.unwound, s) => (.unwound, s)
    | (.aborted, s) => (.aborted, s)

def get : Comp σ σ := fun s => (.returned s, s)

def modify (f : σ → σ) : Comp σ Unit := fun s => (.returned (), f s)

def unwind : Comp σ α := fun s => (.unwound, s)

def abort : Comp σ α := fun s => (.aborted, s)

/-- `m`, in the scope of a local with destructor `d`. -/
def withDrop (m : Comp σ α) (d : Comp σ Unit) : Comp σ α := fun s =>
  match m s with
  | (.returned a, s) => (d >>= fun _ => pure a) s
  | (.unwound, s) =>
    match d s with
    | (.returned _, s) => (.unwound, s)
    | (.unwound, s) => (.aborted, s)
    | (.aborted, s) => (.aborted, s)
  | (.aborted, s) => (.aborted, s)

/-- `m`, while a local with destructor `d` is alive that is moved on when `m` returns. -/
def onUnwind (m : Comp σ α) (d : Comp σ Unit) : Comp σ α := fun s =>
  match m s with
  | (.unwound, s) =>
    match d s with
    | (.returned _, s) => (.unwound, s)
    | (.unwound, s) => (.aborted, s)
    | (.aborted, s) => (.aborted, s)
  | ended => ended

/-- `m`, its panic consumed: `none` where it unwound. -/
def catchUnwind (m : Comp σ α) : Comp σ (Option α) := fun s =>
  match m s with
  | (.returned a, s) => (.returned (some a), s)
  | (.unwound, s) => (.returned none, s)
  | (.aborted, s) => (.aborted, s)

end Comp

open Comp

-- ---- Weakest preconditions.

variable {σ α β : Type}

/-- A postcondition, with one part for each way to end. -/
structure Post (σ α : Type) where
  returned : α → σ → Prop
  unwound  : σ → Prop
  aborted  : σ → Prop

def Post.Holds (Q : Post σ α) : Exit α × σ → Prop
  | (.returned a, s) => Q.returned a s
  | (.unwound, s) => Q.unwound s
  | (.aborted, s) => Q.aborted s

/-- The weakest precondition of `m` for `Q`. -/
def wp (m : Comp σ α) (Q : Post σ α) (s : σ) : Prop := Q.Holds (m s)

variable {m : Comp σ α} {d : Comp σ Unit} {Q Q' : Post σ α} {s : σ}

@[simp] theorem wp_pure (a : α) : wp (pure a : Comp σ α) Q s = Q.returned a s := rfl

@[simp] theorem wp_get {Q : Post σ σ} : wp get Q s = Q.returned s s := rfl

@[simp] theorem wp_modify {f : σ → σ} {Q : Post σ Unit} :
    wp (modify f) Q s = Q.returned () (f s) := rfl

@[simp] theorem wp_unwind : wp (unwind : Comp σ α) Q s = Q.unwound s := rfl

@[simp] theorem wp_abort : wp (abort : Comp σ α) Q s = Q.aborted s := rfl

@[simp] theorem wp_bind {f : α → Comp σ β} {Q : Post σ β} :
    wp (m >>= f) Q s = wp m ⟨fun a => wp (f a) Q, Q.unwound, Q.aborted⟩ s := by
  simp only [wp, Bind.bind]
  cases m s with
  | mk ended t => cases ended <;> rfl

@[simp] theorem wp_withDrop : wp (withDrop m d) Q s =
      wp m ⟨fun a => wp d ⟨fun _ => Q.returned a, Q.unwound, Q.aborted⟩,
        wp d ⟨fun _ => Q.unwound, Q.aborted, Q.aborted⟩, Q.aborted⟩ s := by
  unfold wp withDrop
  cases m s with
  | mk ended t =>
    cases ended with
    | returned a => exact wp_bind (m := d)
    | aborted => rfl
    | unwound =>
      simp only [Post.Holds]
      cases d t with
      | mk ended u => cases ended <;> rfl

@[simp] theorem wp_onUnwind : wp (onUnwind m d) Q s =
      wp m ⟨Q.returned, wp d ⟨fun _ => Q.unwound, Q.aborted, Q.aborted⟩, Q.aborted⟩ s := by
  unfold wp onUnwind
  cases m s with
  | mk ended t =>
    cases ended with
    | returned a => rfl
    | aborted => rfl
    | unwound =>
      simp only [Post.Holds]
      cases d t with
      | mk ended u => cases ended <;> rfl

@[simp] theorem wp_catchUnwind {Q : Post σ (Option α)} : wp (catchUnwind m) Q s =
      wp m ⟨fun a => Q.returned (some a), Q.returned none, Q.aborted⟩ s := by
  unfold wp catchUnwind
  cases m s with
  | mk ended t => cases ended <;> rfl

/-- **The rule of consequence.** -/
theorem wp_mono (h : wp m Q s) (hreturned : ∀ a t, Q.returned a t → Q'.returned a t)
    (hunwound : ∀ t, Q.unwound t → Q'.unwound t) (haborted : ∀ t, Q.aborted t → Q'.aborted t) :
    wp m Q' s := by
  unfold wp at h ⊢
  generalize m s = ended at h ⊢
  match ended, h with
  | (.returned a, t), h => exact hreturned a t h
  | (.unwound, t), h => exact hunwound t h
  | (.aborted, t), h => exact haborted t h

end Xlfn.Lib
