import Mathlib.Tactic.Cases

/-!
# Xlfn — computations that fail

A computation over a state that returns a value or an error; what it did to the state before it
failed stays done. `wp m Q` is the weakest precondition of `m` for a postcondition with one part
for each way to end, and each combinator has a rule that turns its `wp` into those of its parts.

* `withLocal` — a computation with a local variable.
* `Act.Moves` — what a computation does to the state, however it ends.
-/

namespace Xlfn.Lib

-- ---- Computations.

/-- A computation over a state of type `σ` with errors of type `ε`. -/
def Act (σ ε α : Type) : Type := σ → Except ε α × σ

namespace Act

variable {σ τ ε α β : Type}

instance : Monad (Act σ ε) where
  pure a := fun s => (.ok a, s)
  bind m f := fun s =>
    match m s with
    | (.ok a, s) => f a s
    | (.error e, s) => (.error e, s)

def get : Act σ ε σ := fun s => (.ok s, s)

def modify (f : σ → σ) : Act σ ε Unit := fun s => (.ok (), f s)

def fail (e : ε) : Act σ ε α := fun s => (.error e, s)

/-- `m`, its error as a value. -/
def attempt (m : Act σ ε α) : Act σ ε (Except ε α) := fun s =>
  match m s with
  | (result, s) => (.ok result, s)

/-- `m`, with another error. -/
def mapError (f : ε → ε) (m : Act σ ε α) : Act σ ε α := fun s =>
  match m s with
  | (.ok a, s) => (.ok a, s)
  | (.error e, s) => (.error (f e), s)

/-- `m` beside a local variable. -/
def lift (m : Act σ ε α) : Act (σ × τ) ε α := fun s =>
  match m s.1 with
  | (result, t) => (result, t, s.2)

/-- `m` with a local variable, whose last value decides about the error. -/
def withLocal (first : τ) (f : τ → ε → ε) (m : Act (σ × τ) ε α) : Act σ ε α := fun s =>
  match m (s, first) with
  | (.ok a, s, _) => (.ok a, s)
  | (.error e, s, last) => (.error (f last e), s)

def setLocal (value : τ) : Act (σ × τ) ε Unit := modify fun s => (s.1, value)

-- ---- Weakest preconditions.

/-- A postcondition, with one part for each way to end. -/
structure Post (σ ε α : Type) where
  ok    : α → σ → Prop
  error : ε → σ → Prop

def Post.Holds (Q : Post σ ε α) : Except ε α × σ → Prop
  | (.ok a, s) => Q.ok a s
  | (.error e, s) => Q.error e s

/-- The weakest precondition of `m` for `Q`. -/
def wp (m : Act σ ε α) (Q : Post σ ε α) (s : σ) : Prop := Q.Holds (m s)

variable {m n : Act σ ε α} {Q Q' : Post σ ε α} {s t : σ}

@[simp] theorem wp_pure (a : α) : wp (pure a : Act σ ε α) Q s = Q.ok a s := rfl

@[simp] theorem wp_get {Q : Post σ ε σ} : wp get Q s = Q.ok s s := rfl

@[simp] theorem wp_modify {f : σ → σ} {Q : Post σ ε Unit} : wp (modify f) Q s = Q.ok () (f s) := rfl

@[simp] theorem wp_fail {e : ε} : wp (fail e : Act σ ε α) Q s = Q.error e s := rfl

variable {f : α → Act σ ε β}

/-- A sequence: the rest runs from wherever the first action ends well. -/
@[simp] theorem wp_bind {Q : Post σ ε β} :
    wp (m >>= f) Q s = wp m ⟨fun a => wp (f a) Q, Q.error⟩ s := by
  simp only [wp, Bind.bind]
  cases m s with
  | mk ended t => cases ended <;> rfl

/-- An attempt turns an error into a value. -/
@[simp] theorem wp_attempt {Q : Post σ ε (Except ε α)} :
    wp (attempt m) Q s = wp m ⟨fun a => Q.ok (.ok a), fun e => Q.ok (.error e)⟩ s := by
  unfold wp attempt
  cases m s with
  | mk ended t => cases ended <;> rfl

/-- Renaming the error leaves the good outcomes alone. -/
@[simp] theorem wp_mapError {f : ε → ε} :
    wp (mapError f m) Q s = wp m ⟨Q.ok, fun e => Q.error (f e)⟩ s := by
  unfold wp mapError
  cases m s with
  | mk ended t => cases ended <;> rfl

/-- A lifted action keeps the local value. -/
@[simp] theorem wp_lift {Q : Post (σ × τ) ε α} {s : σ × τ} :
    wp (lift m) Q s = wp m ⟨fun a t => Q.ok a (t, s.2), fun e t => Q.error e (t, s.2)⟩ s.1 := by
  unfold wp lift
  cases m s.1 with
  | mk ended t => cases ended <;> rfl

/-- The local value lives only as long as its scope. -/
@[simp] theorem wp_withLocal {first : τ} {f : τ → ε → ε} {m : Act (σ × τ) ε α} :
    wp (withLocal first f m) Q s =
      wp m ⟨fun a t => Q.ok a t.1, fun e t => Q.error (f t.2 e) t.1⟩ (s, first) := by
  unfold wp withLocal
  cases m (s, first) with
  | mk ended t => cases ended <;> rfl

@[simp] theorem wp_setLocal {value : τ} {Q : Post (σ × τ) ε Unit} {s : σ × τ} :
    wp (setLocal value) Q s = Q.ok () (s.1, value) := rfl

/-- A branch. -/
theorem wp_ite {c : Prop} [Decidable c] :
    wp (if c then m else n) Q s = if c then wp m Q s else wp n Q s := by
  split <;> rfl

/-- **The rule of consequence.** -/
theorem wp_mono (h : wp m Q s) (hok : ∀ a t, Q.ok a t → Q'.ok a t)
    (herror : ∀ e t, Q.error e t → Q'.error e t) : wp m Q' s := by
  unfold wp at h ⊢
  generalize m s = ended at h ⊢
  match ended, h with
  | (.ok a, t), h => exact hok a t h
  | (.error e, t), h => exact herror e t h

/-- Where every error will do, only the rest matters. -/
theorem wp_rest {Q : Post σ ε β} (herror : ∀ e t, Q.error e t) (hf : ∀ a t, wp (f a) Q t) :
    wp (m >>= f) Q s := by
  rw [wp_bind]
  unfold wp
  generalize m s = ended
  match ended with
  | (.ok a, t) => exact hf a t
  | (.error e, t) => exact herror e t

-- ---- Frames.

/-- What a computation may do to a state: nothing, and one thing after the other. -/
structure Frame (σ : Type) where
  rel   : σ → σ → Prop
  refl  : ∀ s, rel s s
  trans : ∀ {s t u}, rel s t → rel t u → rel s u

/-- However `m` ends, it stays in the frame. -/
def Moves (F : Frame σ) (m : Act σ ε α) : Prop := ∀ s, F.rel s (m s).2

variable {F : Frame σ}

theorem Moves.pure (a : α) : Moves F (pure a : Act σ ε α) := F.refl

theorem Moves.get : Moves F (get : Act σ ε σ) := F.refl

theorem Moves.fail (e : ε) : Moves F (fail e : Act σ ε α) := F.refl

/-- Frames compose along a sequence. -/
theorem Moves.bind (hm : Moves F m) (hf : ∀ a, Moves F (f a)) : Moves F (m >>= f) := by
  intro s
  have h := hm s
  simp only [Bind.bind]
  cases hend : m s with
  | mk ended t =>
    rw [hend] at h
    cases ended with
    | ok a => exact F.trans h (hf a t)
    | error e => exact h

/-- A frame of an action that begins by looking at the state. -/
theorem Moves.get_bind {f : σ → Act σ ε β} (hf : ∀ s, F.rel s (f s s).2) :
    Moves F (Act.get >>= f) := hf

/-- Turning the error into a value moves no more. -/
theorem Moves.attempt (hm : Moves F m) : Moves F (attempt m) := hm

/-- Nor does renaming it. -/
theorem Moves.mapError {f : ε → ε} (hm : Moves F m) : Moves F (mapError f m) := by
  intro s
  have h := hm s
  unfold Act.mapError
  cases hend : m s with
  | mk ended t =>
    rw [hend] at h
    cases ended <;> exact h

/-- A frame of both branches. -/
theorem Moves.ite {c : Prop} [Decidable c] (hm : Moves F m) (hn : Moves F n) :
    Moves F (if c then m else n) := by
  split
  · exact hm
  · exact hn

/-- A frame read as a postcondition, on either outcome. -/
theorem Moves.ends (hm : Moves F m) (s : σ) :
    wp m ⟨fun _ t => F.rel s t, fun _ t => F.rel s t⟩ s := by
  have h := hm s
  unfold Act.wp
  cases hend : m s with
  | mk ended t =>
    rw [hend] at h
    cases ended with
    | ok a => exact h
    | error e => exact h

/-- A postcondition that the frame alone gives. -/
theorem wp_of_moves (hm : Moves F m) (hok : ∀ a t, F.rel s t → Q.ok a t)
    (herror : ∀ e t, F.rel s t → Q.error e t) : wp m Q s :=
  wp_mono (hm.ends s) hok herror

variable {n : Act σ ε β}

/-- **The rule for a sequence.** -/
theorem bind_spec {R : Post σ ε β} {f : β → Act σ ε α} (hn : wp n R s)
    (hf : ∀ a t, R.ok a t → wp (f a) Q t) (herror : ∀ e t, R.error e t → Q.error e t) :
    wp (n >>= f) Q s := by
  rw [wp_bind]
  exact wp_mono hn hf herror

/-- The rule for a lifted action, then the rest. -/
theorem lift_spec {R : Post σ ε β} {f : β → Act (σ × τ) ε α} {Q : Post (σ × τ) ε α} {s : σ × τ}
    (hn : wp n R s.1) (hf : ∀ a t, R.ok a t → wp (f a) Q (t, s.2))
    (herror : ∀ e t, R.error e t → Q.error e (t, s.2)) : wp (Act.lift n >>= f) Q s := by
  rw [wp_bind, wp_lift]
  exact wp_mono hn hf herror

/-- A lifted action of which nothing is known. -/
theorem lift_rest {f : β → Act (σ × τ) ε α} {Q : Post (σ × τ) ε α} {s : σ × τ}
    (herror : ∀ e t, Q.error e (t, s.2)) (hf : ∀ a t, wp (f a) Q (t, s.2)) :
    wp (Act.lift n >>= f) Q s := by
  rw [wp_bind, wp_lift]
  unfold wp
  generalize n s.1 = ended
  match ended with
  | (.ok a, t) => exact hf a t
  | (.error e, t) => exact herror e t

/-- The rule for an attempt at a lifted action. -/
theorem attempt_lift_spec {R : Post σ ε β} {f : Except ε β → Act (σ × τ) ε α} {Q : Post (σ × τ) ε α}
    {s : σ × τ} (hn : wp n R s.1) (hf : ∀ a t, R.ok a t → wp (f (.ok a)) Q (t, s.2))
    (herror : ∀ e t, R.error e t → wp (f (.error e)) Q (t, s.2)) :
    wp (Act.attempt (Act.lift n) >>= f) Q s := by
  rw [wp_bind, wp_attempt, wp_lift]
  exact wp_mono hn hf herror

/-- An attempt of which nothing is known. -/
theorem attempt_lift_rest {f : Except ε β → Act (σ × τ) ε α} {Q : Post (σ × τ) ε α} {s : σ × τ}
    (herror : ∀ e t, wp (f (.error e)) Q (t, s.2)) (hf : ∀ a t, wp (f (.ok a)) Q (t, s.2)) :
    wp (Act.attempt (Act.lift n) >>= f) Q s := by
  rw [wp_bind, wp_attempt, wp_lift]
  unfold wp
  generalize n s.1 = ended
  match ended with
  | (.ok a, t) => exact hf a t
  | (.error e, t) => exact herror e t

/-- A postcondition together with a frame. -/
theorem Moves.and (hm : Moves F m) (h : wp m Q s) :
    wp m ⟨fun a t => Q.ok a t ∧ F.rel s t, fun e t => Q.error e t ∧ F.rel s t⟩ s := by
  have hrel := hm s
  unfold Act.wp at h ⊢
  cases hend : m s with
  | mk ended t =>
    rw [hend] at h hrel
    cases ended with
    | ok a => exact ⟨h, hrel⟩
    | error e => exact ⟨h, hrel⟩

end Act

end Xlfn.Lib
