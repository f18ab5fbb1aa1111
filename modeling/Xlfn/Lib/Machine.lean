import Mathlib.Data.List.Basic
import Mathlib.Tactic.Cases

/-!
# Xlfn — labelled machines and their runs

A machine is an executable step function `step : σ → α → Option σ`: from a state
and an action it gives the next state, or `none` where the action is not
enabled. An interleaving is a list of actions. Everything the development says
about "every interleaving" or "every reachable state" is a statement about
`run`, and every such statement is proved through one of the rules below.

* `Meets` — every step of a run satisfies a condition on the state it starts from.
-/

namespace Xlfn.Lib

variable {σ α : Type*} {step : σ → α → Option σ}

/-- Perform a list of actions from a state; `none` as soon as one of them is not
enabled. -/
def run (step : σ → α → Option σ) : σ → List α → Option σ
  | s, [] => some s
  | s, a :: as => (step s a).bind fun s' => run step s' as

@[simp] theorem run_nil (s : σ) : run step s [] = some s := rfl

@[simp] theorem run_cons (s : σ) (a : α) (as : List α) :
    run step s (a :: as) = (step s a).bind fun s' => run step s' as := rfl

/-- Runs compose, so a witness run is the concatenation of its parts. -/
theorem run_append (s : σ) (as bs : List α) :
    run step s (as ++ bs) = (run step s as).bind fun s' => run step s' bs := by
  induction as generalizing s with
  | nil => rfl
  | cons a as ih =>
    rw [List.cons_append, run_cons, run_cons, Option.bind_assoc]
    congr 1
    funext s'
    exact ih s'

/-- A state some run from `init` ends in. -/
def Reachable (step : σ → α → Option σ) (init s : σ) : Prop :=
  ∃ as : List α, run step init as = some s

/-- Every action of the run is taken in a state where `ok` allows it. -/
def Meets (step : σ → α → Option σ) (ok : σ → α → Prop) : σ → List α → Prop
  | _, [] => True
  | s, a :: as => ok s a ∧ ∀ s', step s a = some s' → Meets step ok s' as

instance Meets.decidable {ok : σ → α → Prop} [∀ s a, Decidable (ok s a)] :
    ∀ (s : σ) (as : List α), Decidable (Meets step ok s as)
  | _, [] => isTrue trivial
  | s, a :: as =>
    match h : step s a with
    | none => decidable_of_iff (ok s a) (by simp [Meets, h])
    | some s' =>
      have : Decidable (Meets step ok s' as) := Meets.decidable s' as
      decidable_of_iff (ok s a ∧ Meets step ok s' as) (by simp [Meets, h])

variable {ok : σ → α → Prop} {I : σ → Prop} {as : List α}

/-- **The invariant rule for guarded runs.** What every allowed step keeps holds
at the end of every run whose steps are all allowed. -/
theorem run_invariant_of_meets (hstep : ∀ s a s', I s → ok s a → step s a = some s' → I s') :
    ∀ (as : List α) (s s' : σ), I s → Meets step ok s as → run step s as = some s' → I s' := by
  intro as
  induction as with
  | nil =>
    intro s s' hI _ hrun
    cases hrun
    exact hI
  | cons a as ih =>
    intro s s' hI hok hrun
    obtain ⟨t, ht, hrest⟩ := Option.bind_eq_some_iff.mp hrun
    exact ih t s' (hstep s a t hI hok.1 ht) (hok.2 t ht) hrest

theorem Meets.of_append {bs : List α} {s : σ} (h : Meets step ok s (as ++ bs)) :
    Meets step ok s as := by
  induction as generalizing s with
  | nil => exact trivial
  | cons a as ih => exact ⟨h.1, fun s' hs => ih (h.2 s' hs)⟩

theorem Meets.of_append_right {bs : List α} {s t : σ} (h : Meets step ok s (as ++ bs))
    (hrun : run step s as = some t) : Meets step ok t bs := by
  induction as generalizing s with
  | nil =>
    cases hrun
    exact h
  | cons a as ih =>
    obtain ⟨u, hu, hrest⟩ := Option.bind_eq_some_iff.mp hrun
    exact ih (h.2 u hu) hrest

theorem Meets.and {ok' : σ → α → Prop} {s : σ} (h : Meets step ok s as) (h' : Meets step ok' s as) :
    Meets step (fun s a => ok s a ∧ ok' s a) s as := by
  induction as generalizing s with
  | nil => exact trivial
  | cons a as ih => exact ⟨⟨h.1, h'.1⟩, fun s' hs => ih (h.2 s' hs) (h'.2 s' hs)⟩

theorem meets_true (s : σ) (as : List α) : Meets step (fun _ _ => True) s as := by
  induction as generalizing s with
  | nil => exact trivial
  | cons a as ih => exact ⟨trivial, fun s' _ => ih s'⟩

/-- **The invariant rule.** What every step keeps holds at the end of every run. -/
theorem run_invariant (hstep : ∀ s a s', I s → step s a = some s' → I s') {s s' : σ} (hI : I s)
    (hrun : run step s as = some s') : I s' :=
  run_invariant_of_meets (fun s a s' hs _ h => hstep s a s' hs h) as s s' hI (meets_true s as) hrun

theorem Reachable.invariant {init s : σ} (hstep : ∀ s a s', I s → step s a = some s' → I s')
    (hI : I init) (hs : Reachable step init s) : I s := by
  obtain ⟨as, hrun⟩ := hs
  exact run_invariant hstep hI hrun

/-- **What became true in a run became true in one of its steps.** -/
theorem exists_step_of_run {P : σ → Prop} {s s' : σ} (hrun : run step s as = some s')
    (hbefore : ¬P s) (hafter : P s') :
    ∃ as₁ a as₂ t t', as = as₁ ++ a :: as₂ ∧ run step s as₁ = some t ∧ step t a = some t' ∧
      ¬P t ∧ P t' := by
  induction as generalizing s with
  | nil =>
    cases hrun
    exact absurd hafter hbefore
  | cons a as ih =>
    obtain ⟨t, ht, hrest⟩ := Option.bind_eq_some_iff.mp hrun
    by_cases hP : P t
    · exact ⟨[], a, as, s, t, rfl, rfl, ht, hbefore, hP⟩
    · obtain ⟨as₁, b, as₂, u, u', rfl, hu, hb, hnot, hyes⟩ := ih hrest hP
      refine ⟨a :: as₁, b, as₂, u, u', rfl, ?_, hb, hnot, hyes⟩
      rw [run_cons, ht]
      exact hu

/-- **The progress rule.** Where, short of the goal, an action of the given kind leads to
a smaller measure, a run of such actions reaches the goal. -/
theorem exists_run_of_decreasing {G : σ → Prop} {P : α → Prop} (measure : σ → Nat)
    (hstep : ∀ s, I s → ¬ G s →
      ∃ a s', P a ∧ step s a = some s' ∧ I s' ∧ measure s' < measure s) (s : σ) (hI : I s) :
    ∃ as s', (∀ a ∈ as, P a) ∧ run step s as = some s' ∧ I s' ∧ G s' := by
  induction hn : measure s using Nat.strongRecOn generalizing s with
  | _ n ih =>
    by_cases hgoal : G s
    · exact ⟨[], s, fun a ha => absurd ha List.not_mem_nil, rfl, hI, hgoal⟩
    · obtain ⟨a, t, ha, hs, ht, hlt⟩ := hstep s hI hgoal
      obtain ⟨as, s', has, hrun, hI', hgoal'⟩ := ih (measure t) (hn ▸ hlt) t ht rfl
      refine ⟨a :: as, s', fun b hb => ?_, ?_, hI', hgoal'⟩
      · rcases List.mem_cons.mp hb with rfl | hb
        · exact ha
        · exact has b hb
      · rw [run_cons, hs]
        exact hrun

end Xlfn.Lib
