import Xlfn.Kernel.DrainWait

/-!
# Xlfn — what the owners of a gate do with its control claim

The owners of a striped gate use its control claim in three ways only:
`control().seal()`, `control().seal().wait()` and
`control().wait_if_sealed().unwrap_or_else(fail_stop).reopen()`, each followed by
dropping the claim. This module runs such a chain as a procedure on a
`GateSystem`, one access a step, and says what each chain achieves.

* `Visits` — what a call of `try_enter` or the next access of a user leaves
  alone: the sealed bits, the holder of the claim, and every other user.
* `Drives` — what a step of a chain leaves alone: the users and their counts.
* `Places` — clients that each have a place of their own among the users.
-/

namespace Xlfn.Kernel

open Lib StripedDrainGate List Option

-- ---- Places among the users of a family of gates.

/-- Every client that has a place has it among the `len g` users of its gate, and
no two clients have the same one. -/
structure Places {ι : Type} (len : ι → Nat) (refs : List (Option (ι × Nat))) : Prop where
  bounded  : ∀ (k : Nat) g u, refs[k]? = some (some (g, u)) → u < len g
  distinct : ∀ (k k' : Nat) p, refs[k]? = some (some p) → refs[k']? = some (some p) → k = k'

namespace Places

variable {ι : Type} {len len' : ι → Nat} {refs : List (Option (ι × Nat))}

/-- A longer list of users keeps every place. -/
theorem mono (h : Places len refs) (hlen : ∀ g, len g ≤ len' g) : Places len' refs where
  bounded k g u hk := Nat.lt_of_lt_of_le (h.bounded k g u hk) (hlen g)
  distinct := h.distinct

/-- Forgetting a place, or copying one. -/
theorem set (h : Places len refs) {k : Nat} {p : Option (ι × Nat)}
    (hp : p = none ∨ refs[k]? = some p) : Places len (refs.set k p) := by
  have hold : ∀ {j : Nat} {q : ι × Nat}, (refs.set k p)[j]? = some (some q) →
      refs[j]? = some (some q) := by
    intro j q hj
    by_cases hjk : k = j
    · subst hjk
      rw [getElem?_set_self'] at hj
      rcases hp with rfl | hp
      · cases hr : refs[k]? with
        | none | some _ =>
          rw [hr] at hj
          cases hj
      · rw [hp] at hj ⊢
        exact hj
    · rwa [getElem?_set_ne hjk] at hj
  exact ⟨fun j g u hj => h.bounded j g u (hold hj),
    fun j j' q hj hj' => h.distinct j j' q (hold hj) (hold hj')⟩

/-- The place of the user who has just entered. -/
theorem set_fresh (h : Places len refs) {k : Nat} {g : ι} (hlen : ∀ g', len g' ≤ len' g')
    (hg : len g < len' g) : Places len' (refs.set k (some (g, len g))) := by
  have hold : ∀ {j : Nat} {q : ι × Nat}, (refs.set k (some (g, len g)))[j]? = some (some q) →
      (j = k ∧ q = (g, len g)) ∨ refs[j]? = some (some q) := by
    intro j q hj
    by_cases hjk : k = j
    · subst hjk
      rw [getElem?_set_self'] at hj
      cases hr : refs[k]? with
      | none =>
        rw [hr] at hj
        cases hj
      | some _ =>
        rw [hr] at hj
        cases hj
        exact .inl ⟨rfl, rfl⟩
    · rw [getElem?_set_ne hjk] at hj
      exact .inr hj
  have hnew : ∀ {j : Nat}, refs[j]? ≠ some (some (g, len g)) :=
    fun hj => Nat.lt_irrefl _ (h.bounded _ g _ hj)
  refine ⟨fun j g' u hj => ?_, fun j j' q hj hj' => ?_⟩
  · rcases hold hj with ⟨-, hq⟩ | hj
    · cases hq
      exact hg
    · exact Nat.lt_of_lt_of_le (h.bounded j g' u hj) (hlen g')
  · rcases hold hj with ⟨rfl, rfl⟩ | hold_j
    · rcases hold hj' with ⟨rfl, -⟩ | hold_j'
      · rfl
      · exact absurd hold_j' hnew
    · rcases hold hj' with ⟨-, rfl⟩ | hold_j'
      · exact absurd hold_j hnew
      · exact h.distinct j j' q hold_j hold_j'

/-- A thread with no place. -/
theorem append (h : Places len refs) : Places len (refs ++ [none]) := by
  have hold : ∀ {j : Nat} {q : ι × Nat}, (refs ++ [none])[j]? = some (some q) →
      refs[j]? = some (some q) := by
    intro j q hj
    rcases getElem?_append_singleton_cases hj with hold | ⟨-, hq⟩
    · exact hold
    · cases hq
  exact ⟨fun j g u hj => h.bounded j g u (hold hj),
    fun j j' q hj hj' => h.distinct j j' q (hold hj) (hold hj')⟩

end Places

namespace GateSystem

variable {w N : Nat} {s s' : GateSystem w N} {kind : GateKind}

-- ---- Users, seen from the owner of the gate.

/-- The moves of users, as the owner of the gate sees them. -/
structure Visits (s s' : GateSystem w N) : Prop where
  keep    : ReadersKeep s.gate s'.gate
  manager : s'.manager = s.manager

variable {r : Nat}

/-- A step of a user is a visit. -/
theorem visits_of_user (hinv : s.Inv) (h : s.step kind (.user r) = some s') : Visits s s' := by
  unfold GateSystem.step at h
  split at h
  next => cases h
  next =>
    have hmove := userMove_of_userStep h
    exact ⟨hmove.keep hinv.toUsersInv, hmove.manager⟩

/-- A user moves alone. -/
theorem users_of_user (h : s.step kind (.user r) = some s') :
    s'.users.length = s.users.length ∧ ∀ r', r' ≠ r → s'.users[r']? = s.users[r']? := by
  unfold GateSystem.step at h
  split at h
  next => cases h
  next =>
    have hset : ∀ x : GateUser N, (s.users.set r x).length = s.users.length ∧
        ∀ r', r' ≠ r → (s.users.set r x)[r']? = s.users[r']? :=
      fun x => ⟨length_set, fun r' hr => getElem?_set_ne (Ne.symm hr)⟩
    cases userMove_of_userStep h with
    | overflow | underflow => exact ⟨rfl, fun _ _ => rfl⟩
    | _ => exact hset _

/-- Whoever enters an open stripe is admitted, or the count overflows. -/
theorem enter_of_open {stripe : Fin N} (hx : s.users[r]? = some (.entering stripe))
    (hopen : isSealed (s.gate.counters stripe) = false) (h : s.step kind (.user r) = some s') :
    s'.users[r]? = some (.holding stripe) ∨ s'.aborted.isSome ∧ s'.users = s.users := by
  have hlt : r < s.users.length := (List.getElem_of_getElem? hx).1
  unfold GateSystem.step at h
  split at h
  next => cases h
  next =>
    simp only [userStep, hx] at h
    rcases acquireStep_spec (s.gate.counters stripe) with ⟨hs, -⟩ | ⟨-, -, heq⟩ | ⟨-, t, heq, -⟩
    · rw [hopen] at hs
      cases hs
    · rw [heq] at h
      cases h
      exact .inr ⟨rfl, rfl⟩
    · rw [heq] at h
      cases h
      exact .inl (getElem?_set_self hlt)

/-- `try_enter` by a new user, before its read-modify-write. -/
def admitted (s : GateSystem w N) (stripe : Fin N) : GateSystem w N :=
  { s with users := s.users ++ [.entering stripe] }

/-- Admitting a user keeps the invariant. -/
theorem admitted_inv (hinv : s.Inv) (stripe : Fin N) (habort : s.aborted = none) :
    (s.admitted stripe).Inv := by
  have hstep : s.step .striped (.enter stripe) = some (s.admitted stripe) := by
    simp [step, habort, admitted]
  exact hinv.step hstep

theorem admitted_visits (stripe : Fin N) : Visits s (s.admitted stripe) := ⟨.refl s.gate, rfl⟩

/-- A gate with a permit out is not idle. -/
theorem Inv.not_allIdle (hinv : s.Inv) {x : GateUser N} (hx : s.users[r]? = some x) {i : Fin N}
    (hholds : x.holds i = true) : ¬s.gate.AllIdle := by
  intro hidle
  have hpos := hinv.active_pos hx hholds
  rw [(hidle i).2] at hpos
  exact absurd hpos (Nat.lt_irrefl 0)

-- ---- The holder of the claim.

/-- A step of the holder of the claim. -/
structure Drives (s s' : GateSystem w N) : Prop where
  users   : s'.users = s.users
  aborted : s'.aborted = s.aborted

/-- The manager moves no count. -/
theorem Drives.active (h : Drives s s') (hinv : s.Inv) (hinv' : s'.Inv) (i : Fin N) :
    active (s'.gate.counters i) = active (s.gate.counters i) := by
  rw [hinv'.counted, hinv.counted, h.users]

theorem drives_goto (s : GateSystem w N) (gate : StripedDrainGate w N) (m : GateManager w) :
    Drives s (s.goto gate m) := ⟨rfl, rfl⟩

/-- The manager's step, where nothing has aborted. -/
theorem step_manage (habort : s.aborted = none) {m : GateManager w} (hm : s.manager = some m) :
    s.step kind .manage = s.manage m := by
  simp [step, habort, hm]

/-- Beginning an operation, where nothing has aborted. -/
theorem step_begin (habort : s.aborted = none) {phase : ControlPhase}
    (hm : s.manager = some (.ready phase)) (op : ControlOp) :
    s.step kind (.begin op) = s.begin kind phase op := by
  simp [step, habort, hm]

/-- One access of a seal: the gate is driven, and ends sealed. -/
theorem manage_sealing (hinv : s.Inv) {proc : SealProc} (hm : s.manager = some (.sealing proc))
    (h : s.manage (.sealing proc) = some s') :
    Drives s s' ∧ (s.gate.AllSealed → s'.gate.AllSealed) ∧
      ((∃ proc', s'.manager = some (.sealing proc')) ∨ s'.manager = some (.ready .sealed)) := by
  simp only [manage] at h
  obtain ⟨out, hout, rfl⟩ := map_eq_some_iff.mp h
  have hyields := proc.step_yields hout (hinv.stage _ hm) (hinv.lock_of hm)
  cases out with
  | running gate next =>
    exact ⟨drives_goto .., fun hs i => hyields.1.stays i (hs i), .inl ⟨_, rfl⟩⟩
  | done gate ok => exact ⟨drives_goto .., fun hs i => hyields.1.stays i (hs i), .inr rfl⟩
  | failStop => exact hyields.elim

/-- One access of a reopening. -/
theorem manage_reopening (hinv : s.Inv) {proc : ReopenProc}
    (hm : s.manager = some (.reopening proc)) (h : s.manage (.reopening proc) = some s') :
    Drives s s' ∧
      ((∃ proc', s'.manager = some (.reopening proc')) ∨ s'.manager = some (.ready .opened)) := by
  have hinv' := hinv.manage hm h
  simp only [manage] at h
  obtain ⟨out, -, rfl⟩ := map_eq_some_iff.mp h
  cases out with
  | running gate proc' => exact ⟨drives_goto .., .inl ⟨proc', rfl⟩⟩
  | done gate ok =>
    cases ok with
    | true => exact ⟨drives_goto .., .inr rfl⟩
    | false => rcases hinv'.aborts with h' | h' <;> cases h'
  | failStop => rcases hinv'.aborts with h' | h' <;> cases h'

/-- One access of a wait: what was sealed stays sealed. -/
theorem manage_waiting (hinv : s.Inv) {result : ControlPhase} {proc : WaitProc}
    (hm : s.manager = some (.waiting result proc)) (h : s.manage (.waiting result proc) = some s') :
    Drives s s' ∧ (s.gate.AllSealed → s'.gate.AllSealed) ∧
      ((∃ proc', s'.manager = some (.waiting result proc')) ∨
        s'.manager = some (.ready result)) := by
  simp only [manage] at h
  obtain ⟨out, hout, rfl⟩ := map_eq_some_iff.mp h
  have hyields := (hinv.stage _ hm).2.2.step (hinv.lock_of hm) hout
  cases out with
  | running gate next =>
    cases next with
    | lock | observe i idle => exact ⟨drives_goto .., hyields.1.allSealed, .inl ⟨_, rfl⟩⟩
    | parked => exact ⟨⟨rfl, rfl⟩, hyields.1.allSealed, .inl ⟨_, rfl⟩⟩
  | done gate ok => exact ⟨drives_goto .., hyields.1.allSealed, .inr rfl⟩
  | failStop => exact hyields.elim

/-- One access of the check before a wait. -/
theorem manage_checking {i : Nat} (hsealed : s.gate.AllSealed)
    (h : s.manage (.checking i) = some s') :
    Drives s s' ∧ s'.gate = s.gate ∧
      (s'.manager = some (.checking (i + 1)) ∨ s'.manager = some (.waiting .drained .lock)) := by
  simp only [manage] at h
  split at h
  next hi =>
    have hs : isSealed (s.gate.counters ⟨i, hi⟩) = true := hsealed ⟨i, hi⟩
    rw [if_pos hs] at h
    cases h
    exact ⟨drives_goto .., rfl, .inl rfl⟩
  next =>
    cases h
    exact ⟨drives_goto .., rfl, .inr rfl⟩

end GateSystem

open GateSystem

/-- The three chains of control methods. -/
inductive GateErrand where
  | doSeal
  | sealAndWait
  | waitAndReopen
deriving DecidableEq

/-- The methods that are still to be called, and whether one is running. -/
inductive ErrandStage where
  | claim
  | next (todo : List ControlOp)
  | running (todo : List ControlOp)
deriving DecidableEq

namespace GateErrand

variable {w N : Nat}

def ops : GateErrand → List ControlOp
  | doSeal => [.doSeal]
  | sealAndWait => [.doSeal, .wait]
  | waitAndReopen => [.waitIfSealed, .reopen]

/-- The claim is between two operations. -/
def isReady : Option (GateManager w) → Bool
  | some (.ready _) => true
  | _ => false

/-- One access of a chain. A method that the claim's phase does not offer is the
`unwrap_or_else(fail_stop)` of a `wait_if_sealed` that found the gate open. -/
def step (errand : GateErrand) (g : GateSystem w N) :
    ErrandStage → Option (Progress (GateSystem w N) ErrandStage)
  | .claim => (g.step .striped .claim).map fun g' => .running g' (.next errand.ops)
  | .next [] => (g.step .striped .dropClaim).map fun g' => .done g' true
  | .next (op :: todo) =>
    match g.step .striped (.begin op) with
    | some g' => some (.running g' (.running todo))
    | none => some .failStop
  | .running todo =>
    (g.step .striped .manage).map fun g' =>
      .running g' (if isReady g'.manager then .next todo else .running todo)

/-- Where the claim is at each stage of a chain. Reopening starts from a drained gate. -/
def Inv (g : GateSystem w N) : GateErrand → ErrandStage → Prop
  | waitAndReopen, .claim => g.manager = none ∧ g.gate.AllIdle
  | _, .claim => g.manager = none
  | doSeal, .next [.doSeal] => g.manager = some (.ready .unknown)
  | doSeal, .running [] => ∃ proc, g.manager = some (.sealing proc)
  | doSeal, .next [] => g.manager = some (.ready .sealed)
  | sealAndWait, .next [.doSeal, .wait] => g.manager = some (.ready .unknown)
  | sealAndWait, .running [.wait] => ∃ proc, g.manager = some (.sealing proc)
  | sealAndWait, .next [.wait] => g.manager = some (.ready .sealed)
  | sealAndWait, .running [] => ∃ proc, g.manager = some (.waiting .drained proc)
  | sealAndWait, .next [] => g.manager = some (.ready .drained)
  | waitAndReopen, .next [.waitIfSealed, .reopen] =>
    g.manager = some (.ready .unknown) ∧ g.gate.AllIdle
  | waitAndReopen, .running [.reopen] =>
    ((∃ i, g.manager = some (.checking i)) ∨ ∃ proc, g.manager = some (.waiting .drained proc)) ∧
      g.gate.AllIdle
  | waitAndReopen, .next [.reopen] => g.manager = some (.ready .drained)
  | waitAndReopen, .running [] => ∃ proc, g.manager = some (.reopening proc)
  | waitAndReopen, .next [] => g.manager = some (.ready .opened)
  | _, _ => False

/-- What a chain achieves. -/
def Post (g : GateSystem w N) : GateErrand → Prop
  | doSeal => g.gate.AllSealed
  | sealAndWait => g.gate.AllIdle
  | waitAndReopen => g.gate.AllOpen

variable {stage : ErrandStage} {out : Progress (GateSystem w N) ErrandStage}

/-- What an errand knows survives the visits of users. -/
theorem Inv.of_visits {g g' : GateSystem w N} {errand : GateErrand} (h : errand.Inv g stage)
    (hv : Visits g g') : errand.Inv g' stage := by
  have hidle : g.gate.AllIdle → g'.gate.AllIdle := fun hi i => hv.keep.stays (hi i)
  unfold Inv at h ⊢
  rw [hv.manager]
  split at h
  all_goals first
    | exact h
    | exact ⟨h.1, hidle h.2⟩

/-- What is left after one more step, and what a finished chain leaves. -/
def Outcome (errand : GateErrand) (g : GateSystem w N) :
    Progress (GateSystem w N) ErrandStage → Prop :=
  Progress.Yields
    (fun g' stage => g'.Inv ∧ Drives g g' ∧ errand.Inv g' stage)
    (fun g' _ => g'.Inv ∧ Drives g g' ∧ g'.manager = none ∧ errand.Post g')

variable {g g' : GateSystem w N} {errand : GateErrand}

private theorem running_yields {todo : List ControlOp} {m : GateManager w} (hinv : g.Inv)
    (habort : g.aborted = none) (hm : g.manager = some m)
    (hmove : ∀ g', g.manage m = some g' → Drives g g' ∧
      ((isReady g'.manager = false ∧ errand.Inv g' (.running todo)) ∨
        (isReady g'.manager = true ∧ errand.Inv g' (.next todo))))
    (h : errand.step g (.running todo) = some out) : errand.Outcome g out := by
  simp only [step, step_manage habort hm] at h
  obtain ⟨g', hg', rfl⟩ := map_eq_some_iff.mp h
  obtain ⟨hdrives, ⟨hready, hstage⟩ | ⟨hready, hstage⟩⟩ := hmove g' hg'
  · rw [hready]
    exact ⟨hinv.manage hm hg', hdrives, hstage⟩
  · rw [hready]
    exact ⟨hinv.manage hm hg', hdrives, hstage⟩

private theorem next_yields {op : ControlOp} {todo : List ControlOp} {phase : ControlPhase}
    {m : GateManager w} (hinv : g.Inv) (habort : g.aborted = none)
    (hm : g.manager = some (.ready phase))
    (hbegin : g.begin .striped phase op = some (g.goto g.gate m))
    (hstage : errand.Inv (g.goto g.gate m) (.running todo))
    (h : errand.step g (.next (op :: todo)) = some out) : errand.Outcome g out := by
  have hstep : g.step .striped (.begin op) = some (g.goto g.gate m) :=
    (step_begin habort hm op).trans hbegin
  simp only [step, hstep] at h
  cases h
  exact ⟨hinv.step hstep, drives_goto .., hstage⟩

private theorem drop_yields {phase : ControlPhase} (hinv : g.Inv) (habort : g.aborted = none)
    (hm : g.manager = some (.ready phase)) (hpost : errand.Post g)
    (h : errand.step g (.next []) = some out) : errand.Outcome g out := by
  have hstep : g.step .striped .dropClaim = some { g with manager := none } := by
    simp [GateSystem.step, habort, hm]
  simp only [step, hstep] at h
  cases h
  refine ⟨hinv.step hstep, ⟨rfl, rfl⟩, rfl, ?_⟩
  cases errand with
  | doSeal | sealAndWait | waitAndReopen => exact hpost

private theorem claim_yields (hinv : g.Inv) (habort : g.aborted = none) (hm : g.manager = none)
    (hstage : errand.Inv (g.goto g.gate (.ready .unknown)) (.next errand.ops))
    (h : errand.step g .claim = some out) : errand.Outcome g out := by
  have hstep : g.step .striped .claim = some (g.goto g.gate (.ready .unknown)) := by
    simp [GateSystem.step, habort, hm]
  simp only [step, hstep] at h
  cases h
  exact ⟨hinv.step hstep, drives_goto .., hstage⟩

private theorem allIdle_of_drives (hinv : g.Inv) (hinv' : g'.Inv) (hdrives : Drives g g')
    (hsealed : g'.gate.AllSealed) (hidle : g.gate.AllIdle) : g'.gate.AllIdle :=
  fun i => ⟨hsealed i, (hdrives.active hinv hinv' i).trans (hidle i).2⟩

/-- **The chains of control methods.** None of them stops the process; sealing
leaves a sealed gate, sealing and waiting a drained one, and reopening a drained
gate leaves every stripe open. -/
theorem step_yields (hinv : g.Inv) (habort : g.aborted = none) (hstage : errand.Inv g stage)
    (h : errand.step g stage = some out) : errand.Outcome g out := by
  unfold Inv at hstage
  split at hstage
  -- the claim
  · refine claim_yields hinv habort hstage.1 ?_ h
    exact ⟨rfl, hstage.2⟩
  next hne =>
    refine claim_yields hinv habort hstage ?_ h
    cases errand with
    | doSeal => rfl
    | sealAndWait => rfl
    | waitAndReopen => exact absurd rfl hne
  -- `seal()`
  · refine next_yields hinv habort hstage rfl ?_ h
    exact ⟨_, rfl⟩
  · obtain ⟨proc, hm⟩ := hstage
    refine running_yields hinv habort hm (fun g' hg' => ?_) h
    obtain ⟨hdrives, -, ⟨proc', hm'⟩ | hm'⟩ := manage_sealing hinv hm hg'
    · exact ⟨hdrives, .inl ⟨by rw [hm']; rfl, proc', hm'⟩⟩
    · exact ⟨hdrives, .inr ⟨by rw [hm']; rfl, hm'⟩⟩
  · refine drop_yields hinv habort hstage ?_ h
    exact (hinv.stage _ hstage).1 rfl
  -- `seal().wait()`
  · refine next_yields hinv habort hstage rfl ?_ h
    exact ⟨_, rfl⟩
  · obtain ⟨proc, hm⟩ := hstage
    refine running_yields hinv habort hm (fun g' hg' => ?_) h
    obtain ⟨hdrives, -, ⟨proc', hm'⟩ | hm'⟩ := manage_sealing hinv hm hg'
    · exact ⟨hdrives, .inl ⟨by rw [hm']; rfl, proc', hm'⟩⟩
    · exact ⟨hdrives, .inr ⟨by rw [hm']; rfl, hm'⟩⟩
  · refine next_yields hinv habort hstage rfl ?_ h
    exact ⟨_, rfl⟩
  · obtain ⟨proc, hm⟩ := hstage
    refine running_yields hinv habort hm (fun g' hg' => ?_) h
    obtain ⟨hdrives, -, ⟨proc', hm'⟩ | hm'⟩ := manage_waiting hinv hm hg'
    · exact ⟨hdrives, .inl ⟨by rw [hm']; rfl, proc', hm'⟩⟩
    · exact ⟨hdrives, .inr ⟨by rw [hm']; rfl, hm'⟩⟩
  · refine drop_yields hinv habort hstage ?_ h
    exact (hinv.stage _ hstage).2.1 rfl
  -- `wait_if_sealed()`, then `reopen()`
  · refine next_yields hinv habort hstage.1 rfl ?_ h
    exact ⟨.inl ⟨_, rfl⟩, hstage.2⟩
  · obtain ⟨⟨i, hm⟩ | ⟨proc, hm⟩, hidle⟩ := hstage
    · refine running_yields hinv habort hm (fun g' hg' => ?_) h
      obtain ⟨hdrives, hgate, hm' | hm'⟩ := manage_checking hidle.allSealed hg'
      · exact ⟨hdrives, .inl ⟨by rw [hm']; rfl, .inl ⟨_, hm'⟩, hgate ▸ hidle⟩⟩
      · exact ⟨hdrives, .inl ⟨by rw [hm']; rfl, .inr ⟨_, hm'⟩, hgate ▸ hidle⟩⟩
    · refine running_yields hinv habort hm (fun g' hg' => ?_) h
      obtain ⟨hdrives, hsealed, ⟨proc', hm'⟩ | hm'⟩ := manage_waiting hinv hm hg'
      · exact ⟨hdrives, .inl ⟨by rw [hm']; rfl, .inr ⟨_, hm'⟩,
          allIdle_of_drives hinv (hinv.manage hm hg') hdrives (hsealed hidle.allSealed) hidle⟩⟩
      · exact ⟨hdrives, .inr ⟨by rw [hm']; rfl, hm'⟩⟩
  · refine next_yields hinv habort hstage rfl ?_ h
    exact ⟨_, rfl⟩
  · obtain ⟨proc, hm⟩ := hstage
    refine running_yields hinv habort hm (fun g' hg' => ?_) h
    obtain ⟨hdrives, ⟨proc', hm'⟩ | hm'⟩ := manage_reopening hinv hm hg'
    · exact ⟨hdrives, .inl ⟨by rw [hm']; rfl, proc', hm'⟩⟩
    · exact ⟨hdrives, .inr ⟨by rw [hm']; rfl, hm'⟩⟩
  · refine drop_yields hinv habort hstage ?_ h
    exact (hinv.stage _ hstage).2.2 rfl
  · exact hstage.elim

/-- An errand that does not reopen leaves a sealed gate sealed. -/
theorem step_allSealed (hinv : g.Inv) (habort : g.aborted = none) (hne : errand ≠ waitAndReopen)
    (hstage : errand.Inv g stage) (hsealed : g.gate.AllSealed)
    (h : errand.step g stage = some out) :
    out.Yields (fun g' _ => g'.gate.AllSealed) (fun g' _ => g'.gate.AllSealed) := by
  have hrunning : ∀ {errand : GateErrand} {m : GateManager w} {todo : List ControlOp},
      g.manager = some m → (∀ g', g.manage m = some g' → g'.gate.AllSealed) →
      errand.step g (.running todo) = some out →
      out.Yields (fun g' _ => g'.gate.AllSealed) (fun g' _ => g'.gate.AllSealed) := by
    intro errand m todo hm hmove h
    simp only [step, step_manage habort hm] at h
    obtain ⟨g', hg', rfl⟩ := map_eq_some_iff.mp h
    exact hmove g' hg'
  have hnext : ∀ {errand : GateErrand} {op : ControlOp} {todo : List ControlOp} {m : GateManager w},
      g.step .striped (.begin op) = some (g.goto g.gate m) →
      errand.step g (.next (op :: todo)) = some out →
      out.Yields (fun g' _ => g'.gate.AllSealed) (fun g' _ => g'.gate.AllSealed) := by
    intro errand op todo m hstep h
    simp only [step, hstep] at h
    cases h
    exact hsealed
  have hdrop : ∀ {errand : GateErrand} {phase : ControlPhase},
      g.manager = some (.ready phase) → errand.step g (.next []) = some out →
      out.Yields (fun g' _ => g'.gate.AllSealed) (fun g' _ => g'.gate.AllSealed) := by
    intro errand phase hm h
    have hstep : g.step .striped .dropClaim = some { g with manager := none } := by
      simp [GateSystem.step, habort, hm]
    simp only [step, hstep] at h
    cases h
    exact hsealed
  have hseal : ∀ {errand : GateErrand} {todo : List ControlOp},
      (∃ proc, g.manager = some (.sealing proc)) → errand.step g (.running todo) = some out →
      out.Yields (fun g' _ => g'.gate.AllSealed) (fun g' _ => g'.gate.AllSealed) := by
    rintro errand todo ⟨proc, hm⟩ h
    exact hrunning hm (fun g' hg' => (manage_sealing hinv hm hg').2.1 hsealed) h
  unfold Inv at hstage
  split at hstage
  · exact absurd rfl hne
  · have hstep : g.step .striped .claim = some (g.goto g.gate (.ready .unknown)) := by
      simp [GateSystem.step, habort, hstage]
    simp only [step, hstep] at h
    cases h
    exact hsealed
  · exact hnext ((step_begin habort hstage _).trans rfl) h
  · exact hseal hstage h
  · exact hdrop hstage h
  · exact hnext ((step_begin habort hstage _).trans rfl) h
  · exact hseal hstage h
  · exact hnext ((step_begin habort hstage _).trans rfl) h
  · obtain ⟨proc, hm⟩ := hstage
    exact hrunning hm (fun g' hg' => (manage_waiting hinv hm hg').2.1 hsealed) h
  · exact hdrop hstage h
  all_goals first
    | exact absurd rfl hne
    | exact hstage.elim

end GateErrand

end Xlfn.Kernel
