import Xlfn.Kernel.GenerationPhases

/-!
# Xlfn — how a generation service slot moves

What each action does to the state and to the owners of its phases, and the
guarantees of the slot that follow from this and from the invariant.

* `Passes` — every way a thread's move changes the state.
-/

namespace Xlfn.Kernel

open Lib StripedDrainGate GateSystem Option

namespace GenerationServiceSlot

variable {E : Type} {w N : Nat} {s s' : GenerationServiceSlot E w N} {action : Action E N}

-- ---- How the state moves.

/-- What a thread that moves from `x` to `x'` does to the state. -/
inductive Passes : SlotThread E N → SlotThread E N →
    GenerationServiceState E → GenerationServiceState E → Prop
  | stays {x x' : SlotThread E N} {state} (hinit : x'.ownsInitializing = x.ownsInitializing)
      (hseal : x'.ownsSealing = x.ownsSealing) : Passes x x' state state
  | initializes {stripe config} :
      Passes (.readLock stripe) (.initializing stripe) (.cold config) .initializing
  | commit {stripe service state} :
      Passes (.commitLock stripe service) (.commitStore stripe service) state (.ready service)
  | fail {fault error state} : Passes (.faulting fault) (.finished error) state (.initFaulted fault)
  | beginSeal {service} : Passes .sealLock (.sealGate service .claim) (.ready service) .sealing
  | close {x : SlotThread E N} {state} (hx : x = .sealLock ∨ x = .disarmLock)
      (hinit : state ≠ .initializing) (hseal : state ≠ .sealing)
      (hfault : ∀ fault service, state ≠ .teardownFaulted fault service) :
      Passes x (.finished none) state .closed
  | finish {service fault error state state'} (hinit : state' ≠ .initializing)
      (hseal : state' ≠ .sealing) :
      Passes (.sealFinish service fault) (.finished error) state state'
  | arm {state config} : Passes .armPublished (.finished none) state (.cold config)

variable {k : Nat} {x : SlotThread E N}

theorem passes_user {user : Nat} {next : Option (GateUser N) → SlotThread E N}
    (hnext : ∀ u, (next u).ownsInitializing = x.ownsInitializing ∧
      (next u).ownsSealing = x.ownsSealing) (h : s.userStep k user next = some s') :
    ∃ x', s'.threads = s.threads.set k x' ∧ Passes x x' s.state s'.state := by
  unfold userStep at h
  obtain ⟨gate, -, rfl⟩ := map_eq_some_iff.mp h
  exact ⟨_, rfl, .stays (hnext _).1 (hnext _).2⟩

theorem passes_drive {running : ErrandStage → SlotThread E N}
    {finished : GateSystem w N → GenerationServiceSlot E w N}
    {out : Progress (GateSystem w N) ErrandStage}
    (hrunning : ∀ stage, (running stage).ownsInitializing = x.ownsInitializing ∧
      (running stage).ownsSealing = x.ownsSealing)
    (hfinished : ∀ gate, ∃ x', (finished gate).threads = s.threads.set k x' ∧
      Passes x x' s.state (finished gate).state)
    (hsound : (s.drive k running finished out).aborted = false) :
    ∃ x', (s.drive k running finished out).threads = s.threads.set k x' ∧
      Passes x x' s.state (s.drive k running finished out).state := by
  cases out with
  | running gate stage => exact ⟨_, rfl, .stays (hrunning stage).1 (hrunning stage).2⟩
  | done gate ok => exact hfinished gate
  | failStop => cases hsound

theorem passes_of_thread (hx : s.threads[k]? = some x) (hsound : s'.aborted = false)
    (h : s.threadStep k x = some s') :
    ∃ x', s'.threads = s.threads.set k x' ∧ Passes x x' s.state s'.state := by
  cases x with
  | readStart stripe | initializing stripe | initialized stripe service
  | commitStore stripe service | sealWithdraw service | shutdown service =>
    cases h
    exact ⟨_, rfl, .stays rfl rfl⟩
  | readEnter stripe user | readBack stripe user | reading user service | releasing user =>
    simp only [threadStep] at h
    exact passes_user (fun u => by split <;> exact ⟨rfl, rfl⟩) h
  | readPointer stripe user =>
    simp only [threadStep] at h
    split at h <;> cases h <;> exact ⟨_, rfl, .stays rfl rfl⟩
  | readLock stripe =>
    simp only [threadStep] at h
    split at h
    next => cases h
    next =>
      unfold readSlow at h
      split at h
      next =>
        cases h
        exact ⟨_, rfl, .stays rfl rfl⟩
      next =>
        cases h
        exact ⟨_, rfl, .stays rfl rfl⟩
      next =>
        cases h
        exact ⟨_, rfl, .stays rfl rfl⟩
      next => cases h
      next => cases h
      next config hstate =>
        cases h
        exact ⟨_, rfl, hstate ▸ .initializes⟩
      next =>
        cases h
        exact ⟨_, rfl, .stays rfl rfl⟩
  | commitLock stripe service =>
    simp only [threadStep] at h
    split at h
    next => cases h
    next =>
      cases h
      exact ⟨_, rfl, .commit⟩
  | commitReopen stripe service stage | sealGate service stage | sealWait service stage =>
    simp only [threadStep] at h
    obtain ⟨out, -, rfl⟩ := map_eq_some_iff.mp h
    exact passes_drive (fun _ => ⟨rfl, rfl⟩) (fun _ => ⟨_, rfl, .stays rfl rfl⟩) hsound
  | commitEnter stripe service user =>
    simp only [threadStep] at h
    obtain ⟨gate, -, rfl⟩ := map_eq_some_iff.mp h
    split at hsound
    next hholding =>
      rw [if_pos hholding]
      exact ⟨_, rfl, .stays rfl rfl⟩
    next hnot =>
      rw [if_neg hnot]
      split at hsound
      next hfull =>
        rw [if_pos hfull]
        exact ⟨_, (List.ext_getElem? fun j => by grind [setGate]), .stays rfl rfl⟩
      next => cases hsound
  | faulting fault =>
    simp only [threadStep] at h
    split at h
    next => cases h
    next =>
      cases h
      exact ⟨_, rfl, .fail⟩
  | sealLock =>
    simp only [threadStep] at h
    split at h
    next => cases h
    next =>
      unfold beginSeal at h
      split at h
      next => cases h
      next => cases h
      next =>
        cases h
        exact ⟨_, rfl, .stays rfl rfl⟩
      next runtime hstate =>
        cases h
        exact ⟨_, rfl, hstate ▸ .beginSeal⟩
      all_goals
        next hstate =>
          cases h
          exact ⟨_, rfl, .close (.inl rfl) (by simp [hstate]) (by simp [hstate]) (by simp [hstate])⟩
  | sealFinish service fault =>
    simp only [threadStep] at h
    split at h
    next => cases h
    next =>
      cases fault with
      | none | some fault =>
        cases h
        exact ⟨_, rfl, .finish (fun h => by cases h) (fun h => by cases h)⟩
  | armLock =>
    simp only [threadStep] at h
    split at h
    next => cases h
    next => split at h <;> cases h <;> exact ⟨_, rfl, .stays rfl rfl⟩
  | armSealed i | armActive i =>
    simp only [threadStep] at h
    split at h
    · split at h <;> cases h <;> exact ⟨_, rfl, .stays rfl rfl⟩
    · cases h
      exact ⟨_, rfl, .stays rfl rfl⟩
  | armPublished =>
    simp only [threadStep] at h
    split at h
    · cases h
      exact ⟨_, rfl, .arm⟩
    · cases h
      exact ⟨_, rfl, .stays rfl rfl⟩
  | disarmLock =>
    simp only [threadStep] at h
    split at h
    next => cases h
    next =>
      cases h
      unfold disarm
      split
      next hstate =>
        exact ⟨_, rfl, .close (.inr rfl) (by simp [hstate]) (by simp [hstate]) (by simp [hstate])⟩
      next hstate =>
        exact ⟨_, rfl, .close (.inr rfl) (by simp [hstate]) (by simp [hstate]) (by simp [hstate])⟩
      next => exact ⟨_, rfl, .stays rfl rfl⟩
      next => exact ⟨_, rfl, .stays rfl rfl⟩
  | finished error => cases h

theorem step_cases (h : s.step action = some s') (hsound : s'.aborted = false) :
    (∃ c, action = .call c ∧ s'.threads = s.threads ++ [Call.start c] ∧ s'.state = s.state) ∨
    (∃ k x x', (action = .thread k ∨ s'.state = s.state) ∧ s.threads[k]? = some x ∧
      s'.threads = s.threads.set k x' ∧ Passes x x' s.state s'.state) := by
  unfold GenerationServiceSlot.step at h
  split at h
  next => cases h
  next =>
    cases action with
    | call c =>
      cases h
      exact .inl ⟨c, rfl, rfl, rfl⟩
    | thread k =>
      simp only [] at h
      split at h
      next x hx =>
        obtain ⟨x', hthreads, hpasses⟩ := passes_of_thread hx hsound h
        exact .inr ⟨k, x, x', .inl rfl, hx, hthreads, hpasses⟩
      next => cases h
    | fault k f =>
      simp only [] at h
      split at h
      next x hx =>
        cases x with
        | initializing stripe | shutdown service =>
          cases h
          exact .inr ⟨k, _, _, .inr rfl, hx, rfl, .stays rfl rfl⟩
        | initialized stripe service =>
          simp only [callbackFault] at h
          split at h
          next =>
            cases h
            exact .inr ⟨k, _, _, .inr rfl, hx, rfl, .stays rfl rfl⟩
          next => cases h
        | _ => cases h
      next => cases h

-- ---- The owners of the phases.

/-- Thread `k` owns the `Initializing` phase. -/
def Initializes (s : GenerationServiceSlot E w N) (k : Nat) : Prop :=
  ∃ x, s.threads[k]? = some x ∧ x.ownsInitializing = true

/-- Thread `k` owns the `Sealing` phase. -/
def Seals (s : GenerationServiceSlot E w N) (k : Nat) : Prop :=
  ∃ x, s.threads[k]? = some x ∧ x.ownsSealing = true

/-- A phase has its owner, and the owner is the only exclusive thread. -/
theorem Inv.owner (hinv : s.Inv) (hstate : s.state = .initializing ∨ s.state = .sealing) :
    ∃ k x, s.threads[k]? = some x ∧ s.Alone k ∧
      (s.state = .initializing → x.ownsInitializing = true) ∧
      (s.state = .sealing → x.ownsSealing = true) := by
  by_cases hnone : ∀ (k : Nat) x, s.threads[k]? = some x → x.exclusive = false
  · have hrest := hinv.rest hnone
    unfold Rest at hrest
    rcases hstate with hs | hs <;> rw [hs] at hrest <;> exact hrest.elim
  · push Not at hnone
    obtain ⟨k, x, hx, hexcl⟩ := hnone
    rw [ne_eq, Bool.not_eq_false] at hexcl
    have hstatus := hinv.status k x hx hexcl
    refine ⟨k, x, hx, hinv.alone_of_exclusive hx hexcl, fun hs => ?_, fun hs => ?_⟩
    · cases x with
      | initializing stripe | initialized stripe service | commitLock stripe service
      | faulting fault => rfl
      | commitEnter stripe service user => exact absurd (hs.symm.trans hstatus.1.ready) nofun
      | _ => first | exact hstatus.elim | exact absurd (hs.symm.trans hstatus.1) nofun
    · cases x with
      | sealGate service stage | sealWithdraw service | sealWait service stage
      | shutdown service | sealFinish service fault => rfl
      | commitEnter stripe service user => exact absurd (hs.symm.trans hstatus.1.ready) nofun
      | _ => first | exact hstatus.elim | exact absurd (hs.symm.trans hstatus.1) nofun

theorem getElem?_of_call {c : Call N} (hthreads : s'.threads = s.threads ++ [c.start])
    (hx : s.threads[k]? = some x) : s'.threads[k]? = some x := by
  rw [hthreads]
  exact (List.getElem?_append_left (List.getElem_of_getElem? hx).1).trans hx

theorem exclusive_of_ownsInitializing (h : x.ownsInitializing = true) : x.exclusive = true := by
  simp [SlotThread.exclusive, h]

theorem exclusive_of_ownsSealing (h : x.ownsSealing = true) : x.exclusive = true := by
  simp [SlotThread.exclusive, h]

/-- A phase has one owner, which keeps it until a step of its own ends it. -/
theorem Inv.phase_owned (hinv : s.Inv) (h : s.step action = some s')
    (owns : SlotThread E N → Bool) (hexcl : ∀ x, owns x = true → x.exclusive = true)
    (hx : s.threads[k]? = some x) (halone : s.Alone k) (hown : owns x = true)
    (hpass : ∀ y y' state', Passes y y' s.state state' →
      state' = s.state ∧ owns y' = owns y ∨ state' ≠ s.state ∧ y.exclusive = true) :
    (∀ k' y, s.threads[k']? = some y → owns y = true → k' = k) ∧
      (s'.state = s.state ∧ (∃ y, s'.threads[k]? = some y ∧ owns y = true) ∨
        s'.state ≠ s.state ∧ action = .thread k) := by
  have hnot : ∀ {j : Nat} {y : SlotThread E N}, s.threads[j]? = some y → y.exclusive = true →
      j = k := by
    intro j y hy hy'
    by_contra hne
    rw [halone j y hne hy] at hy'
    cases hy'
  refine ⟨fun k' y hy hy' => hnot hy (hexcl y hy'), ?_⟩
  rcases step_cases h (hinv.step h).sound with ⟨c, -, hthreads, hs'⟩ |
    ⟨j, y, y', haction, hy, hthreads, hpasses⟩
  · exact .inl ⟨hs', x, getElem?_of_call hthreads hx, hown⟩
  · rcases hpass y y' s'.state hpasses with ⟨hs', howns'⟩ | ⟨hs', hy'⟩
    · refine .inl ⟨hs', ?_⟩
      rw [hthreads]
      by_cases hjk : j = k
      · subst hjk
        rw [hx] at hy
        cases hy
        exact ⟨y', List.getElem?_set_self (List.getElem_of_getElem? hx).1, howns'.trans hown⟩
      · exact ⟨x, (List.getElem?_set_ne hjk).trans hx, hown⟩
    · -- only the owner can leave the phase
      obtain rfl := hnot hy hy'
      exact .inr ⟨hs', haction.resolve_right hs'⟩

/-- **`Initializing` has one owner**, which keeps it until a step of its own ends it. -/
theorem Inv.initializing_owned (hinv : s.Inv) (h : s.step action = some s')
    (hstate : s.state = .initializing) :
    ∃ k, s.Initializes k ∧ (∀ k', s.Initializes k' → k' = k) ∧
      (s'.state = .initializing ∧ s'.Initializes k ∨
        s'.state ≠ .initializing ∧ action = .thread k) := by
  obtain ⟨k, x, hx, halone, howns, -⟩ := hinv.owner (.inl hstate)
  obtain ⟨hunique, hnext⟩ := hinv.phase_owned h (·.ownsInitializing)
    (fun _ => exclusive_of_ownsInitializing) hx halone (howns hstate) (by
      intro y y' state' hpasses
      rw [hstate] at hpasses ⊢
      cases hpasses with
      | stays hinit hseal => exact .inl ⟨rfl, hinit⟩
      | commit | fail | arm => exact .inr ⟨nofun, rfl⟩
      | finish hinit hseal => exact .inr ⟨hinit, rfl⟩
      | close _ hinit => exact absurd rfl hinit)
  rw [hstate] at hnext
  exact ⟨k, ⟨x, hx, howns hstate⟩, fun k' ⟨y, hy, hy'⟩ => hunique k' y hy hy', hnext⟩

/-- **`Sealing` has one owner**, which keeps it until a step of its own ends it. -/
theorem Inv.sealing_owned (hinv : s.Inv) (h : s.step action = some s')
    (hstate : s.state = .sealing) :
    ∃ k, s.Seals k ∧ (∀ k', s.Seals k' → k' = k) ∧
      (s'.state = .sealing ∧ s'.Seals k ∨ s'.state ≠ .sealing ∧ action = .thread k) := by
  obtain ⟨k, x, hx, halone, -, howns⟩ := hinv.owner (.inr hstate)
  obtain ⟨hunique, hnext⟩ := hinv.phase_owned h (·.ownsSealing)
    (fun _ => exclusive_of_ownsSealing) hx halone (howns hstate) (by
      intro y y' state' hpasses
      rw [hstate] at hpasses ⊢
      cases hpasses with
      | stays hinit hseal => exact .inl ⟨rfl, hseal⟩
      | commit | fail | arm => exact .inr ⟨nofun, rfl⟩
      | finish hinit hseal => exact .inr ⟨hseal, rfl⟩
      | close _ _ hseal => exact absurd rfl hseal)
  rw [hstate] at hnext
  exact ⟨k, ⟨x, hx, howns hstate⟩, fun k' ⟨y, hy, hy'⟩ => hunique k' y hy hy', hnext⟩

-- ---- Faults.

/-- The moves of the owners of a phase, and of `arm`, do not start from a fault. -/
theorem Inv.not_faulted (hinv : s.Inv) (hx : s.threads[k]? = some x) (hmove : x matches
      .commitLock .. | .faulting .. | .sealFinish .. | .armPublished) :
    s.state = .initializing ∨ s.state = .sealing ∨ s.state = .closed := by
  cases x with
  | commitLock stripe service | faulting fault => exact .inl (hinv.status k _ hx rfl).1
  | sealFinish service fault => exact .inr (.inl (hinv.status k _ hx rfl).1)
  | armPublished => exact .inr (.inr (hinv.status k _ hx rfl).1)
  | _ => cases hmove

/-- An initialization fault is taken back by `disarm` and by `seal` only. -/
theorem Inv.initFaulted_sticky (hinv : s.Inv) (h : s.step action = some s')
    {fault : ServiceFault E} (hstate : s.state = .initFaulted fault) :
    s'.state = .initFaulted fault ∨ s'.state = .closed ∧ ∃ k, action = .thread k ∧
      (s.threads[k]? = some .disarmLock ∨ s.threads[k]? = some .sealLock) := by
  rcases step_cases h (hinv.step h).sound with ⟨c, -, -, hs'⟩ |
    ⟨k, x, x', haction, hx, -, hpasses⟩
  · exact .inl (hs'.trans hstate)
  · have hnot := hinv.not_faulted hx
    rw [hstate] at hpasses hnot haction
    generalize s'.state = state' at hpasses haction ⊢
    cases hpasses with
    | stays hinit hseal => exact .inl rfl
    | commit | fail | finish | arm => rcases hnot rfl with h | h | h <;> cases h
    | close hwho =>
      refine .inr ⟨rfl, k, haction.resolve_right nofun, ?_⟩
      rcases hwho with rfl | rfl
      · exact .inr hx
      · exact .inl hx

theorem Inv.teardownFaulted_sticky (hinv : s.Inv) (h : s.step action = some s')
    {fault : ServiceFault E} {service : Nat} (hstate : s.state = .teardownFaulted fault service) :
    s'.state = .teardownFaulted fault service := by
  rcases step_cases h (hinv.step h).sound with ⟨c, -, -, hs'⟩ |
    ⟨k, x, x', haction, hx, -, hpasses⟩
  · exact hs'.trans hstate
  · have hnot := hinv.not_faulted hx
    rw [hstate] at hpasses hnot
    generalize s'.state = state' at hpasses ⊢
    cases hpasses with
    | stays hinit hseal => rfl
    | commit | fail | finish | arm => rcases hnot rfl with h | h | h <;> cases h
    | close _ _ _ hfault => exact absurd rfl (hfault fault service)

-- ---- The gate.

/-- A slot in a phase, or held by its lock, is sealed unless a service is published. -/
theorem Inv.published_of_open (hinv : s.Inv) {i : Fin N}
    (hopen : isSealed (s.readers.gate.counters i) = false) :
    ∃ service, s.published = some service ∧
      (s.state = .ready service ∨ s.state = .sealing) := by
  have hsealed : s.readers.gate.AllSealed → False := by
    intro hall
    have hi : isSealed (s.readers.gate.counters i) = true := hall i
    rw [hopen] at hi
    cases hi
  by_cases hnone : ∀ (k : Nat) x, s.threads[k]? = some x → x.exclusive = false
  · have hrest := hinv.rest hnone
    unfold Rest at hrest
    split at hrest
    next service hs => exact ⟨service, hrest.published, .inl hs⟩
    next => exact hrest.elim
    next => exact hrest.elim
    next => exact (hsealed hrest.idle.allSealed).elim
  · push Not at hnone
    obtain ⟨k, x, hx, hexcl⟩ := hnone
    rw [ne_eq, Bool.not_eq_false] at hexcl
    have hstatus := hinv.status k x hx hexcl
    cases x with
    | commitReopen stripe service stage => exact ⟨service, hstatus.2.1, .inl hstatus.1⟩
    | commitEnter stripe service user =>
      exact ⟨service, hstatus.1.published, .inl hstatus.1.ready⟩
    | sealGate service stage | sealWithdraw service => exact ⟨service, hstatus.2.1, .inr hstatus.1⟩
    | sealWait service stage => exact (hsealed hstatus.2.2.1).elim
    | _ => first | exact (hsealed hstatus.2.idle.allSealed).elim | exact hstatus.elim

/-- While the state lock is free, the gate and the pointer follow the state. -/
theorem Inv.gate_follows (hinv : s.Inv) (hlock : s.locked = false) :
    (∀ service, s.state = .ready service → s.readers.gate.AllOpen ∧ s.published = some service) ∧
    ((∀ service, s.state ≠ .ready service) → s.readers.gate.AllSealed ∧ s.published = none) := by
  by_cases hphase : s.state = .initializing ∨ s.state = .sealing
  · refine ⟨fun service hs => ?_, fun _ => ?_⟩
    · rcases hphase with h | h <;> rw [h] at hs <;> cases hs
    · obtain ⟨k, x, hx, -, hinit, hseal⟩ := hinv.owner hphase
      have hlocks : x.locks = false := by
        have hall := List.any_eq_false.mp hlock x (List.mem_of_getElem? hx)
        simpa using hall
      have hexcl : x.exclusive = true := by
        rcases hphase with h | h
        · exact exclusive_of_ownsInitializing (hinit h)
        · exact exclusive_of_ownsSealing (hseal h)
      have hstatus := hinv.status k x hx hexcl
      cases x with
      | initializing stripe | initialized stripe service | commitLock stripe service
      | faulting fault | shutdown service | sealFinish service fault =>
        exact ⟨hstatus.2.idle.allSealed, hstatus.2.published⟩
      | sealWait service stage => exact ⟨hstatus.2.2.1, hstatus.2.1⟩
      | _ => first | exact hstatus.elim | cases hlocks
  · push Not at hphase
    have hrest := hinv.rest (hinv.none_of_unlocked hlock hphase.1 hphase.2)
    refine ⟨fun service hs => ?_, fun hs => ?_⟩
    · unfold Rest at hrest
      rw [hs] at hrest
      exact ⟨hrest.opened, hrest.published⟩
    · have hvacant := hrest.vacant hs
      exact ⟨hvacant.idle.allSealed, hvacant.published⟩

-- ---- The guarantees.

/-- **The generation service slot.** In every state that any interleaving of
arming, reading, sealing and disarming reaches, whatever the callbacks do:

* the initializer was run at most once for each arm;
* while the state lock is free, every stripe of the gate is open and the service
  published if the state is `Ready`, and otherwise every stripe is sealed and
  nothing is published; under the lock, a stripe is open only while a service is
  published in `Ready` or `Sealing`;
* no `fail_stop` branch of a commit was taken;
* `Initializing` and `Sealing` have one owner each, which stays their owner until
  a step of its own leaves the phase;
* an initialization fault stays until a `disarm` or a `seal`, and a teardown fault
  for good. -/
theorem generation_slot (h : Reachable step (new : GenerationServiceSlot E w N) s) : s.runs.Nodup ∧
    (s.locked = false → (∀ service, s.state = .ready service →
        s.readers.gate.AllOpen ∧ s.published = some service) ∧
      ((∀ service, s.state ≠ .ready service) → s.readers.gate.AllSealed ∧ s.published = none)) ∧
    (∀ i, isSealed (s.readers.gate.counters i) = false → ∃ service,
      s.published = some service ∧ (s.state = .ready service ∨ s.state = .sealing)) ∧
    s.aborted = false ∧
    ∀ action s', step s action = some s' →
      (s.state = .initializing → ∃ k, s.Initializes k ∧ (∀ k', s.Initializes k' → k' = k) ∧
        (s'.state = .initializing ∧ s'.Initializes k ∨
          s'.state ≠ .initializing ∧ action = .thread k)) ∧
      (s.state = .sealing → ∃ k, s.Seals k ∧ (∀ k', s.Seals k' → k' = k) ∧
        (s'.state = .sealing ∧ s'.Seals k ∨ s'.state ≠ .sealing ∧ action = .thread k)) ∧
      (∀ fault, s.state = .initFaulted fault →
        s'.state = .initFaulted fault ∨ s'.state = .closed ∧ ∃ k, action = .thread k ∧
          (s.threads[k]? = some .disarmLock ∨ s.threads[k]? = some .sealLock)) ∧
      (∀ fault service, s.state = .teardownFaulted fault service →
        s'.state = .teardownFaulted fault service) := by
  have hinv : s.Inv := Reachable.invariant (fun _ _ _ hi hs => hi.step hs) new_inv h
  refine ⟨hinv.armed.nodup, hinv.gate_follows, fun i => hinv.published_of_open, hinv.sound, ?_⟩
  intro action s' hstep
  exact ⟨hinv.initializing_owned hstep, hinv.sealing_owned hstep,
    fun fault => hinv.initFaulted_sticky hstep,
    fun fault service => hinv.teardownFaulted_sticky hstep⟩

/-- Two stripes. The slot is armed, and the initializer of its first reader fails. -/
def faultedRun : List (Action Unit 2) :=
  List.flatten [
    [.call .arm], .replicate 8 (.thread 0), [.call (.read ⟨0, Nat.two_pos⟩)], .replicate 3 (.thread 1),
    [.fault 1 (.error ()), .thread 1]]

/-- The slot is armed, and its first reader has stored the pointer of its service. -/
def commitRun : List (Action Unit 2) :=
  List.flatten [
    [.call .arm], .replicate 8 (.thread 0), [.call (.read ⟨0, Nat.two_pos⟩)], .replicate 7 (.thread 1)]

theorem generation_slot_faultedRun :
    ∃ s s' : GenerationServiceSlot Unit 30 2, run step new faultedRun = some s ∧
      s.state = .initFaulted (.error ()) ∧ s.runs = [0] ∧ s.runs.Nodup ∧
      s.readers.gate.AllSealed ∧ s.published = none ∧ s.aborted = false ∧
      step s (.call .disarm) = some s' ∧ s'.state = .initFaulted (.error ()) := by
  have hrun : ((run step (new : GenerationServiceSlot Unit 30 2) faultedRun).bind fun s =>
      (step s (.call .disarm)).map fun s' => (s.state, s.runs, s.locked, s'.state)) =
      some (.initFaulted (.error ()), [0], false, .initFaulted (.error ())) := by
    decide +kernel
  obtain ⟨s, hs, hval⟩ := bind_eq_some_iff.mp hrun
  obtain ⟨s', hs', hval⟩ := map_eq_some_iff.mp hval
  simp only [Prod.mk.injEq] at hval
  obtain ⟨hstate, hruns, hlock, -⟩ := hval
  obtain ⟨hnodup, hgate, -, hsound, hstep⟩ := generation_slot ⟨faultedRun, hs⟩
  obtain ⟨hsealed, hpublished⟩ := (hgate hlock).2 (by simp [hstate])
  obtain ⟨-, -, hsticky, -⟩ := hstep _ s' hs'
  refine ⟨s, s', hs, hstate, hruns, hnodup, hsealed, hpublished, hsound, hs', ?_⟩
  exact (hsticky _ hstate).resolve_right fun ⟨_, _, h, _⟩ => nomatch h

/-- A `seal` takes an initialization fault back without any `disarm`, and inside
the commit the state is `Ready` and the service published before the gate opens. -/
theorem seal_clears_initFaulted :
    (∃ s s' : GenerationServiceSlot Unit 30 2, run step new faultedRun = some s ∧
      s.state = .initFaulted (.error ()) ∧
      run step s [.call .doSeal, .thread 2] = some s' ∧ s'.state = .closed ∧
      .call .disarm ∉ faultedRun) ∧
    (∃ s : GenerationServiceSlot Unit 30 2, run step new commitRun = some s ∧
      s.state = .ready 0 ∧ s.published = some 0 ∧ s.readers.gate.AllSealed) := by
  have hfault : ((run step (new : GenerationServiceSlot Unit 30 2) faultedRun).bind fun s =>
      (run step s [.call .doSeal, .thread 2]).map fun s' => (s.state, s'.state)) =
      some (.initFaulted (.error ()), .closed) := by
    decide +kernel
  have hcommit : ((run step (new : GenerationServiceSlot Unit 30 2) commitRun).map fun s =>
      (s.state, s.published, decide (∀ i, isSealed (s.readers.gate.counters i) = true))) =
      some (.ready 0, some 0, true) := by
    decide +kernel
  obtain ⟨s, hs, hval⟩ := bind_eq_some_iff.mp hfault
  obtain ⟨s', hs', hval⟩ := map_eq_some_iff.mp hval
  simp only [Prod.mk.injEq] at hval
  obtain ⟨t, ht, htval⟩ := map_eq_some_iff.mp hcommit
  simp only [Prod.mk.injEq, decide_eq_true_eq] at htval
  exact ⟨⟨s, s', hs, hval.1, hs', hval.2, by decide⟩, t, ht, htval⟩

end GenerationServiceSlot

end Xlfn.Kernel
