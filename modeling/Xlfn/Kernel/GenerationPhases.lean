import Xlfn.Kernel.GenerationSlot

/-!
# Xlfn — who may move a generation service slot

At most one thread at a time has the slot to itself: the one inside a locked
section, or the one that owns the `Initializing` or the `Sealing` phase. The
invariant says what that thread knows about the gate and the pointer, and what
holds when there is no such thread.
-/

namespace Xlfn.Kernel

open Lib StripedDrainGate GateSystem List Option

/-- The thread holds the lock or owns a phase. -/
def SlotThread.exclusive {E : Type} {N : Nat} (x : SlotThread E N) : Bool :=
  x.locks || x.ownsInitializing || x.ownsSealing

/-- The place of a thread among the users of the gate. -/
def SlotThread.ref {E : Type} {N : Nat} : SlotThread E N → Option (Unit × Nat)
  | .readEnter _ user => some ((), user)
  | .readPointer _ user => some ((), user)
  | .readBack _ user => some ((), user)
  | .reading user _ => some ((), user)
  | .releasing user => some ((), user)
  | .commitEnter _ _ user => some ((), user)
  | _ => none

namespace GenerationServiceSlot

variable {E : Type} {w N : Nat} {s s' : GenerationServiceSlot E w N} {action : Action E N}

-- ---- The invariant.

/-- No service: the gate is sealed and drained, and nothing is published. -/
structure Vacant (s : GenerationServiceSlot E w N) : Prop where
  idle      : s.readers.gate.AllIdle
  published : s.published = none
  unclaimed : s.readers.manager = none

/-- A service is published and every stripe of the gate is open. -/
structure Serving (s : GenerationServiceSlot E w N) (service : Nat) : Prop where
  ready     : s.state = .ready service
  opened    : s.readers.gate.AllOpen
  published : s.published = some service
  unclaimed : s.readers.manager = none

/-- What the thread that has the slot to itself knows. -/
def Status (s : GenerationServiceSlot E w N) : SlotThread E N → Prop
  | .initializing _ => s.state = .initializing ∧ s.Vacant
  | .initialized _ _ => s.state = .initializing ∧ s.Vacant
  | .commitLock _ _ => s.state = .initializing ∧ s.Vacant
  | .faulting _ => s.state = .initializing ∧ s.Vacant
  | .commitStore _ service => s.state = .ready service ∧ s.Vacant
  | .commitReopen _ service stage =>
    s.state = .ready service ∧ s.published = some service ∧
      GateErrand.waitAndReopen.Inv s.readers stage
  | .commitEnter stripe service user =>
    s.Serving service ∧ s.readers.users[user]? = some (.entering stripe)
  | .sealGate service stage =>
    s.state = .sealing ∧ s.published = some service ∧ GateErrand.doSeal.Inv s.readers stage
  | .sealWithdraw service =>
    s.state = .sealing ∧ s.published = some service ∧ s.readers.gate.AllSealed ∧
      s.readers.manager = none
  | .sealWait _ stage =>
    s.state = .sealing ∧ s.published = none ∧ s.readers.gate.AllSealed ∧
      GateErrand.sealAndWait.Inv s.readers stage
  | .shutdown _ => s.state = .sealing ∧ s.Vacant
  | .sealFinish _ _ => s.state = .sealing ∧ s.Vacant
  | .armSealed _ => s.state = .closed ∧ s.Vacant
  | .armActive _ => s.state = .closed ∧ s.Vacant
  | .armPublished => s.state = .closed ∧ s.Vacant
  | _ => False

/-- The slot while no thread has it to itself. -/
def Rest (s : GenerationServiceSlot E w N) : Prop :=
  match s.state with
  | .ready service => s.Serving service
  | .initializing => False
  | .sealing => False
  | _ => s.Vacant

/-- Each arm's configuration is waiting, or was given to the initializer once. -/
structure Armed (s : GenerationServiceSlot E w N) : Prop where
  nodup : s.runs.Nodup
  runs  : ∀ config ∈ s.runs, config < s.arms
  cold  : ∀ config, s.state = .cold config → config < s.arms ∧ config ∉ s.runs

/-- **The invariant of the slot.** -/
structure Inv (s : GenerationServiceSlot E w N) : Prop where
  gate   : s.readers.Inv
  places : Places (fun _ => s.readers.users.length) (s.threads.map (·.ref))
  /-- At most one thread has the slot to itself. -/
  alone  : ∀ (k k' : Nat) x x', s.threads[k]? = some x → s.threads[k']? = some x' →
    x.exclusive = true → x'.exclusive = true → k = k'
  status : ∀ (k : Nat) x, s.threads[k]? = some x → x.exclusive = true → s.Status x
  rest   : (∀ (k : Nat) x, s.threads[k]? = some x → x.exclusive = false) → s.Rest
  armed  : s.Armed
  sound  : s.aborted = false

theorem new_inv : (new : GenerationServiceSlot E w N).Inv where
  gate := GateSystem.new_inv true
  places := ⟨fun k g u hk => by simp [new] at hk, fun k k' p hk => by simp [new] at hk⟩
  alone k k' x x' hx := by simp [new] at hx
  status k x hx := by simp [new] at hx
  rest _ := ⟨fun i => ⟨isSealed_sealedBit, active_sealedBit⟩, rfl, rfl⟩
  armed := ⟨nodup_nil, nofun, nofun⟩
  sound := rfl

variable {k : Nat} {x x' z : SlotThread E N}

theorem ref_getElem? (hx : s.threads[k]? = some x) : (s.threads.map (·.ref))[k]? = some x.ref := by
  rw [getElem?_map, hx]
  rfl

-- ---- Moves of users.

/-- Only the gate and the threads differ. -/
structure Same (s s' : GenerationServiceSlot E w N) : Prop where
  state     : s'.state = s.state
  published : s'.published = s.published
  arms      : s'.arms = s.arms
  runs      : s'.runs = s.runs
  aborted   : s'.aborted = s.aborted

theorem Vacant.of_visits (h : s.Vacant) (hsame : Same s s') (hv : Visits s.readers s'.readers) :
    s'.Vacant where
  idle i := hv.keep.stays (h.idle i)
  published := hsame.published.trans h.published
  unclaimed := hv.manager.trans h.unclaimed

theorem Serving.of_visits {service : Nat} (h : s.Serving service) (hsame : Same s s')
    (hv : Visits s.readers s'.readers) : s'.Serving service where
  ready := hsame.state.trans h.ready
  opened i := (hv.keep.isSealed i).trans (h.opened i)
  published := hsame.published.trans h.published
  unclaimed := hv.manager.trans h.unclaimed

theorem Status.of_visits (h : s.Status x) (hsame : Same s s') (hv : Visits s.readers s'.readers)
    (huser : ∀ user, x.ref = some ((), user) →
      s'.readers.users[user]? = s.readers.users[user]?) : s'.Status x := by
  have hvacant : ∀ {state}, s.state = state ∧ s.Vacant → s'.state = state ∧ s'.Vacant :=
    fun h => ⟨hsame.state.trans h.1, h.2.of_visits hsame hv⟩
  have hstate := hsame.state
  have hpublished := hsame.published
  cases x with
  | initializing stripe | initialized stripe service | commitLock stripe service
  | faulting fault | commitStore stripe service | shutdown service | sealFinish service fault
  | armSealed i | armActive i | armPublished => exact hvacant h
  | commitReopen stripe service stage | sealGate service stage =>
    exact ⟨hstate.trans h.1, hpublished.trans h.2.1, h.2.2.of_visits hv⟩
  | commitEnter stripe service user =>
    exact ⟨h.1.of_visits hsame hv, (huser user rfl).trans h.2⟩
  | sealWithdraw service =>
    exact ⟨hstate.trans h.1, hpublished.trans h.2.1, hv.keep.allSealed h.2.2.1,
      hv.manager.trans h.2.2.2⟩
  | sealWait service stage =>
    exact ⟨hstate.trans h.1, hpublished.trans h.2.1, hv.keep.allSealed h.2.2.1,
      h.2.2.2.of_visits hv⟩
  | _ => exact h.elim

theorem Rest.of_visits (h : s.Rest) (hsame : Same s s') (hv : Visits s.readers s'.readers) :
    s'.Rest := by
  unfold Rest at h ⊢
  rw [hsame.state]
  split at h
  · exact h.of_visits hsame hv
  · exact h
  · exact h
  · exact h.of_visits hsame hv

theorem Armed.of_eq (h : s.Armed) (hstate : s'.state = s.state) (hruns : s'.runs = s.runs)
    (harms : s'.arms = s.arms) : s'.Armed where
  nodup := hruns ▸ h.nodup
  runs config hmem := by
    rw [hruns] at hmem
    rw [harms]
    exact h.runs config hmem
  cold config hcold := by
    rw [hstate] at hcold
    rw [harms, hruns]
    exact h.cold config hcold

-- ---- Threads that have nothing to themselves.

theorem Inv.places_set (hinv : s.Inv) (hx : s.threads[k]? = some x)
    (href : z.ref = none ∨ z.ref = x.ref) {len : Nat} (hlen : s.readers.users.length ≤ len) :
    Places (fun _ => len) ((s.threads.set k z).map (·.ref)) := by
  rw [map_set]
  refine (hinv.places.set (href.imp_right fun h => ?_)).mono fun _ => hlen
  rw [h]
  exact ref_getElem? hx

theorem Inv.places_admit (hinv : s.Inv) (href : z.ref = some ((), s.readers.users.length))
    (stripe : Fin N) : Places (fun _ => (s.readers.admitted stripe).users.length)
      ((s.threads.set k z).map (·.ref)) := by
  rw [map_set, href]
  exact hinv.places.set_fresh (fun _ => by simp [admitted]) (by simp [admitted])

section

variable (hinv : s.Inv) (hx : s.threads[k]? = some x)
include hinv hx

/-- **Bystanders.** What a thread does without the lock and without a phase is
seen by nobody but the gate. -/
theorem Inv.of_bystander (hold : x.exclusive = false)
    (hnew : x'.exclusive = false) (hsame : Same s s') (hthreads : s'.threads = s.threads.set k x')
    (hgate : s'.readers.Inv) (hv : Visits s.readers s'.readers)
    (hplaces : Places (fun _ => s'.readers.users.length) (s'.threads.map (·.ref)))
    (huser : ∀ (j : Nat) y user, j ≠ k → s.threads[j]? = some y → y.ref = some ((), user) →
      s'.readers.users[user]? = s.readers.users[user]?) : s'.Inv := by
  -- a thread that has the slot to itself is another one, and was there before
  have hbefore : ∀ {j : Nat} {y : SlotThread E N}, s'.threads[j]? = some y →
      y.exclusive = true → j ≠ k ∧ s.threads[j]? = some y := by
    intro j y hy hexcl
    rw [hthreads] at hy
    rcases getElem?_set_cases hx hy with ⟨rfl, rfl⟩ | ⟨hne, hold⟩
    · rw [hnew] at hexcl
      cases hexcl
    · exact ⟨hne, hold⟩
  refine ⟨hgate, hplaces, ?_, ?_, ?_, hinv.armed.of_eq hsame.state hsame.runs hsame.arms,
    hsame.aborted.trans hinv.sound⟩
  · intro j j' y y' hy hy' hexcl hexcl'
    exact hinv.alone j j' y y' (hbefore hy hexcl).2 (hbefore hy' hexcl').2 hexcl hexcl'
  · intro j y hy hexcl
    obtain ⟨hne, hold⟩ := hbefore hy hexcl
    exact (hinv.status j y hold hexcl).of_visits hsame hv fun user => huser j y user hne hold
  · intro hnone
    refine (hinv.rest fun j y hy => ?_).of_visits hsame hv
    by_cases hjk : j = k
    · subst hjk
      rw [hx] at hy
      cases hy
      exact hold
    · refine hnone j y ?_
      rw [hthreads, getElem?_set_ne (Ne.symm hjk)]
      exact hy

theorem Inv.of_quiet (hold : x.exclusive = false)
    (hnew : x'.exclusive = false) (href : x'.ref = none ∨ x'.ref = x.ref) :
    (s.setThread k x').Inv :=
  hinv.of_bystander hx hold hnew ⟨rfl, rfl, rfl, rfl, rfl⟩ rfl hinv.gate ⟨.refl _, rfl⟩
    (hinv.places_set hx href (Nat.le_refl _)) fun _ _ _ _ _ _ => rfl

/-- The first access of `read_if_ready` makes the thread a user of the gate. -/
theorem Inv.of_admit (hold : x.exclusive = false)
    (hnew : x'.exclusive = false) (href : x'.ref = some ((), s.readers.users.length))
    {stripe : Fin N} (habort : s.readers.aborted = none) :
    ((s.setGate (s.readers.admitted stripe)).setThread k x').Inv := by
  refine hinv.of_bystander hx hold hnew ⟨rfl, rfl, rfl, rfl, rfl⟩ rfl
    (admitted_inv hinv.gate stripe habort) (admitted_visits stripe) (hinv.places_admit href stripe) ?_
  intro j y user _ hy href
  have hlt := hinv.places.bounded j () user (by rw [ref_getElem? hy, href])
  exact getElem?_append_left hlt

theorem Inv.users_other {user : Nat} (href : x.ref = some ((), user)) {gate : GateSystem w N}
    (hstep : s.readers.step .striped (.user user) = some gate) {j : Nat} {y : SlotThread E N}
    {user' : Nat} (hne : j ≠ k) (hy : s.threads[j]? = some y) (href' : y.ref = some ((), user')) :
    gate.users[user']? = s.readers.users[user']? := by
  refine (users_of_user hstep).2 user' fun huser => hne ?_
  subst huser
  refine hinv.places.distinct j k ((), user') ?_ ?_
  · rw [ref_getElem? hy, href']
  · rw [ref_getElem? hx, href]

theorem Inv.of_user (hold : x.exclusive = false)
    {user : Nat} (href : x.ref = some ((), user)) {next : Option (GateUser N) → SlotThread E N}
    (hnew : ∀ u, (next u).exclusive = false)
    (href' : ∀ u, (next u).ref = none ∨ (next u).ref = x.ref)
    (h : s.userStep k user next = some s') : s'.Inv := by
  unfold userStep at h
  obtain ⟨gate, hgate, rfl⟩ := map_eq_some_iff.mp h
  exact hinv.of_bystander hx hold (hnew _) ⟨rfl, rfl, rfl, rfl, rfl⟩ rfl (hinv.gate.step hgate)
    (visits_of_user hinv.gate hgate)
    (hinv.places_set hx (href' _) (Nat.le_of_eq (users_of_user hgate).1.symm))
    fun _ _ _ hne hy hr => hinv.users_other hx href hgate hne hy hr

end

-- ---- The thread that has the slot to itself.

/-- No thread but `k` has the slot to itself. -/
def Alone (s : GenerationServiceSlot E w N) (k : Nat) : Prop :=
  ∀ (j : Nat) y, j ≠ k → s.threads[j]? = some y → y.exclusive = false

theorem Inv.alone_of_exclusive (hinv : s.Inv) (hx : s.threads[k]? = some x)
    (hexcl : x.exclusive = true) : s.Alone k := by
  intro j y hne hy
  cases hy' : y.exclusive with
  | false => rfl
  | true => exact absurd (hinv.alone j k y x hy hx hy' hexcl) hne

/-- Without the lock a thread has the slot to itself only through a phase. -/
theorem Inv.none_of_unlocked (hinv : s.Inv) (hlock : s.locked = false)
    (hinit : s.state ≠ .initializing) (hseal : s.state ≠ .sealing) (j : Nat)
    (y : SlotThread E N) (hy : s.threads[j]? = some y) : y.exclusive = false := by
  cases hexcl : y.exclusive with
  | false => rfl
  | true =>
    have hlocks : y.locks = false := by
      have hall := List.any_eq_false.mp hlock y (mem_of_getElem? hy)
      simpa using hall
    have hstatus := hinv.status j y hy hexcl
    cases y with
    | initializing stripe | initialized stripe service | commitLock stripe service
    | faulting fault => exact absurd hstatus.1 hinit
    | sealWait service stage | shutdown service | sealFinish service fault =>
      exact absurd hstatus.1 hseal
    | _ => first | (cases hexcl; done) | cases hlocks

/-- **The one mover.** The thread that has the slot to itself, or takes it, moves
the slot on: it says what holds next, whether it keeps the slot or leaves it. -/
theorem Inv.of_move (hx : s.threads[k]? = some x) (halone : s.Alone k)
    (hthreads : s'.threads = s.threads.set k z) (hgate : s'.readers.Inv)
    (hplaces : Places (fun _ => s'.readers.users.length) ((s.threads.set k z).map (·.ref)))
    (hstatus : z.exclusive = true → s'.Status z) (hrest : z.exclusive = false → s'.Rest)
    (harmed : s'.Armed) (hsound : s'.aborted = false) : s'.Inv := by
  have hnew : ∀ {j : Nat} {y : SlotThread E N}, s'.threads[j]? = some y →
      y.exclusive = true → j = k ∧ y = z := by
    intro j y hy hexcl
    rw [hthreads] at hy
    rcases getElem?_set_cases hx hy with ⟨rfl, rfl⟩ | ⟨hne, hold⟩
    · exact ⟨rfl, rfl⟩
    · rw [halone j y hne hold] at hexcl
      cases hexcl
  have hself : s'.threads[k]? = some z := by
    rw [hthreads]
    exact getElem?_set_self (List.getElem_of_getElem? hx).1
  refine ⟨hgate, hthreads ▸ hplaces, ?_, ?_, ?_, harmed, hsound⟩
  · intro j j' y y' hy hy' hexcl hexcl'
    exact (hnew hy hexcl).1.trans (hnew hy' hexcl').1.symm
  · intro j y hy hexcl
    obtain ⟨rfl, rfl⟩ := hnew hy hexcl
    exact hstatus hexcl
  · exact fun hnone => hrest (hnone k z hself)

theorem Inv.of_step (hinv : s.Inv) (hx : s.threads[k]? = some x) (halone : s.Alone k)
    (hthreads : s'.threads = s.threads.set k x') (hgate : s'.readers = s.readers)
    (href : x'.ref = none) (hstatus : x'.exclusive = true → s'.Status x')
    (hrest : x'.exclusive = false → s'.Rest) (harmed : s'.Armed) (hsound : s'.aborted = s.aborted) :
    s'.Inv := by
  refine Inv.of_move hx halone hthreads (hgate ▸ hinv.gate) ?_ hstatus hrest harmed
    (hsound.trans hinv.sound)
  exact hinv.places_set hx (.inl href) (Nat.le_of_eq (by rw [hgate]))

theorem Armed.setState (h : s.Armed) (hruns : s'.runs = s.runs) (harms : s'.arms = s.arms)
    (hcold : ∀ config, s'.state ≠ .cold config) : s'.Armed where
  nodup := hruns ▸ h.nodup
  runs config hmem := by
    rw [hruns] at hmem
    rw [harms]
    exact h.runs config hmem
  cold config hc := absurd hc (hcold config)

theorem Inv.of_drive (hinv : s.Inv) (hx : s.threads[k]? = some x) (halone : s.Alone k)
    {errand : GateErrand} {stage : ErrandStage} (habort : s.readers.aborted = none)
    (hstage : errand.Inv s.readers stage) {running : ErrandStage → SlotThread E N}
    {finished : GateSystem w N → GenerationServiceSlot E w N}
    {out : Progress (GateSystem w N) ErrandStage} (hout : errand.step s.readers stage = some out)
    (href : ∀ stage, (running stage).ref = none)
    (hexcl : ∀ stage, (running stage).exclusive = true)
    (hrunning : ∀ gate stage', out = .running gate stage' → errand.Inv gate stage' →
      ((s.setGate gate).setThread k (running stage')).Status (running stage'))
    (hfinished : ∀ gate ok, out = .done gate ok → gate.Inv → Drives s.readers gate →
      gate.manager = none → errand.Post gate → (finished gate).Inv) :
    (s.drive k running finished out).Inv := by
  have hyields := GateErrand.step_yields hinv.gate habort hstage hout
  cases out with
  | running gate stage' =>
    obtain ⟨hgate, hdrives, hinv'⟩ := hyields
    refine Inv.of_move hx halone rfl hgate ?_ (fun _ => hrunning gate stage' rfl hinv') ?_
      (hinv.armed.of_eq rfl rfl rfl) hinv.sound
    · exact hinv.places_set hx (.inl (href stage')) (Nat.le_of_eq (by rw [← hdrives.users]; rfl))
    · intro hnot
      rw [hexcl stage'] at hnot
      cases hnot
  | done gate ok =>
    obtain ⟨hgate, hdrives, hmanager, hpost⟩ := hyields
    exact hfinished gate ok rfl hgate hdrives hmanager hpost
  | failStop => exact hyields.elim

/-- The commit: the state is `Ready`, the pointer is stored, the gate reopened, and
the initializer takes the first permit. -/
theorem Inv.of_commit (hinv : s.Inv) (habort : s.readers.aborted = none)
    (hx : s.threads[k]? = some x) (hcommit : x matches
      .commitLock .. | .commitStore .. | .commitReopen .. | .commitEnter ..)
    (h : s.threadStep k x = some s') : s'.Inv := by
  cases x with
  | commitLock stripe service =>
    have halone := hinv.alone_of_exclusive hx rfl
    obtain ⟨-, hvacant⟩ := hinv.status k _ hx rfl
    simp only [threadStep] at h
    split at h
    next => cases h
    next =>
      cases h
      exact hinv.of_step hx halone rfl rfl rfl
        (fun _ => ⟨rfl, hvacant.idle, hvacant.published, hvacant.unclaimed⟩) (fun h => by cases h)
        (hinv.armed.setState rfl rfl (by intro n; rintro ⟨⟩)) rfl
  | commitStore stripe service =>
    have halone := hinv.alone_of_exclusive hx rfl
    obtain ⟨hstate, hvacant⟩ := hinv.status k _ hx rfl
    cases h
    exact hinv.of_step hx halone rfl rfl rfl
      (fun _ => ⟨hstate, rfl, hvacant.unclaimed, hvacant.idle⟩) (fun h => by cases h)
      (hinv.armed.of_eq rfl rfl rfl) rfl
  | commitReopen stripe service stage =>
    have halone := hinv.alone_of_exclusive hx rfl
    obtain ⟨hstate, hpublished, hstage⟩ := hinv.status k _ hx rfl
    simp only [threadStep] at h
    obtain ⟨out, hout, rfl⟩ := map_eq_some_iff.mp h
    refine hinv.of_drive hx halone habort hstage hout (fun _ => rfl) (fun _ => rfl) ?_ ?_
    · exact fun gate stage' _ hstage' => ⟨hstate, hpublished, hstage'⟩
    · intro gate ok _ hgate hdrives hmanager hopen
      have hlen : gate.users.length = s.readers.users.length := by rw [hdrives.users]
      refine Inv.of_move hx halone rfl (admitted_inv hgate stripe (hdrives.aborted.trans habort)) ?_
        (fun _ => ⟨⟨hstate, hopen, hpublished, hmanager⟩, ?_⟩) (fun h => by cases h)
        (hinv.armed.of_eq rfl rfl rfl) hinv.sound
      · have h := hinv.places_admit (k := k)
          (z := .commitEnter stripe service s.readers.users.length) rfl stripe
        rw [← hlen] at h
        refine h.mono fun _ => ?_
        simp [admitted, setGate, setThread, hlen]
      · exact getElem?_concat_length
  | commitEnter stripe service user =>
    have halone := hinv.alone_of_exclusive hx rfl
    obtain ⟨hserving, huser⟩ := hinv.status k _ hx rfl
    simp only [threadStep] at h
    obtain ⟨gate, hgate, rfl⟩ := map_eq_some_iff.mp h
    have hv := visits_of_user hinv.gate hgate
    have hlen := Nat.le_of_eq (users_of_user hgate).1.symm
    split
    next =>
      refine Inv.of_move hx halone rfl (hinv.gate.step hgate)
        (hinv.places_set (z := .reading user service) hx (.inr rfl) hlen) (fun h => by cases h)
        (fun _ => ?_) (hinv.armed.of_eq rfl rfl rfl) hinv.sound
      have hserving' : ((s.setGate gate).setThread k (.reading user service)).Serving service :=
        hserving.of_visits ⟨rfl, rfl, rfl, rfl, rfl⟩ hv
      unfold Rest
      rw [hserving'.ready]
      exact hserving'
    next hnot =>
      -- the stripe is open, so the permit is refused only by a full count
      rcases enter_of_open huser (hserving.opened stripe) hgate with hholding | ⟨hfull, husers⟩
      · exact absurd hholding hnot
      · rw [if_pos hfull]
        have hset : s.threads.set k (.commitEnter stripe service user) = s.threads :=
          ext_getElem? fun j => by grind
        refine Inv.of_move (z := .commitEnter stripe service user) hx halone hset.symm
          (hinv.gate.step hgate) (hinv.places_set hx (.inr rfl) hlen)
          (fun _ => ⟨hserving.of_visits ⟨rfl, rfl, rfl, rfl, rfl⟩ hv, ?_⟩) (fun h => by cases h)
          (hinv.armed.of_eq rfl rfl rfl) hinv.sound
        show gate.users[user]? = _
        rw [husers]
        exact huser
  | _ => cases hcommit

/-- Sealing: the gate is sealed and the pointer withdrawn under the lock, then the
readers are waited for and the service is shut down. -/
theorem Inv.of_sealing (hinv : s.Inv) (habort : s.readers.aborted = none)
    (hx : s.threads[k]? = some x) (hseals : x.ownsSealing = true) (h : s.threadStep k x = some s') :
    s'.Inv := by
  cases x with
  | sealGate service stage =>
    have halone := hinv.alone_of_exclusive hx rfl
    obtain ⟨hstate, hpublished, hstage⟩ := hinv.status k _ hx rfl
    simp only [threadStep] at h
    obtain ⟨out, hout, rfl⟩ := map_eq_some_iff.mp h
    refine hinv.of_drive hx halone habort hstage hout (fun _ => rfl) (fun _ => rfl) ?_ ?_
    · exact fun gate stage' _ hstage' => ⟨hstate, hpublished, hstage'⟩
    · intro gate ok _ hgate hdrives hmanager hsealed
      refine Inv.of_move hx halone rfl hgate ?_
        (fun _ => ⟨hstate, hpublished, hsealed, hmanager⟩) nofun
        (hinv.armed.of_eq rfl rfl rfl) hinv.sound
      exact hinv.places_set hx (.inl rfl) (Nat.le_of_eq (by rw [← hdrives.users]; rfl))
  | sealWithdraw service =>
    have halone := hinv.alone_of_exclusive hx rfl
    obtain ⟨hstate, -, hsealed, hmanager⟩ := hinv.status k _ hx rfl
    cases h
    exact hinv.of_step hx halone rfl rfl rfl (fun _ => ⟨hstate, rfl, hsealed, hmanager⟩) nofun
      (hinv.armed.of_eq rfl rfl rfl) rfl
  | sealWait service stage =>
    have halone := hinv.alone_of_exclusive hx rfl
    obtain ⟨hstate, hpublished, hsealed, hstage⟩ := hinv.status k _ hx rfl
    simp only [threadStep] at h
    obtain ⟨out, hout, rfl⟩ := map_eq_some_iff.mp h
    have hkeeps := GateErrand.step_allSealed hinv.gate habort (by decide) hstage hsealed hout
    refine hinv.of_drive hx halone habort hstage hout (fun _ => rfl) (fun _ => rfl) ?_ ?_
    · rintro gate stage' rfl hstage'
      exact ⟨hstate, hpublished, hkeeps, hstage'⟩
    · intro gate ok _ hgate hdrives hmanager hidle
      refine Inv.of_move hx halone rfl hgate ?_
        (fun _ => ⟨hstate, hidle, hpublished, hmanager⟩) nofun
        (hinv.armed.of_eq rfl rfl rfl) hinv.sound
      exact hinv.places_set hx (.inl rfl) (Nat.le_of_eq (by rw [← hdrives.users]; rfl))
  | shutdown service =>
    have halone := hinv.alone_of_exclusive hx rfl
    obtain ⟨hstate, hvacant⟩ := hinv.status k _ hx rfl
    cases h
    exact hinv.of_step hx halone rfl rfl rfl
      (fun _ => ⟨hstate, hvacant.idle, hvacant.published, hvacant.unclaimed⟩) nofun
      (hinv.armed.of_eq rfl rfl rfl) rfl
  | sealFinish service fault =>
    have halone := hinv.alone_of_exclusive hx rfl
    obtain ⟨-, hvacant⟩ := hinv.status k _ hx rfl
    simp only [threadStep] at h
    split at h
    next => cases h
    next =>
      cases fault with
      | none | some fault =>
        cases h
        exact hinv.of_step hx halone rfl rfl rfl nofun
          (fun _ => ⟨hvacant.idle, hvacant.published, hvacant.unclaimed⟩)
          (hinv.armed.setState rfl rfl nofun) rfl
  | _ => cases hseals

/-- Initializing: the callbacks run without the lock and fail at most once. -/
theorem Inv.of_callback (hinv : s.Inv) (hx : s.threads[k]? = some x)
    (howns : x.ownsInitializing = true) (howns' : x'.ownsInitializing = true) {services : Nat} :
    ({ s with services := services }.setThread k x').Inv := by
  have hexcl : ∀ {y : SlotThread E N}, y.ownsInitializing = true →
      y.exclusive = true ∧ y.ref = none ∧
        ∀ t : GenerationServiceSlot E w N, t.Status y ↔ t.state = .initializing ∧ t.Vacant := by
    intro y hy
    cases y with
    | initializing stripe | initialized stripe service | commitLock stripe service
    | faulting fault => exact ⟨rfl, rfl, fun _ => Iff.rfl⟩
    | _ => cases hy
  obtain ⟨hstate, hvacant⟩ := ((hexcl howns).2.2 s).mp (hinv.status k x hx (hexcl howns).1)
  refine hinv.of_step hx (hinv.alone_of_exclusive hx (hexcl howns).1) rfl rfl (hexcl howns').2.1
    (fun _ => ((hexcl howns').2.2 _).mpr
      ⟨hstate, hvacant.idle, hvacant.published, hvacant.unclaimed⟩) ?_
    (hinv.armed.of_eq rfl rfl rfl) rfl
  intro hnot
  rw [(hexcl howns').1] at hnot
  cases hnot

/-- What a thread does with the state lock to a slot that nobody has to himself. -/
theorem Inv.of_lock (hinv : s.Inv) (k : Nat)
    (hlock : s.locked = false) (hinit : s.state ≠ .initializing) (hseal : s.state ≠ .sealing) :
    s.Alone k ∧ s.Rest :=
  ⟨fun j y _ hy => hinv.none_of_unlocked hlock hinit hseal j y hy,
    hinv.rest (hinv.none_of_unlocked hlock hinit hseal)⟩

theorem Rest.vacant (h : s.Rest) (hready : ∀ service, s.state ≠ .ready service) : s.Vacant := by
  unfold Rest at h
  split at h
  next service hs => exact absurd hs (hready service)
  next => exact h.elim
  next => exact h.elim
  next => exact h

theorem Inv.of_close (hinv : s.Inv) (hx : s.threads[k]? = some x) (hlock : s.locked = false)
    (hinit : s.state ≠ .initializing) (hseal : s.state ≠ .sealing)
    (hready : ∀ service, s.state ≠ .ready service) {error : Option (ServiceSlotError E)} :
    ((s.setState .closed).setThread k (.finished error)).Inv := by
  obtain ⟨halone, hrest⟩ := hinv.of_lock k hlock hinit hseal
  have hvacant := hrest.vacant hready
  exact hinv.of_step hx halone rfl rfl rfl nofun
    (fun _ => ⟨hvacant.idle, hvacant.published, hvacant.unclaimed⟩)
    (hinv.armed.setState rfl rfl nofun) rfl

theorem Inv.of_readSlow (hinv : s.Inv) {stripe : Fin N}
    (hx : s.threads[k]? = some (.readLock stripe)) (hlock : s.locked = false)
    (h : s.readSlow k stripe = some s') : s'.Inv := by
  unfold readSlow at h
  split at h
  next =>
    cases h
    exact hinv.of_quiet hx rfl rfl (.inl rfl)
  next =>
    cases h
    exact hinv.of_quiet hx rfl rfl (.inl rfl)
  next =>
    cases h
    exact hinv.of_quiet hx rfl rfl (.inl rfl)
  next => cases h
  next => cases h
  next config hstate =>
    cases h
    obtain ⟨halone, hrest⟩ := hinv.of_lock k hlock (by simp [hstate]) (by simp [hstate])
    have hvacant := hrest.vacant (by simp [hstate])
    obtain ⟨hlt, hnew⟩ := hinv.armed.cold config hstate
    refine hinv.of_step hx halone rfl rfl rfl
      (fun _ => ⟨rfl, hvacant.idle, hvacant.published, hvacant.unclaimed⟩) nofun ⟨?_, ?_, nofun⟩ rfl
    · show (s.runs ++ [config]).Nodup
      rw [← concat_eq_append]
      exact hinv.armed.nodup.concat hnew
    · intro c hc
      rcases mem_append.mp hc with hold | hlast
      · exact hinv.armed.runs c hold
      · rw [mem_singleton.mp hlast]
        exact hlt
  next =>
    cases h
    exact hinv.of_quiet hx rfl rfl (.inl rfl)

theorem Inv.of_beginSeal (hinv : s.Inv) (hx : s.threads[k]? = some .sealLock)
    (hlock : s.locked = false) (h : s.beginSeal k = some s') : s'.Inv := by
  unfold beginSeal at h
  split at h
  next => cases h
  next => cases h
  next =>
    cases h
    exact hinv.of_quiet hx rfl rfl (.inl rfl)
  next runtime hstate =>
    cases h
    obtain ⟨halone, hrest⟩ := hinv.of_lock k hlock (by simp [hstate]) (by simp [hstate])
    unfold Rest at hrest
    rw [hstate] at hrest
    exact hinv.of_step hx halone rfl rfl rfl
      (fun _ => ⟨rfl, hrest.published, hrest.unclaimed⟩) nofun (hinv.armed.setState rfl rfl nofun) rfl
  all_goals
    next hstate =>
      cases h
      exact hinv.of_close hx hlock (by simp [hstate]) (by simp [hstate]) (by simp [hstate])

theorem Inv.of_disarm (hinv : s.Inv) (hx : s.threads[k]? = some .disarmLock)
    (hlock : s.locked = false) : (s.disarm k).Inv := by
  unfold disarm
  split
  next hstate => exact hinv.of_close hx hlock (by simp [hstate]) (by simp [hstate]) (by simp [hstate])
  next hstate => exact hinv.of_close hx hlock (by simp [hstate]) (by simp [hstate]) (by simp [hstate])
  next => exact hinv.of_quiet hx rfl rfl (.inl rfl)
  next => exact hinv.of_quiet hx rfl rfl (.inl rfl)

/-- Arming: the checks of `arm` under the lock, then the state is `Cold`. -/
theorem Inv.of_arming (hinv : s.Inv) (hx : s.threads[k]? = some x)
    (harms : x matches .armLock | .armSealed _ | .armActive _ | .armPublished)
    (h : s.threadStep k x = some s') : s'.Inv := by
  -- `arm` goes on, or gives the lock back with the slot as it was
  have hnext : ∀ {x' : SlotThread E N}, s.Alone k → s.state = .closed → s.Vacant → x'.ref = none →
      (x'.exclusive = true → ∀ t : GenerationServiceSlot E w N, t.state = .closed → t.Vacant →
        t.Status x') → (s.setThread k x').Inv := by
    intro x' halone hstate hvacant href hstatus
    have hvacant' : (s.setThread k x').Vacant :=
      ⟨hvacant.idle, hvacant.published, hvacant.unclaimed⟩
    refine hinv.of_step hx halone rfl rfl href (fun hexcl => hstatus hexcl _ hstate hvacant')
      (fun _ => ?_) (hinv.armed.of_eq rfl rfl rfl) rfl
    unfold Rest
    rw [show (s.setThread k x').state = .closed from hstate]
    exact hvacant'
  cases x with
  | armLock =>
    simp only [threadStep] at h
    split at h
    next => cases h
    next hlock =>
      split at h
      next hstate =>
        cases h
        obtain ⟨halone, hrest⟩ := hinv.of_lock k (by simpa using hlock) (by simp [hstate])
          (by simp [hstate])
        exact hnext halone hstate (hrest.vacant (by simp [hstate])) rfl fun _ _ hs hv => ⟨hs, hv⟩
      next =>
        cases h
        exact hinv.of_quiet hx rfl rfl (.inl rfl)
  | armSealed i | armActive i =>
    obtain ⟨hstate, hvacant⟩ := hinv.status k _ hx rfl
    have halone := hinv.alone_of_exclusive hx rfl
    simp only [threadStep] at h
    split at h
    · split at h
      · cases h
        exact hnext halone hstate hvacant rfl fun _ _ hs hv => ⟨hs, hv⟩
      · cases h
        exact hnext halone hstate hvacant rfl nofun
    · cases h
      exact hnext halone hstate hvacant rfl fun _ _ hs hv => ⟨hs, hv⟩
  | armPublished =>
    obtain ⟨hstate, hvacant⟩ := hinv.status k _ hx rfl
    have halone := hinv.alone_of_exclusive hx rfl
    simp only [threadStep, hvacant.published, if_true] at h
    cases h
    refine hinv.of_step hx halone rfl rfl rfl nofun
      (fun _ => ⟨hvacant.idle, hvacant.published, hvacant.unclaimed⟩) ⟨hinv.armed.nodup, ?_, ?_⟩ rfl
    · exact fun c hc => Nat.lt_succ_of_lt (hinv.armed.runs c hc)
    · intro c hc
      cases hc
      exact ⟨Nat.lt_succ_self _, fun hmem => Nat.lt_irrefl _ (hinv.armed.runs _ hmem)⟩
  | _ => cases harms

theorem Inv.of_reading (hinv : s.Inv) (habort : s.readers.aborted = none)
    (hx : s.threads[k]? = some x)
    (hreads : x matches .readStart .. | .readEnter .. | .readPointer .. | .readBack .. |
      .reading .. | .releasing ..) (h : s.threadStep k x = some s') : s'.Inv := by
  cases x with
  | readStart stripe =>
    cases h
    exact hinv.of_admit hx rfl rfl rfl habort
  | readEnter stripe user =>
    simp only [threadStep] at h
    refine hinv.of_user hx rfl rfl (fun u => ?_) (fun u => ?_) h
    · split <;> rfl
    · split
      · exact .inr rfl
      · exact .inl rfl
  | readPointer stripe user =>
    simp only [threadStep] at h
    split at h
    · cases h
      exact hinv.of_quiet hx rfl rfl (.inr rfl)
    · cases h
      exact hinv.of_quiet hx rfl rfl (.inr rfl)
  | readBack stripe user | reading user service | releasing user =>
    simp only [threadStep] at h
    refine hinv.of_user hx rfl rfl (fun u => ?_) (fun u => ?_) h
    · split <;> rfl
    · split
      · exact .inl rfl
      · exact .inr rfl
  | _ => cases hreads

theorem Inv.of_thread (hinv : s.Inv) (habort : s.readers.aborted = none)
    (hx : s.threads[k]? = some x) (h : s.threadStep k x = some s') : s'.Inv := by
  cases x with
  | readStart stripe | readEnter stripe user | readPointer stripe user | readBack stripe user
  | reading user service | releasing user => exact hinv.of_reading habort hx rfl h
  | readLock stripe =>
    simp only [threadStep] at h
    split at h
    next => cases h
    next hlock => exact hinv.of_readSlow hx (by simpa using hlock) h
  | initializing stripe | initialized stripe service =>
    cases h
    exact hinv.of_callback hx rfl rfl
  | commitLock stripe service | commitStore stripe service | commitReopen stripe service stage
  | commitEnter stripe service user => exact hinv.of_commit habort hx rfl h
  | faulting fault =>
    have halone := hinv.alone_of_exclusive hx rfl
    obtain ⟨-, hvacant⟩ := hinv.status k _ hx rfl
    simp only [threadStep] at h
    split at h
    next => cases h
    next =>
      cases h
      exact hinv.of_step hx halone rfl rfl rfl nofun
        (fun _ => ⟨hvacant.idle, hvacant.published, hvacant.unclaimed⟩)
        (hinv.armed.setState rfl rfl nofun) rfl
  | sealLock =>
    simp only [threadStep] at h
    split at h
    next => cases h
    next hlock => exact hinv.of_beginSeal hx (by simpa using hlock) h
  | sealGate service stage | sealWithdraw service | sealWait service stage | shutdown service
  | sealFinish service fault => exact hinv.of_sealing habort hx rfl h
  | armLock | armSealed i | armActive i | armPublished => exact hinv.of_arming hx rfl h
  | disarmLock =>
    simp only [threadStep] at h
    split at h
    next => cases h
    next hlock =>
      cases h
      exact hinv.of_disarm hx (by simpa using hlock)
  | finished error => cases h

/-- **The invariant is kept by every step.** -/
theorem Inv.step (hinv : s.Inv) (h : s.step action = some s') : s'.Inv := by
  unfold GenerationServiceSlot.step at h
  split at h
  next => cases h
  next hguard =>
    have habort : s.readers.aborted = none := by
      cases ha : s.readers.aborted with
      | none => rfl
      | some why => exact absurd (.inr (by rw [ha]; rfl)) hguard
    cases action with
    | call c =>
      cases h
      have hfresh : (c.start : SlotThread E N).exclusive = false ∧
          (c.start : SlotThread E N).ref = none := by
        cases c <;> exact ⟨rfl, rfl⟩
      have hbefore : ∀ {j : Nat} {y : SlotThread E N}, (s.threads ++ [c.start])[j]? = some y →
          y.exclusive = true → s.threads[j]? = some y := by
        intro j y hy hexcl
        rcases getElem?_append_singleton_cases hy with hold | ⟨-, rfl⟩
        · exact hold
        · rw [hfresh.1] at hexcl
          cases hexcl
      refine ⟨hinv.gate, ?_, ?_, ?_, ?_, hinv.armed.of_eq rfl rfl rfl, hinv.sound⟩
      · show Places _ ((s.threads ++ [_]).map _)
        rw [map_append, map_singleton, hfresh.2]
        exact hinv.places.append
      · intro j j' y y' hy hy' hexcl hexcl'
        exact hinv.alone j j' y y' (hbefore hy hexcl) (hbefore hy' hexcl') hexcl hexcl'
      · intro j y hy hexcl
        exact (hinv.status j y (hbefore hy hexcl) hexcl).of_visits ⟨rfl, rfl, rfl, rfl, rfl⟩
          ⟨.refl _, rfl⟩ fun _ _ => rfl
      · intro hnone
        refine (hinv.rest fun j y hy => hnone j y ?_).of_visits ⟨rfl, rfl, rfl, rfl, rfl⟩
          ⟨.refl _, rfl⟩
        exact (getElem?_append_left (List.getElem_of_getElem? hy).1).trans hy
    | thread k =>
      simp only [] at h
      split at h
      next x hx => exact hinv.of_thread habort hx h
      next => cases h
    | fault k f =>
      simp only [] at h
      split at h
      next x hx =>
        cases x with
        | initializing stripe =>
          cases h
          exact hinv.of_callback hx rfl rfl
        | initialized stripe service =>
          simp only [callbackFault] at h
          split at h
          next =>
            cases h
            exact hinv.of_callback hx rfl rfl
          next => cases h
        | shutdown service =>
          cases h
          obtain ⟨hstate, hvacant⟩ := hinv.status k _ hx rfl
          exact hinv.of_step hx (hinv.alone_of_exclusive hx rfl) rfl rfl rfl
            (fun _ => ⟨hstate, hvacant.idle, hvacant.published, hvacant.unclaimed⟩) nofun
            (hinv.armed.of_eq rfl rfl rfl) rfl
        | _ => cases h
      next => cases h

end GenerationServiceSlot

end Xlfn.Kernel
