import Xlfn.Subscription.Disconnect

/-!
# Xlfn — the capacity of the deferred disconnect pool

A reservation is granted a `required` that counts the reservations there were at that
moment, itself included. So of the reservations that exist at any time at most `k`
have a `required` of `k` or less (`graded`), whatever came and went since; a
reservation that was handed out has its `required` within the storage of the job
queue (`ready`); and together these leave room for every commit.

* `PoolWf` — the invariant, kept by every step (`PoolWf.step`).
-/

namespace Xlfn.Subscription.Disconnect

open Lib Kernel List DisconnectPool

-- ---- The invariant.

namespace ReservePc

/-- The reservation exists. -/
def holds (pc : ReservePc) : Bool := pc.required.isSome

/-- The reservation exists and was granted `k` or less. -/
def within (k : Nat) (pc : ReservePc) : Bool := pc.required.any (· ≤ k)

/-- The reservation is with a job. -/
def isCommitted : ReservePc → Bool
  | .committed _ => true
  | _ => false

/-- The reservation was handed out by `reserve`. -/
def granted : ReservePc → Option Nat
  | .held required | .committed required => some required
  | _ => none

theorem granted_required {pc : ReservePc} {required : Nat} (h : pc.granted = some required) :
    pc.required = some required := by
  cases pc <;> first | exact h | cases h

theorem granted_of_isCommitted {pc : ReservePc} (h : pc.isCommitted = true) :
    ∃ required, pc.granted = some required := by
  cases pc with
  | committed required => exact ⟨required, rfl⟩
  | _ => cases h

end ReservePc

namespace WorkerPc

/-- The job the worker has not finished. -/
def working : WorkerPc → List Nat
  | .finishing job => [job]
  | _ => []

/-- The job whose reservation the worker holds. -/
def carries : WorkerPc → List Nat
  | .finishing job | .releasing job => [job]
  | _ => []

/-- The worker steps up to its next look at the queue. -/
def distance : WorkerPc → Nat
  | .finishing _ => 2
  | .releasing _ | .parked => 1
  | .absent | .checking | .exited => 0

end WorkerPc

/-- The steps the worker is away from having emptied the queue. -/
def DisconnectPool.distance (p : DisconnectPool) : Nat :=
  3 * p.queue.jobs.length + p.thread.distance

/-- The invariant of the pool. -/
structure PoolWf (p : DisconnectPool) : Prop where
  sound       : p.aborted = false ∧ p.underflow = false ∧ p.grew = false
  outstanding : p.queue.outstanding = p.reservations.countP (·.holds)
  bounded     : p.queue.outstanding ≤ p.capacity
  graded      : ∀ k, p.reservations.countP (·.within k) ≤ k
  stored      : p.queue.storageCapacity ≤ p.queue.jobsCapacity
  ready       : ∀ pc ∈ p.reservations, ∀ required, pc.granted = some required →
    required ≤ p.queue.jobsCapacity
  custody     : p.reservations.countP (·.isCommitted) =
    p.queue.jobs.length + p.thread.carries.length
  carried     : ∀ job ∈ p.thread.carries ++ p.queue.jobs,
    ∃ required, p.reservations[job]? = some (.committed required)
  order       : p.committed = p.finished ++ p.thread.working ++ p.queue.jobs
  used        : ∀ job ∈ p.committed, p.reservations[job]? = some .released ∨
    ∃ required, p.reservations[job]? = some (.committed required)
  nodup       : p.committed.Nodup
  woken       : p.thread = .parked → (p.queue.jobs = [] ∨ 0 < p.notifies) ∧
    (p.queue.stopping = true → p.stop = .notifying)
  exited      : p.thread = .exited → p.queue.jobs = [] ∧ p.queue.stopping = true
  absent      : p.thread = .absent → p.published = false
  unpublished : p.published = false → p.queue.jobs = [] ∧ ∀ pc ∈ p.reservations,
    pc.required = none ∧ pc ≠ .checkClosed ∧ pc ≠ .quota
  asked       : p.queue.stopping = true → p.stop ≠ .idle ∧ p.stop ≠ .claimed
  apart       : (p.thread.carries ++ p.queue.jobs).Nodup
  dormant     : p.worker = .dormant → p.thread = .absent
  running     : p.worker = .running ∨ p.stop = .claimed → p.published = true
  stopped     : p.stop = .idle ↔ p.worker ≠ .stopped
  joined      : p.stop = .joined → p.thread = .exited ∨ p.thread = .absent

namespace PoolWf

variable {p : DisconnectPool} {call : Nat} {pc : ReservePc}

theorem new (capacity : Nat) : PoolWf (new capacity) where
  sound := ⟨rfl, rfl, rfl⟩
  outstanding := rfl
  bounded := Nat.zero_le _
  graded := fun k => Nat.zero_le k
  stored := Nat.le_refl _
  ready := fun pc hpc => by cases hpc
  custody := rfl
  carried := fun job hjob => by cases hjob
  order := rfl
  used := fun job hjob => by cases hjob
  nodup := nodup_nil
  woken := nofun
  exited := nofun
  absent := fun _ => rfl
  unpublished := fun _ => ⟨rfl, fun pc hpc => by cases hpc⟩
  asked := nofun
  apart := nodup_nil
  dormant := fun _ => rfl
  running := fun h => by rcases h with h | h <;> cases h
  stopped := ⟨fun _ => nofun, fun _ => rfl⟩
  joined := nofun

variable {pc' : ReservePc}

theorem countP_set_same {l : List ReservePc} (f : ReservePc → Bool) (hcall : l[call]? = some pc)
    (hf : f pc' = f pc) : (l.set call pc').countP f = l.countP f := by
  have hset := countP_set_add f pc' hcall
  rw [hf] at hset
  exact Nat.add_right_cancel hset

/-- No more jobs than reservations whose `required` the storage covers, and a
reservation that is not committed leaves room for one more. -/
theorem room (h : PoolWf p) (call : Nat) : p.queue.jobs.length ≤ p.queue.jobsCapacity ∧
    ∀ required, p.reservations[call]? = some (.held required) →
      p.queue.jobs.length < p.queue.jobsCapacity := by
  have hgraded := h.graded p.queue.jobsCapacity
  have hgranted : ∀ pc ∈ p.reservations, ∀ required, pc.granted = some required →
      pc.within p.queue.jobsCapacity = true := by
    intro pc hpc required hg
    rw [ReservePc.within, ReservePc.granted_required hg]
    exact decide_eq_true (h.ready pc hpc required hg)
  have hcommitted : p.reservations.countP (·.isCommitted) ≤
      p.reservations.countP (·.within p.queue.jobsCapacity) := by
    refine countP_mono_left fun pc hpc hcommitted => ?_
    obtain ⟨required, hg⟩ := ReservePc.granted_of_isCommitted hcommitted
    exact hgranted pc hpc required hg
  have hcustody := h.custody
  refine ⟨by omega, fun required hheld => ?_⟩
  -- The reservation in hand is counted by the storage but not by the jobs.
  have hset : (p.reservations.set call (.committed required)).countP (·.isCommitted) =
      p.reservations.countP (·.isCommitted) + 1 :=
    countP_set_add ReservePc.isCommitted (.committed required) hheld
  have hsame : (p.reservations.set call (.committed required)).countP
      (·.within p.queue.jobsCapacity) =
      p.reservations.countP (·.within p.queue.jobsCapacity) :=
    countP_set_same (ReservePc.within p.queue.jobsCapacity) hheld rfl
  have hmore : (p.reservations.set call (.committed required)).countP (·.isCommitted) ≤
      (p.reservations.set call (.committed required)).countP
        (·.within p.queue.jobsCapacity) := by
    refine countP_mono_left fun pc hpc hcommitted => ?_
    rcases mem_or_eq_of_mem_set hpc with hpc | rfl
    · obtain ⟨required, hg⟩ := ReservePc.granted_of_isCommitted hcommitted
      exact hgranted pc hpc required hg
    · exact hgranted (.held required) (mem_of_getElem? hheld) required rfl
  omega

-- ---- The steps of a reservation.

variable {job : Nat}

theorem set_keeps {l : List ReservePc} (hcall : l[call]? = some pc)
    (hold : pc.isCommitted = false ∧ pc ≠ .released)
    (hjob : l[job]? = some .released ∨ ∃ required, l[job]? = some (.committed required)) :
    (l.set call pc')[job]? = l[job]? := by
  refine getElem?_set_ne ?_
  rintro rfl
  rw [hcall] at hjob
  rcases hjob with hjob | ⟨required, hjob⟩
  · exact hold.2 (Option.some.inj hjob)
  · rw [Option.some.inj hjob] at hold
    cases hold.1

section

variable (h : PoolWf p) (hcall : p.reservations[call]? = some pc)
include h hcall

theorem carried_set (hold : pc.isCommitted = false ∧ pc ≠ .released)
    (hjob : job ∈ p.thread.carries ++ p.queue.jobs) :
    ∃ required, (p.reservations.set call pc')[job]? = some (.committed required) := by
  obtain ⟨required, hjob⟩ := h.carried job hjob
  exact ⟨required, (set_keeps hcall hold (.inr ⟨required, hjob⟩)).trans hjob⟩

theorem used_set (hold : pc.isCommitted = false ∧ pc ≠ .released) (hjob : job ∈ p.committed) :
    (p.reservations.set call pc')[job]? = some .released ∨
      ∃ required, (p.reservations.set call pc')[job]? = some (.committed required) := by
  have hused := h.used job hjob
  rw [set_keeps hcall hold hused]
  exact hused

theorem published_of_required (hpc : pc.required = some required) : p.published = true := by
  cases hp : p.published with
  | true => rfl
  | false =>
    have hnone := ((h.unpublished hp).2 pc (mem_of_getElem? hcall)).1
    rw [hpc] at hnone
    cases hnone

/-- What the reservations say about their counters after one of them moved on with the
reservation it has. -/
theorem goto (pc' : ReservePc) (hsame : pc'.required = pc.required)
    (hold : pc.isCommitted = false ∧ pc ≠ .released) (hnew : pc'.isCommitted = false)
    (hgranted : ∀ required, pc'.granted = some required → required ≤ p.queue.jobsCapacity)
    (hpublished : p.published = false → pc' ≠ .checkClosed ∧ pc' ≠ .quota) :
    PoolWf (p.goto call pc') := by
  refine ⟨h.sound, ?_, h.bounded, fun k => ?_, h.stored, fun pc'' hpc'' required hg => ?_, ?_,
    fun job hjob => ?_, h.order, fun job hjob => ?_, h.nodup, h.woken, h.exited, h.absent,
    fun hp => ⟨(h.unpublished hp).1, fun pc'' hpc'' => ?_⟩, h.asked, h.apart, h.dormant, h.running,
    h.stopped, h.joined⟩
  · refine h.outstanding.trans (countP_set_same ReservePc.holds hcall ?_).symm
    rw [ReservePc.holds, ReservePc.holds, hsame]
  · refine Nat.le_trans (Nat.le_of_eq (countP_set_same (ReservePc.within k) hcall ?_)) (h.graded k)
    rw [ReservePc.within, ReservePc.within, hsame]
  · rcases mem_or_eq_of_mem_set hpc'' with hpc'' | rfl
    · exact h.ready pc'' hpc'' required hg
    · exact hgranted required hg
  · exact (countP_set_same ReservePc.isCommitted hcall (hnew.trans hold.1.symm)).trans h.custody
  · exact h.carried_set hcall hold hjob
  · exact h.used_set hcall hold hjob
  · rcases mem_or_eq_of_mem_set hpc'' with hpc'' | rfl
    · exact (h.unpublished hp).2 pc'' hpc''
    · refine ⟨?_, hpublished hp⟩
      rw [hsame]
      exact ((h.unpublished hp).2 pc (mem_of_getElem? hcall)).1

end

/-- The quota step: the new reservation is counted in its own `required`. -/
theorem quota (h : PoolWf p) (hcall : p.reservations[call]? = some .quota)
    (hroom : p.queue.outstanding < p.capacity) :
    PoolWf { p with
      queue        := { p.queue with outstanding := p.queue.outstanding + 1 }
      reservations := p.reservations.set call (.recheck (p.queue.outstanding + 1)) } := by
  have hpublished : p.published = true := by
    cases hp : p.published with
    | true => rfl
    | false =>
      exact absurd rfl ((h.unpublished hp).2 .quota (mem_of_getElem? hcall)).2.2
  have hold : ReservePc.quota.isCommitted = false ∧ ReservePc.quota ≠ .released :=
    ⟨rfl, nofun⟩
  have hholds : (p.reservations.set call (.recheck (p.queue.outstanding + 1))).countP
      ReservePc.holds = p.reservations.countP ReservePc.holds + 1 :=
    countP_set_add ReservePc.holds (.recheck (p.queue.outstanding + 1)) hcall
  refine ⟨h.sound, ?_, hroom, fun k => ?_, h.stored, fun pc hpc required hg => ?_, ?_,
    fun job hjob => ?_, h.order, fun job hjob => ?_, h.nodup, h.woken, h.exited, h.absent,
    fun hp => absurd (hpublished.symm.trans hp) nofun, h.asked, h.apart, h.dormant,
    h.running, h.stopped, h.joined⟩
  · exact (congrArg Nat.succ h.outstanding).trans hholds.symm
  · -- Below its `required` the new reservation is not counted; from there on, the count
    -- is at most the number of all reservations.
    rcases Nat.lt_or_ge k (p.queue.outstanding + 1) with hk | hk
    · refine Nat.le_trans (Nat.le_of_eq (countP_set_same (ReservePc.within k) hcall ?_)) (h.graded k)
      exact decide_eq_false (Nat.not_le_of_lt hk)
    · refine Nat.le_trans (countP_mono_left fun pc _ hwithin => ?_)
        (Nat.le_trans (Nat.le_of_eq hholds) (by rw [← h.outstanding]; exact hk))
      rw [ReservePc.holds]
      cases hrequired : pc.required with
      | none =>
        rw [ReservePc.within, hrequired] at hwithin
        cases hwithin
      | some required => rfl
  · rcases mem_or_eq_of_mem_set hpc with hpc | rfl
    · exact h.ready pc hpc required hg
    · cases hg
  · refine Eq.trans (countP_set_same ReservePc.isCommitted hcall ?_) h.custody
    rfl
  · exact h.carried_set hcall hold hjob
  · exact h.used_set hcall hold hjob

variable {required : Nat} {p' : DisconnectPool}

section

variable (h : PoolWf p)
include h

theorem freed_counts (pc' : ReservePc) (hcall : p.reservations[call]? = some pc)
    (hpc : pc.required = some required) (hpc' : pc'.required = none) :
    p.release = { p with queue := { p.queue with outstanding := p.queue.outstanding - 1 } } ∧
    p.queue.outstanding - 1 = (p.reservations.set call pc').countP ReservePc.holds ∧
    ∀ k, (p.reservations.set call pc').countP (ReservePc.within k) ≤ k := by
  have hset := countP_set_add ReservePc.holds pc' hcall
  rw [show pc.holds = true by rw [ReservePc.holds, hpc]; rfl,
    show pc'.holds = false by rw [ReservePc.holds, hpc']; rfl] at hset
  simp only [if_true, Bool.false_eq_true, if_false, Nat.add_zero] at hset
  have houtstanding : p.queue.outstanding = p.reservations.countP ReservePc.holds := h.outstanding
  refine ⟨?_, by omega, fun k => ?_⟩
  · rw [release, checkedAtomicDec_of_pos (by omega)]
  · have hwithin := countP_set_add (ReservePc.within k) pc' hcall
    rw [show pc'.within k = false by rw [ReservePc.within, hpc']; rfl] at hwithin
    simp only [Bool.false_eq_true, if_false, Nat.add_zero] at hwithin
    have hgraded : p.reservations.countP (ReservePc.within k) ≤ k := h.graded k
    omega

theorem freed (hcall : p.reservations[call]? = some pc)
    (hpc : pc.required = some required) (hold : pc.isCommitted = false) (hpc' : pc'.required = none)
    (hnew : pc'.isCommitted = false) (hplain : pc'.granted = none) :
    PoolWf (p.release.goto call pc') := by
  obtain ⟨hrelease, hholds, hgraded⟩ := h.freed_counts pc' hcall hpc hpc'
  have hold : pc.isCommitted = false ∧ pc ≠ .released := by
    refine ⟨hold, ?_⟩
    rintro rfl
    cases hpc
  have hpublished : p.published = true := h.published_of_required hcall hpc
  rw [hrelease]
  refine ⟨h.sound, hholds, Nat.le_trans (Nat.sub_le _ _) h.bounded, hgraded, h.stored,
    fun pc'' hpc'' required hg => ?_, ?_, fun job hjob => ?_, h.order, fun job hjob => ?_, h.nodup,
    h.woken, h.exited, h.absent, fun hp => absurd (hpublished.symm.trans hp) nofun,
    h.asked, h.apart, h.dormant, h.running,
    h.stopped, h.joined⟩
  · rcases mem_or_eq_of_mem_set hpc'' with hpc'' | rfl
    · exact h.ready pc'' hpc'' required hg
    · rw [hplain] at hg
      cases hg
  · exact (countP_set_same ReservePc.isCommitted hcall (hnew.trans hold.1.symm)).trans h.custody
  · exact h.carried_set hcall hold hjob
  · exact h.used_set hcall hold hjob

theorem grown (capacity : Nat) (hle : p.queue.jobsCapacity ≤ capacity) : PoolWf { p with
      queue := { p.queue with jobsCapacity := capacity, storageCapacity := capacity } } :=
  { h with
    stored := Nat.le_refl capacity
    ready := fun pc hpc required hg => Nat.le_trans (h.ready pc hpc required hg) hle }

/-- `additional` does not underflow: the jobs that are queued fit into the storage,
which is smaller than what is required. -/
theorem grow {input : Option Nat} (hcall : p.reservations[call]? = some (.growing required))
    (hs : p.grow call required input = some p') : PoolWf p' := by
  have hpublished := h.published_of_required hcall rfl
  have hold : (ReservePc.growing required).isCommitted = false ∧
      ReservePc.growing required ≠ .released := ⟨rfl, nofun⟩
  have hfits := (h.room call).1
  have hplain {pc' : ReservePc} : p.published = false → pc' ≠ .checkClosed ∧ pc' ≠ .quota :=
    fun hp => absurd (hpublished.symm.trans hp) nofun
  rw [DisconnectPool.grow] at hs
  split at hs
  case isTrue hsmall =>
    rw [if_neg (by omega)] at hs
    cases input with
    | none =>
      cases hs
      exact h.goto hcall _ rfl hold rfl nofun hplain
    | some capacity =>
      dsimp only at hs
      split at hs
      case isTrue hcapacity =>
        cases hs
        have hlarge : required ≤ capacity := by omega
        refine (h.grown capacity (by omega)).goto hcall (.held required) rfl hold
          rfl (fun required' hg => ?_) hplain
        cases hg
        exact hlarge
      case isFalse => cases hs
  case isFalse hlarge =>
    cases hs
    refine h.goto hcall _ rfl hold rfl (fun required' hg => ?_) hplain
    cases hg
    exact Nat.le_of_not_lt hlarge

theorem initializeWorker {started : Bool} (hcall : p.reservations[call]? = some .initializing) :
    PoolWf (p.initializeWorker call started) := by
  have hold : ReservePc.initializing.isCommitted = false ∧ ReservePc.initializing ≠ .released :=
    ⟨rfl, nofun⟩
  rw [DisconnectPool.initializeWorker]
  split
  case h_1 hworker =>
    split
    case isTrue =>
      have habsent := h.dormant hworker
      have hidle : p.stop = .idle := h.stopped.mpr (by rw [hworker]; rintro ⟨⟩)
      have hjobs := (h.unpublished (h.absent habsent)).1
      have hstarted : PoolWf { p with published := true, worker := .running, thread := .checking } :=
        { h with
          custody := by
            rw [h.custody, habsent]
            rfl
          carried := fun job hjob => h.carried job (mem_append_right _ hjob)
          order := by
            rw [h.order, habsent]
            rfl
          woken := nofun
          exited := nofun
          absent := nofun
          unpublished := nofun
          apart := by
            rw [hjobs]
            exact nodup_nil
          dormant := nofun
          running := fun _ => rfl
          stopped := ⟨fun _ => nofun, fun _ => hidle⟩
          joined := fun hjoined => by
            rw [hidle] at hjoined
            cases hjoined }
      exact hstarted.goto hcall .checkClosed rfl hold rfl nofun
        nofun
    case isFalse =>
      exact h.goto hcall _ rfl hold rfl nofun
        (fun _ => ⟨nofun, nofun⟩)
  case h_2 hworker =>
    exact h.goto hcall _ rfl hold rfl nofun
      (fun hp => absurd ((h.running (.inl hworker)).symm.trans hp) nofun)
  case h_3 =>
    exact h.goto hcall _ rfl hold rfl nofun
      (fun _ => ⟨nofun, nofun⟩)

theorem proceed {input : DisconnectPool.Input}
    (hs : p.proceed call input = some p') : PoolWf p' := by
  rw [DisconnectPool.proceed] at hs
  simp only [Option.bind_eq_bind, Option.bind_eq_some_iff] at hs
  obtain ⟨pc, hcall, hs⟩ := hs
  have hplain {pc pc' : ReservePc} {required : Nat} (hcall : p.reservations[call]? = some pc)
      (hpc : pc.required = some required) :
      p.published = false → pc' ≠ .checkClosed ∧ pc' ≠ .quota :=
    fun hp => absurd ((h.published_of_required hcall hpc).symm.trans hp) nofun
  cases pc with
  | start =>
    have hold : ReservePc.start.isCommitted = false ∧ ReservePc.start ≠ .released :=
      ⟨rfl, nofun⟩
    dsimp only at hs
    split at hs
    case isTrue =>
      cases hs
      exact h.goto hcall _ rfl hold rfl nofun
        (fun _ => ⟨nofun, nofun⟩)
    case isFalse =>
      split at hs
      case isTrue hp =>
        cases hs
        exact h.goto hcall _ rfl hold rfl nofun
          (fun hp' => absurd (hp.symm.trans hp') nofun)
      case isFalse =>
        cases hs
        exact h.goto hcall _ rfl hold rfl nofun
          (fun _ => ⟨nofun, nofun⟩)
  | initializing =>
    cases hs
    exact h.initializeWorker hcall
  | checkClosed =>
    have hold : ReservePc.checkClosed.isCommitted = false ∧ ReservePc.checkClosed ≠ .released :=
      ⟨rfl, nofun⟩
    have hnot (hp : p.published = false) : False :=
      ((h.unpublished hp).2 .checkClosed (mem_of_getElem? hcall)).2.1 rfl
    dsimp only at hs
    split at hs <;> cases hs <;>
      exact h.goto hcall _ rfl hold rfl nofun (fun hp => (hnot hp).elim)
  | quota =>
    dsimp only at hs
    split at hs
    case isTrue hroom =>
      cases hs
      exact h.quota hcall hroom
    case isFalse =>
      cases hs
      exact h.goto hcall _ rfl ⟨rfl, nofun⟩ rfl nofun
        (fun _ => ⟨nofun, nofun⟩)
  | recheck required =>
    dsimp only at hs
    split at hs <;> cases hs <;>
      exact h.goto hcall _ rfl ⟨rfl, nofun⟩ rfl nofun (hplain hcall rfl)
  | storage required =>
    dsimp only at hs
    split at hs
    case isTrue =>
      cases hs
      exact h.goto hcall _ rfl ⟨rfl, nofun⟩ rfl nofun (hplain hcall rfl)
    case isFalse hlarge =>
      -- The high-water mark may be stale, but it is never above the capacity.
      cases hs
      refine h.goto hcall _ rfl ⟨rfl, nofun⟩ rfl (fun required' hg => ?_) (hplain hcall rfl)
      cases hg
      exact Nat.le_trans (Nat.le_of_not_lt hlarge) h.stored
  | growing required => exact h.grow hcall hs
  | failing required error =>
    cases hs
    exact h.freed hcall rfl rfl rfl rfl rfl
  | held | committed | refused | released => cases hs

/-- A commit moves the reservation into its job, for which there is room. -/
theorem commit (hs : p.commit call = some p') : PoolWf p' := by
  rw [DisconnectPool.commit] at hs
  split at hs
  case h_2 => cases hs
  case h_1 required hcall hstopping =>
    cases hs
    have hpublished := h.published_of_required hcall rfl
    have hold : (ReservePc.held required).isCommitted = false ∧
        ReservePc.held required ≠ .released := ⟨rfl, nofun⟩
    have hroom := (h.room call).2 required hcall
    have hlt : call < p.reservations.length := (List.getElem_of_getElem? hcall).1
    have hset : (p.reservations.set call (.committed required))[call]? =
        some (.committed required) := by
      rw [getElem?_set_self hlt]
    have hcount : (p.reservations.set call (.committed required)).countP ReservePc.isCommitted =
        p.reservations.countP ReservePc.isCommitted + 1 :=
      countP_set_add ReservePc.isCommitted (.committed required) hcall
    have hcustody : p.reservations.countP ReservePc.isCommitted = _ := h.custody
    have hunused : call ∉ p.committed := by
      intro hmem
      have hused := h.used call hmem
      rw [hcall] at hused
      rcases hused with hused | ⟨required', hused⟩ <;> cases hused
    have huncarried : call ∉ p.thread.carries ++ p.queue.jobs := by
      intro hmem
      obtain ⟨required', hcarried⟩ := h.carried call hmem
      rw [hcall] at hcarried
      cases hcarried
    exact
      { h with
        sound := ⟨h.sound.1, h.sound.2.1, by
          rw [h.sound.2.2, Bool.false_or]
          exact decide_eq_false (Nat.not_le_of_lt hroom)⟩
        outstanding := by
          refine h.outstanding.trans (countP_set_same ReservePc.holds hcall ?_).symm
          rfl
        graded := fun k => by
          refine Nat.le_trans (Nat.le_of_eq (countP_set_same (ReservePc.within k) hcall ?_))
            (h.graded k)
          rfl
        ready := fun pc hpc required' hg => by
          rcases mem_or_eq_of_mem_set hpc with hpc | rfl
          · exact h.ready pc hpc required' hg
          · exact h.ready (.held required) (mem_of_getElem? hcall) required' hg
        custody := by
          refine hcount.trans ?_
          show _ = (p.queue.jobs ++ [call]).length + p.thread.carries.length
          rw [hcustody, length_append, length_singleton]
          omega
        carried := fun job hjob => by
          rw [← append_assoc, mem_append, mem_singleton] at hjob
          rcases hjob with hjob | rfl
          · exact h.carried_set hcall hold hjob
          · exact ⟨required, hset⟩
        order := by
          rw [← append_assoc, ← h.order]
        used := fun job hjob => by
          rcases mem_append.mp hjob with hjob | hjob
          · exact h.used_set hcall hold hjob
          · cases mem_singleton.mp hjob
            exact .inr ⟨required, hset⟩
        nodup := by
          refine List.Nodup.append h.nodup (nodup_singleton call) ?_
          exact disjoint_singleton.mpr hunused
        woken := fun hparked => ⟨.inr (Nat.succ_pos _), (h.woken hparked).2⟩
        exited := fun hexited =>
          absurd (hstopping.symm.trans (h.exited hexited).2) nofun
        unpublished := fun hp => absurd (hpublished.symm.trans hp) nofun
        apart := by
          rw [← append_assoc]
          refine List.Nodup.append h.apart (nodup_singleton call) ?_
          exact disjoint_singleton.mpr huncarried }

-- ---- The steps of the worker and of `stop`.

theorem moved {pc' : WorkerPc} (hcarries : pc'.carries = p.thread.carries)
    (hworking : pc'.working = p.thread.working)
    (hwoken : pc' = .parked → (p.queue.jobs = [] ∨ 0 < p.notifies) ∧
      (p.queue.stopping = true → p.stop = .notifying))
    (hexited : pc' = .exited → p.queue.jobs = [] ∧ p.queue.stopping = true)
    (habsent : pc' = .absent ↔ p.thread = .absent)
    (hleft : p.thread = .exited → pc' = .exited) : PoolWf { p with thread := pc' } :=
  { h with
    custody := by
      show _ = p.queue.jobs.length + pc'.carries.length
      rw [hcarries]
      exact h.custody
    carried := fun job hjob => h.carried job (by rw [← hcarries]; exact hjob)
    order := by
      show _ = p.finished ++ pc'.working ++ p.queue.jobs
      rw [hworking]
      exact h.order
    woken := hwoken
    exited := hexited
    absent := fun hthread => h.absent (habsent.mp hthread)
    apart := by
      show (pc'.carries ++ p.queue.jobs).Nodup
      rw [hcarries]
      exact h.apart
    dormant := fun hdormant => habsent.mpr (h.dormant hdormant)
    joined := fun hjoined => (h.joined hjoined).imp hleft habsent.mpr }

theorem notified : PoolWf { p with thread := p.thread.notified } ∧ p.thread.notified ≠ .parked := by
  by_cases hthread : p.thread = .parked
  · rw [hthread]
    refine ⟨h.moved ?_ ?_ nofun nofun ?_ ?_, nofun⟩
    · rw [hthread]
      rfl
    · rw [hthread]
      rfl
    · rw [hthread]
      exact ⟨nofun, nofun⟩
    · rw [hthread]
      rintro ⟨⟩
  · have hsame : p.thread.notified = p.thread := by
      cases hpc : p.thread with
      | parked => exact absurd hpc hthread
      | absent | checking | finishing | releasing | exited => rfl
    rw [hsame]
    exact ⟨h, hthread⟩

theorem unjoined (hexited : p.thread ≠ .exited) (habsent : p.thread ≠ .absent) :
    p.stop ≠ .joined := by
  intro hjoined
  exact (h.joined hjoined).elim hexited habsent

theorem popped {jobs : List Nat} (hthread : p.thread = .checking)
    (hjobs : p.queue.jobs = job :: jobs) :
    PoolWf { p with queue := { p.queue with jobs }, thread := .finishing job } := by
  have hcustody := h.custody
  have hcarried := h.carried
  have horder := h.order
  have hapart := h.apart
  rw [hthread, hjobs] at hcustody hcarried horder hapart
  exact
    { h with
      custody := hcustody
      carried := hcarried
      order := by
        rw [horder]
        exact append_assoc p.finished [] (job :: jobs) ▸
          (append_assoc p.finished [job] jobs).symm
      woken := nofun
      exited := nofun
      absent := nofun
      unpublished := fun hp => by
        have hnone := (h.unpublished hp).1
        rw [hjobs] at hnone
        cases hnone
      apart := hapart
      dormant := fun hdormant => by
        have habsent := h.dormant hdormant
        rw [hthread] at habsent
        cases habsent
      joined := fun hjoined => by
        refine absurd hjoined (h.unjoined ?_ ?_) <;>
        · rw [hthread]
          rintro ⟨⟩ }

theorem completed (hthread : p.thread = .finishing job) :
    PoolWf { p with thread := .releasing job, finished := p.finished ++ [job] } := by
  have hcustody := h.custody
  have hcarried := h.carried
  have horder := h.order
  have hapart := h.apart
  rw [hthread] at hcustody hcarried horder hapart
  exact
    { h with
      custody := hcustody
      carried := hcarried
      order := by
        rw [horder]
        exact congrArg (· ++ p.queue.jobs) (append_nil _).symm
      woken := nofun
      exited := nofun
      absent := nofun
      apart := hapart
      dormant := fun hdormant => by
        have habsent := h.dormant hdormant
        rw [hthread] at habsent
        cases habsent
      joined := fun hjoined => by
        refine absurd hjoined (h.unjoined ?_ ?_) <;>
        · rw [hthread]
          rintro ⟨⟩ }

theorem dropped (hthread : p.thread = .releasing job) :
    PoolWf { (p.release.goto job .released) with thread := .checking } := by
  have hcustody := h.custody
  have hcarried := h.carried
  have horder := h.order
  have hapart := h.apart
  rw [hthread] at hcustody hcarried horder hapart
  obtain ⟨required, hcall⟩ := hcarried job mem_cons_self
  obtain ⟨hrelease, hholds, hgraded⟩ := h.freed_counts .released hcall rfl rfl
  have hpublished := h.published_of_required hcall rfl
  have hlt : job < p.reservations.length := (List.getElem_of_getElem? hcall).1
  have hset : (p.reservations.set job .released)[job]? = some .released := by
    rw [getElem?_set_self hlt]
  have hcount : (p.reservations.set job .released).countP ReservePc.isCommitted + 1 =
      p.reservations.countP ReservePc.isCommitted :=
    countP_set_add ReservePc.isCommitted .released hcall
  have hunqueued : job ∉ p.queue.jobs := (nodup_cons.mp hapart).1
  rw [hrelease]
  exact
    { h with
      outstanding := hholds
      bounded := Nat.le_trans (Nat.sub_le _ _) h.bounded
      graded := hgraded
      ready := fun pc hpc required' hg => by
        rcases mem_or_eq_of_mem_set hpc with hpc | rfl
        · exact h.ready pc hpc required' hg
        · cases hg
      custody := by
        have hcustody : p.reservations.countP ReservePc.isCommitted = _ := hcustody
        show (p.reservations.set job .released).countP ReservePc.isCommitted = p.queue.jobs.length
        rw [hcustody] at hcount
        exact Nat.add_right_cancel hcount
      carried := fun other hother => by
        obtain ⟨required', hcall'⟩ := hcarried other (mem_cons_of_mem job hother)
        refine ⟨required', (getElem?_set_ne ?_).trans hcall'⟩
        rintro rfl
        exact hunqueued hother
      order := horder
      used := fun other hother => by
        by_cases heq : job = other
        · subst heq
          exact .inl hset
        · show (p.reservations.set job _)[other]? = _ ∨
            ∃ required, (p.reservations.set job _)[other]? = _
          rw [getElem?_set_ne heq]
          exact h.used other hother
      woken := nofun
      exited := nofun
      absent := nofun
      unpublished := fun hp => absurd (hpublished.symm.trans hp) nofun
      apart := (nodup_cons.mp hapart).2
      dormant := fun hdormant => by
        have habsent := h.dormant hdormant
        rw [hthread] at habsent
        cases habsent
      joined := fun hjoined => by
        refine absurd hjoined (h.unjoined ?_ ?_) <;>
        · rw [hthread]
          rintro ⟨⟩ }

theorem work (hs : p.work = some p') : PoolWf p' := by
  rw [DisconnectPool.work] at hs
  cases hthread : p.thread with
  | checking =>
    rw [hthread] at hs
    dsimp only at hs
    cases hjobs : p.queue.jobs with
    | cons job jobs =>
      rw [hjobs] at hs
      cases hs
      exact h.popped hthread hjobs
    | nil =>
      rw [hjobs] at hs
      dsimp only at hs
      have hstill {pc' : WorkerPc} (hpc : pc' ≠ .absent) : pc' = .absent ↔ p.thread = .absent := by
        rw [hthread]
        exact ⟨fun heq => absurd heq hpc, nofun⟩
      split at hs
      case isTrue hstopping =>
        cases hs
        refine h.moved (by rw [hthread]; rfl) (by rw [hthread]; rfl) nofun
          (fun _ => ⟨hjobs, hstopping⟩) (hstill ?_) (fun _ => rfl)
        rintro ⟨⟩
      case isFalse hrunning =>
        cases hs
        refine h.moved (by rw [hthread]; rfl) (by rw [hthread]; rfl)
          (fun _ => ⟨.inl hjobs, fun hstopping => absurd hstopping hrunning⟩)
          nofun (hstill ?_) (fun hexited => ?_)
        · rintro ⟨⟩
        · rw [hthread] at hexited
          cases hexited
  | finishing job =>
    rw [hthread] at hs
    cases hs
    exact h.completed hthread
  | releasing job =>
    rw [hthread] at hs
    cases hs
    exact h.dropped hthread
  | absent | parked | exited =>
    rw [hthread] at hs
    cases hs

theorem stopStep {prepared : Bool} (hs : p.stopStep prepared = some p') : PoolWf p' := by
  rw [DisconnectPool.stopStep] at hs
  have hstay {pc : StopPc} (hpc : pc ≠ .idle) (hstop : p.stop ≠ .idle) :
      pc = .idle ↔ p.worker ≠ .stopped := by
    rw [← h.stopped]
    exact iff_of_false hpc hstop
  cases hstop : p.stop with
  | claimed =>
    have hrunning : p.queue.stopping = true → False := fun hstopping =>
      (h.asked hstopping).2 hstop
    have hpublished := h.running (.inr hstop)
    rw [hstop] at hs
    dsimp only at hs
    split at hs
    case isTrue =>
      cases hs
      exact
        { h with
          woken := fun hparked =>
            ⟨(h.woken hparked).1, fun hstopping => (hrunning hstopping).elim⟩
          asked := fun hstopping => (hrunning hstopping).elim
          running := fun _ => hpublished
          stopped := hstay nofun (by rw [hstop]; rintro ⟨⟩)
          joined := fun hjoined => by cases hjoined }
    case isFalse =>
      cases hs
      exact
        { h with
          woken := fun hparked =>
            ⟨(h.woken hparked).1, fun hstopping => (hrunning hstopping).elim⟩
          asked := fun hstopping => (hrunning hstopping).elim
          dormant := nofun
          running := fun _ => hpublished
          stopped := ⟨fun _ => nofun, fun _ => rfl⟩
          joined := fun hjoined => by cases hjoined }
  | closed =>
    rw [hstop] at hs
    cases hs
    exact
      { h with
        woken := fun hparked => ⟨(h.woken hparked).1, fun _ => rfl⟩
        exited := fun hexited => ⟨(h.exited hexited).1, rfl⟩
        asked := fun _ => ⟨nofun, nofun⟩
        running := fun hrunning => h.running (hrunning.imp id nofun)
        stopped := hstay nofun (by rw [hstop]; rintro ⟨⟩)
        joined := fun hjoined => by cases hjoined }
  | notifying =>
    rw [hstop] at hs
    cases hs
    have hnotified := h.notified
    exact
      { hnotified.1 with
        woken := fun hparked => absurd hparked hnotified.2
        asked := fun _ => ⟨nofun, nofun⟩
        running := fun hrunning => h.running (hrunning.imp id nofun)
        stopped := hstay nofun (by rw [hstop]; rintro ⟨⟩)
        joined := fun hjoined => by cases hjoined }
  | joining =>
    rw [hstop] at hs
    dsimp only at hs
    split at hs
    case isTrue hexited =>
      cases hs
      exact
        { h with
          woken := fun hparked => by
            rw [hexited] at hparked
            cases hparked
          asked := fun _ => ⟨nofun, nofun⟩
          running := fun hrunning => h.running (hrunning.imp id nofun)
          stopped := hstay nofun (by rw [hstop]; rintro ⟨⟩)
          joined := fun _ => .inl hexited }
    case isFalse => cases hs
  | idle | joined =>
    rw [hstop] at hs
    cases hs

theorem beginStop (hs : p.beginStop = some p') : PoolWf p' := by
  rw [DisconnectPool.beginStop] at hs
  split at hs
  case h_1 hstop hworker =>
    cases hs
    have hrunning : p.queue.stopping = true → False := fun hstopping =>
      (h.asked hstopping).1 hstop
    exact
      { h with
        woken := fun hparked => ⟨(h.woken hparked).1, fun hstopping => (hrunning hstopping).elim⟩
        asked := fun hstopping => (hrunning hstopping).elim
        dormant := nofun
        running := fun _ => h.running (.inl hworker)
        stopped := iff_of_false nofun (fun hworker => hworker rfl)
        joined := fun hjoined => by cases hjoined }
  case h_2 hstop hidle =>
    cases hs
    have habsent : p.thread = .absent := by
      refine h.dormant ?_
      cases hworker : p.worker with
      | dormant => rfl
      | running => exact absurd hworker hidle
      | stopped => exact absurd hworker (h.stopped.mp hstop)
    have hrunning : p.queue.stopping = true → False := fun hstopping =>
      (h.asked hstopping).1 hstop
    exact
      { h with
        woken := fun hparked => ⟨(h.woken hparked).1, fun hstopping => (hrunning hstopping).elim⟩
        asked := fun hstopping => (hrunning hstopping).elim
        dormant := nofun
        running := fun hrunning' => by rcases hrunning' with hr | hr <;> cases hr
        stopped := iff_of_false nofun (fun hworker => hworker rfl)
        joined := fun _ => .inr habsent }
  case h_3 => cases hs

theorem live : ¬ (p.aborted || p.underflow) = true := by
  rw [h.sound.1, h.sound.2.1]
  rintro ⟨⟩

theorem step {action : DisconnectPool.Action} (hs : p.step action = some p') : PoolWf p' := by
  unfold DisconnectPool.step at hs
  rw [if_neg h.live] at hs
  cases action with
  | reserve =>
    cases hs
    have happend (f : ReservePc → Bool) (hf : f .start = false) :
        (p.reservations ++ [ReservePc.start]).countP f = p.reservations.countP f := by
      rw [countP_append, countP_singleton, hf]
      rfl
    exact
      { h with
        outstanding := h.outstanding.trans (happend ReservePc.holds rfl).symm
        graded := fun k =>
          Nat.le_trans (Nat.le_of_eq (happend (ReservePc.within k) rfl)) (h.graded k)
        ready := fun pc hpc required hg => by
          rcases mem_append.mp hpc with hpc | hpc
          · exact h.ready pc hpc required hg
          · cases mem_singleton.mp hpc
            cases hg
        custody := (happend ReservePc.isCommitted rfl).trans h.custody
        carried := fun job hjob => by
          obtain ⟨required, hcall⟩ := h.carried job hjob
          exact ⟨required, getElem?_append_left (List.getElem_of_getElem? hcall).1 ▸ hcall⟩
        used := fun job hjob => by
          rcases h.used job hjob with hcall | ⟨required, hcall⟩
          · exact .inl (getElem?_append_left (List.getElem_of_getElem? hcall).1 ▸ hcall)
          · exact .inr ⟨required,
              getElem?_append_left (List.getElem_of_getElem? hcall).1 ▸ hcall⟩
        unpublished := fun hp => by
          refine ⟨(h.unpublished hp).1, fun pc hpc => ?_⟩
          rcases mem_append.mp hpc with hpc | hpc
          · exact (h.unpublished hp).2 pc hpc
          · cases mem_singleton.mp hpc
            exact ⟨rfl, nofun, nofun⟩ }
  | proceed call input => exact h.proceed hs
  | drop call =>
    simp only [DisconnectPool.drop] at hs
    split at hs
    case h_1 required hcall =>
      cases hs
      exact h.freed hcall rfl rfl rfl rfl rfl
    case h_2 => cases hs
  | commit call => exact h.commit hs
  | notify =>
    dsimp only at hs
    split at hs
    case isTrue =>
      cases hs
      have hnotified := h.notified
      exact { hnotified.1 with woken := fun hparked => absurd hparked hnotified.2 }
    case isFalse => cases hs
  | wake =>
    dsimp only at hs
    split at hs
    case isTrue hparked =>
      cases hs
      have hnotified := h.notified.1
      rw [hparked] at hnotified
      exact hnotified
    case isFalse => cases hs
  | work => exact h.work hs
  | stop => exact h.beginStop hs
  | stopStep prepared => exact h.stopStep hs

-- ---- The jobs are finished.

theorem finished_iff : p.finished = p.committed ↔ p.thread.working = [] ∧ p.queue.jobs = [] := by
  rw [h.order, append_assoc, self_eq_append_right, append_eq_nil_iff]

/-- A worker that can take no step, with no notification on its way, has finished
everything. -/
theorem finished_of_idle (hidle : p.work = none) (hnotifies : p.notifies = 0) :
    p.finished = p.committed := by
  refine h.finished_iff.mpr ?_
  rw [DisconnectPool.work] at hidle
  cases hthread : p.thread with
  | absent => exact ⟨rfl, (h.unpublished (h.absent hthread)).1⟩
  | parked =>
    refine ⟨rfl, (h.woken hthread).1.resolve_right ?_⟩
    rw [hnotifies]
    exact Nat.lt_irrefl 0
  | exited => exact ⟨rfl, (h.exited hthread).1⟩
  | checking =>
    rw [hthread] at hidle
    dsimp only at hidle
    split at hidle
    case h_1 => cases hidle
    case h_2 =>
      split at hidle
      case isTrue => cases hidle
      case isFalse => cases hidle
  | finishing | releasing =>
    rw [hthread] at hidle
    cases hidle

theorem finished_of_joined (hjoined : p.stop = .joined) : p.finished = p.committed := by
  refine h.finished_iff.mpr ?_
  rcases h.joined hjoined with hexited | habsent
  · rw [hexited]
    exact ⟨rfl, (h.exited hexited).1⟩
  · rw [habsent]
    exact ⟨rfl, (h.unpublished (h.absent habsent)).1⟩

/-- While something is not finished, the worker takes a step towards it, or one of the
notifications on their way makes it do so. -/
theorem progress (hunfinished : p.finished ≠ p.committed) :
    ∃ action p', (action = .notify ∨ action = .work) ∧ p.step action = some p' ∧
      p'.committed = p.committed ∧ p'.distance < p.distance := by
  have hwork : p.step .work = p.work := by
    unfold DisconnectPool.step
    rw [if_neg h.live]
  rw [ne_eq, h.finished_iff] at hunfinished
  cases hthread : p.thread with
  | absent => exact absurd ⟨by rw [hthread]; rfl, (h.unpublished (h.absent hthread)).1⟩ hunfinished
  | exited => exact absurd ⟨by rw [hthread]; rfl, (h.exited hthread).1⟩ hunfinished
  | parked =>
    have hnotifies : 0 < p.notifies := by
      refine (h.woken hthread).1.resolve_left fun hjobs => hunfinished ⟨?_, hjobs⟩
      rw [hthread]
      rfl
    refine ⟨.notify, { p with thread := p.thread.notified, notifies := p.notifies - 1 }, .inl rfl,
      ?_, rfl, ?_⟩
    · unfold DisconnectPool.step
      rw [if_neg h.live]
      exact if_pos hnotifies
    · rw [hthread, distance, distance, hthread]
      exact Nat.lt_succ_self _
  | checking =>
    cases hjobs : p.queue.jobs with
    | nil => exact absurd ⟨by rw [hthread]; rfl, hjobs⟩ hunfinished
    | cons job jobs =>
      refine ⟨.work, { p with queue := { p.queue with jobs }, thread := .finishing job }, .inr rfl,
        ?_, rfl, ?_⟩
      · rw [hwork, DisconnectPool.work, hthread, hjobs]
      · rw [distance, distance, hthread, hjobs]
        exact Nat.lt_succ_self _
  | finishing job =>
    refine ⟨.work, { p with thread := .releasing job, finished := p.finished ++ [job] }, .inr rfl,
      ?_, rfl, ?_⟩
    · rw [hwork, DisconnectPool.work, hthread]
    · rw [distance, distance, hthread]
      exact Nat.lt_succ_self _
  | releasing job =>
    obtain ⟨required, hcall⟩ := h.carried job (by rw [hthread]; exact mem_cons_self)
    have hrelease := (h.freed_counts .released hcall rfl rfl).1
    refine ⟨.work, { (p.release.goto job .released) with thread := .checking }, .inr rfl, ?_, ?_, ?_⟩
    · rw [hwork, DisconnectPool.work, hthread]
    · rw [hrelease]
      rfl
    · rw [hrelease, distance, distance, hthread]
      exact Nat.lt_succ_self _

end

end PoolWf

-- ---- The capacity of the pool.

namespace DisconnectPool

theorem capacity_release (p : DisconnectPool) : p.release.capacity = p.capacity := by
  rw [release]
  split <;> rfl

theorem capacity_grow {p p' : DisconnectPool} {call required : Nat} {grown : Option Nat}
    (hs : p.grow call required grown = some p') : p'.capacity = p.capacity := by
  cases grown with
  | none | some _ => grind [grow, goto]

theorem capacity_step {p p' : DisconnectPool} {action : Action} (hs : p.step action = some p') :
    p'.capacity = p.capacity := by
  cases action with
  | reserve | notify | wake => grind [step]
  | proceed call input => grind [step, proceed, goto, initializeWorker, capacity_grow, capacity_release]
  | drop call => grind [step, drop, goto, capacity_release]
  | commit call => grind [step, commit]
  | work => grind [step, work, goto, capacity_release]
  | stop => grind [step, beginStop]
  | stopStep prepared => grind [step, stopStep]

/-- **The deferred disconnect pool keeps its capacity.** In every interleaving:

* the outstanding count is the number of reservations that exist, it is at most the
  capacity, and it is not decremented at zero;
* the subtraction that computes the additional storage does not underflow, and no commit
  finds the storage of the job queue full;
* a committed job is finished once: what was committed is, in order and without
  repetition, what is finished, what the worker has in hand, and what is queued;
* nothing is left behind: a worker that cannot step, with no notification on its way,
  has finished everything, a `stop` that has returned finds everything finished, and from
  every state the worker and the notifications on their way finish it. -/
theorem disconnect_capacity {capacity : Nat} {p : DisconnectPool}
    (hp : Reachable step (DisconnectPool.new capacity) p) :
    (p.queue.outstanding = p.reservations.countP (·.holds) ∧
      p.queue.outstanding ≤ capacity ∧ p.aborted = false) ∧
    (p.underflow = false ∧ p.grew = false) ∧
    (p.committed = p.finished ++ p.thread.working ++ p.queue.jobs ∧ p.committed.Nodup) ∧
    (p.work = none → p.notifies = 0 → p.finished = p.committed) ∧
    (p.stop = .joined → p.finished = p.committed) ∧
    ∃ actions p', (∀ action ∈ actions, action = .notify ∨ action = .work) ∧
      run step p actions = some p' ∧ p'.committed = p.committed ∧ p'.finished = p.committed := by
  obtain ⟨hwf, hcapacity⟩ : PoolWf p ∧ p.capacity = capacity := by
    refine hp.invariant (I := fun p => PoolWf p ∧ p.capacity = capacity) ?_ ⟨.new capacity, rfl⟩
    rintro p action p' ⟨h, hcapacity⟩ hs
    exact ⟨h.step hs, (capacity_step hs).trans hcapacity⟩
  refine ⟨⟨hwf.outstanding, hcapacity ▸ hwf.bounded, hwf.sound.1⟩, hwf.sound.2,
    ⟨hwf.order, hwf.nodup⟩, hwf.finished_of_idle, hwf.finished_of_joined, ?_⟩
  obtain ⟨actions, p', hactions, hrun, ⟨-, hcommitted⟩, hfinished⟩ :
      ∃ actions p', (∀ action ∈ actions, action = .notify ∨ action = .work) ∧
        run step p actions = some p' ∧ (PoolWf p' ∧ p'.committed = p.committed) ∧
        p'.finished = p'.committed := by
    refine exists_run_of_decreasing distance ?_ p ⟨hwf, rfl⟩
    rintro q ⟨h, hcommitted⟩ hunfinished
    obtain ⟨action, q', haction, hs, hsame, hlt⟩ := h.progress hunfinished
    exact ⟨action, q', haction, hs, ⟨h.step hs, hsame.trans hcommitted⟩, hlt⟩
  exact ⟨actions, p', hactions, hrun, hcommitted, hfinished.trans hcommitted⟩

/-- Two reservations are handed out and committed, a third is dropped; `stop` is asked for
while both jobs are queued, and returns when the worker has finished them. -/
def stoppedRun : List Action :=
  [.reserve, .proceed 0 ⟨true, none⟩, .proceed 0 ⟨true, none⟩, .reserve, .proceed 1 ⟨true, none⟩,
    .proceed 0 ⟨true, none⟩, .proceed 1 ⟨true, none⟩, .proceed 0 ⟨true, none⟩,
    .proceed 1 ⟨true, none⟩, .proceed 1 ⟨true, none⟩, .proceed 1 ⟨true, none⟩,
    .proceed 1 ⟨true, some 4⟩, .proceed 0 ⟨true, none⟩, .proceed 0 ⟨true, none⟩, .work, .commit 1,
    .reserve, .proceed 2 ⟨true, none⟩, .proceed 2 ⟨true, none⟩, .proceed 2 ⟨true, none⟩,
    .proceed 2 ⟨true, none⟩, .proceed 2 ⟨true, none⟩, .drop 2, .commit 0, .stop, .stopStep true,
    .stopStep true, .notify, .work, .work, .stopStep true, .work, .work, .work, .work, .work,
    .stopStep true]

theorem disconnect_capacity_stoppedRun : ∃ p, run step (DisconnectPool.new 3) stoppedRun = some p ∧
      p.stop = .joined ∧ p.finished = [1, 0] ∧ p.finished = p.committed ∧
      p.queue.outstanding = 0 ∧ p.grew = false := by
  obtain ⟨p, hrun⟩ : ∃ p, run step (DisconnectPool.new 3) stoppedRun = some p :=
    Option.isSome_iff_exists.mp (by decide +kernel)
  have hp : (run step (DisconnectPool.new 3) stoppedRun).map
      (fun p => (p.stop, p.finished, p.queue.outstanding)) = some (.joined, [1, 0], 0) := by
    decide +kernel
  rw [hrun] at hp
  simp only [Option.map_some, Option.some.injEq, Prod.mk.injEq] at hp
  have hcapacity := disconnect_capacity ⟨stoppedRun, hrun⟩
  exact ⟨p, hrun, hp.1, hp.2.1, hcapacity.2.2.2.2.1 hp.1, hp.2.2, hcapacity.2.1.2⟩

end DisconnectPool

end Xlfn.Subscription.Disconnect
