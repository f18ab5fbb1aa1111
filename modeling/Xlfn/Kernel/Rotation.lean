import Xlfn.Kernel.Generations

/-!
# Xlfn — generation safety of the read domain

The second half of the invariant's proof, one lemma for each stage of a
transition, and the result it is for.
-/

namespace Xlfn.Kernel

open Lib StripedDrainGate List Option RotatingReadDomain

namespace RotatingReadDomain

variable {w N : Nat} {s s' : RotatingReadDomain w N}

-- ---- The holder of the transition lock keeps it.

/-- Claiming or giving back a control changes no counter and no idle lock. -/
theorem gate_setControl (s : RotatingReadDomain w N) (g : GenerationIndex) (held : Bool)
    (g' : GenerationIndex) :
    ∃ c, (s.setControl g held).generations g' = (s.generations g').setControl c := by
  rcases eq_or_eq_not g g' with rfl | rfl
  · exact ⟨held, setGate_self ..⟩
  · exact ⟨(s.generations (!g)).control, setGate_not ..⟩

variable {G g old : GenerationIndex} {gate : StripedDrainGate w N} {held : Bool}
  {t t' : Transition w} {op : Operation}

theorem Drained.setControl (h : s.Drained g) (g' : GenerationIndex) (held : Bool) :
    (s.setControl g' held).Drained g := by
  obtain ⟨c, hc⟩ := s.gate_setControl g' held g
  rw [Drained, hc]
  exact h

theorem Inv.setControl (hinv : s.Inv) (g : GenerationIndex) (held : Bool) :
    (s.setControl g held).Inv := by
  have hkeep : ∀ g', ReadersKeep (s.generations g') ((s.setControl g held).generations g') := by
    intro g'
    obtain ⟨c, hc⟩ := s.gate_setControl g held g'
    rw [hc]
    exact ⟨fun _ => rfl, fun _ h => h.2, Iff.rfl⟩
  exact { hinv with
    counted := by
      intro g' i
      obtain ⟨c, hc⟩ := s.gate_setControl g held g'
      rw [hc]
      exact hinv.counted g' i
    readerLock := by
      intro g' r
      obtain ⟨c, hc⟩ := s.gate_setControl g held g'
      rw [hc]
      exact hinv.readerLock g' r
    managerLock := fun g' => (hinv.managerLock g').of_readers (hkeep g')
    otherSealed := (hkeep _).allSealed hinv.otherSealed
    settled := by
      intro h
      obtain ⟨h1, h2⟩ := hinv.settled h
      exact ⟨h1, fun hnone => (h2 hnone).setControl g held⟩
    stage := by
      intro t ht
      exact (hinv.stage t ht).of_keep rfl rfl rfl hkeep fun h => h.setControl g held
    closedSealed := by
      intro h
      rcases hinv.closedSealed h with hall | hclosing
      · exact .inl fun g' => (hkeep g').allSealed (hall g')
      · exact .inr hclosing
    certified := by
      intro h
      obtain ⟨h1, h2⟩ := hinv.certified h
      exact ⟨h1, fun g' => (h2 g').setControl g held⟩ }

/-- The idle locks after a write to gate `G`, on which the manager holds the lock
exactly when `held` says so. -/
theorem managerLock_setGate (hother : ManagerLock (s.generations (!G)) false)
    (hgate : ManagerLock gate held) :
    ∀ g, ManagerLock ((s.setGate G gate).generations g) (g == G && held) := by
  refine forall_setGate (P := fun g gate => ManagerLock gate (g == G && held)) ?_ ?_
  · rw [beq_self_eq_true, Bool.true_and]
    exact hgate
  · have hne : ((!G) == G) = false := by cases G <;> rfl
    rw [hne, Bool.false_and]
    exact hother

theorem Inv.base_of_moves (hinv : s.Inv) (hkeep : MovesKeep (s.generations G) gate) :
    (∀ g i, active (((s.setGate G gate).generations g).counters i) =
        s.readers.countP (·.holds g i)) ∧
      ∀ g r, ((s.setGate G gate).generations g).idle = some (.releaser r) ↔
        s.releasing r g = true := by
  constructor
  · intro g i
    rw [← hinv.counted]
    refine forall_setGate
      (P := fun g gate => active (gate.counters i) = active ((s.generations g).counters i))
      (hkeep.active i) rfl g
  · intro g r
    rw [← hinv.readerLock]
    refine forall_setGate (P := fun g gate =>
      gate.idle = some (.releaser r) ↔ (s.generations g).idle = some (.releaser r))
      (hkeep.releaser r) Iff.rfl g

theorem Drained.of_seals (hkeep : SealsKeep (s.generations G) gate) (h : s.Drained g) :
    (s.setGate G gate).Drained g := by
  rcases eq_or_eq_not G g with rfl | rfl
  · rw [Drained, setGate_self]
    exact ⟨hkeep.allIdle h.1, fun r hr => h.2 r ((hkeep.releaser r).mp hr)⟩
  · rw [Drained, setGate_not]
    exact h

theorem allSealed_of_seals (hkeep : SealsKeep (s.generations G) gate)
    (h : (s.generations g).AllSealed) : ((s.setGate G gate).generations g).AllSealed := by
  rcases eq_or_eq_not G g with rfl | rfl
  · rw [setGate_self]
    exact hkeep.allSealed h
  · rw [setGate_not]
    exact h

theorem Inv.lock_of_transition (hinv : s.Inv) (ht : s.transition = some t)
    (h : t.locksIdle g = held) : ManagerLock (s.generations g) held := by
  have hlock := hinv.managerLock g
  rw [managing, ht] at hlock
  exact h ▸ hlock

theorem Inv.settled_of_transition (hinv : s.Inv) (ht : s.transition = some t)
    (hpub : t.publishing = false) : (∀ old, s.pending = some old → s.current = !old) ∧
      (s.pending = none → s.Drained (!s.current)) :=
  hinv.settled (by rw [ht]; exact hpub)

/-- Gate `G` is replaced by `gate`, the holder goes on to `t'`, and what the domain knows of the
two gates is known of them afterwards. -/
theorem Inv.goto_of_gate (hinv : s.Inv) (ht : s.transition = some t) (hpub : t.publishing = false)
    (hkeep : MovesKeep (s.generations G) gate) (hlock : ManagerLock gate held)
    (hother : t.locksIdle (!G) = false) (hlocks : ∀ g, t'.locksIdle g = (g == G && held))
    (hstage : (s.setGate G gate).Stage t')
    (hsealed : ((s.setGate G gate).generations (!s.current)).AllSealed)
    (hdrained : s.Drained (!s.current) → (s.setGate G gate).Drained (!s.current))
    (hclosed : s.closed = true →
      (∀ g, ((s.setGate G gate).generations g).AllSealed) ∨ t'.closing = true)
    (hcertified : s.certified = true → s.closed = true ∧ ∀ g, (s.setGate G gate).Drained g) :
    ((s.setGate G gate).goto t').Inv := by
  obtain ⟨hcount, hreader⟩ := hinv.base_of_moves hkeep
  have hsettled := hinv.settled_of_transition ht hpub
  have hfree : ManagerLock (s.generations (!G)) false := hinv.lock_of_transition ht hother
  exact { hinv with
    counted := hcount
    readerLock := hreader
    managerLock := by
      intro g
      show ManagerLock _ (t'.locksIdle g)
      rw [hlocks]
      exact managerLock_setGate hfree hlock g
    otherSealed := hsealed
    settled := fun _ => ⟨hsettled.1, fun hnone => hdrained (hsettled.2 hnone)⟩
    stage := by
      intro t'' ht''
      cases ht''
      exact hstage
    closedSealed := hclosed
    certified := hcertified }

/-- **The rule for the steps that only seal and observe**: gate `G` is replaced by
`gate` and the holder goes on to `t'`. -/
theorem Inv.goto_of_seals (hinv : s.Inv) (ht : s.transition = some t)
    (hpub : t.publishing = false) (hkeep : SealsKeep (s.generations G) gate)
    (hlock : ManagerLock gate held) (hother : t.locksIdle (!G) = false)
    (hlocks : ∀ g, t'.locksIdle g = (g == G && held)) (hstage : (s.setGate G gate).Stage t')
    (hclosing : s.closed = true → t.closing = true →
      (∀ g, ((s.setGate G gate).generations g).AllSealed) ∨ t'.closing = true) :
    ((s.setGate G gate).goto t').Inv := by
  refine hinv.goto_of_gate ht hpub hkeep.toMovesKeep hlock hother hlocks hstage
    (allSealed_of_seals hkeep hinv.otherSealed) (·.of_seals hkeep) (fun h => ?_) (fun h => ?_)
  · rcases hinv.closedSealed h with hall | hcl
    · exact .inl fun g => allSealed_of_seals hkeep (hall g)
    · rw [ht] at hcl
      exact hclosing h hcl
  · obtain ⟨h1, h2⟩ := hinv.certified h
    exact ⟨h1, fun g => (h2 g).of_seals hkeep⟩

theorem setGate_eta (s : RotatingReadDomain w N) (g : GenerationIndex) :
    s.setGate g (s.generations g) = s := by
  rw [setGate, Function.update_eq_self]

theorem Inv.goto (hinv : s.Inv) (ht : s.transition = some t) (hpub : t.publishing = false)
    (hfree : ∀ g, t.locksIdle g = false) (hfree' : ∀ g, t'.locksIdle g = false)
    (hstage : s.Stage t') (hclosing : s.closed = true → t.closing = true → t'.closing = true) :
    (s.goto t').Inv := by
  have hlock : ManagerLock (s.generations false) false := hinv.lock_of_transition ht (hfree false)
  have hinv' : ((s.setGate false (s.generations false)).goto t').Inv := by
    refine hinv.goto_of_seals ht hpub (.refl _) hlock (hfree _) ?_ ?_ ?_
    · intro g
      rw [hfree', Bool.and_false]
    · rw [setGate_eta]
      exact hstage
    · exact fun h1 h2 => .inr (hclosing h1 h2)
  rwa [setGate_eta] at hinv'

/-- Stages that are reached only on an open domain owe nothing to a closing one. -/
private theorem not_closing {P : Prop} (h : t.closing = false) :
    s.closed = true → t.closing = true → P := by
  intro _ hc
  rw [h] at hc
  cases hc

variable {b : Bool}

private theorem beq_self_and : (g == g && b) = b := by
  rw [beq_self_eq_true, Bool.true_and]

private theorem absurd_closed {P : Prop} (hopen : s.closed = false) (h : s.closed = true) : P := by
  rw [hopen] at h
  cases h

private theorem unlocked : false = (g == G && false) := (Bool.and_false _).symm

private theorem not_beq_self_and : ((!g) == g && b) = false := by
  cases g <;> rfl

private theorem not_not_beq_and : ((!(!g)) == (!g) && b) = false := by
  cases g <;> rfl

theorem Inv.claim (hinv : s.Inv) {busy : RotatingReadDomain w N} (ht : s.transition = some t)
    (hpub : t.publishing = false) (hfree : ∀ g, t.locksIdle g = false)
    (hfree' : ∀ g, t'.locksIdle g = false)
    (hclosing : s.closed = true → t.closing = true → t'.closing = true) (hstage : s.Stage t')
    (hbusy : busy.Inv) (h : s.claim op g t' busy = some s') : s'.Inv := by
  unfold RotatingReadDomain.claim at h
  split at h
  next =>
    cases h
    exact (hinv.goto ht hpub hfree hfree' hstage hclosing).setControl g true
  next =>
    split at h
    next => cases h
    next =>
      cases h
      exact hbusy

theorem Inv.manage_replacement (hinv : s.Inv) {proc : DrainProc}
    (ht : s.transition = some (.replacement op old proc))
    (h : s.manage (.replacement op old proc) = some s') : s'.Inv := by
  obtain ⟨hfresh, hproc, hclean⟩ := hinv.stage _ ht
  have hlock : ManagerLock (s.generations (!old)) proc.locks :=
    hinv.lock_of_transition ht beq_self_and
  -- nothing is pending, so the replacement is drained and polling it cannot fail
  have hdrained : s.Drained (!old) := by
    have hd := (hinv.settled_of_transition ht rfl).2 hfresh.2.1
    rwa [hfresh.2.2] at hd
  have hout := DrainProc.step_yields hproc hlock
  have hok := DrainProc.step_yields_of_allIdle hdrained.1 hdrained.2 hlock hclean
  simp only [manage] at h
  generalize proc.step (s.generations (!old)) = out at h hout hok
  cases h
  cases out with
  | running gate next =>
    obtain ⟨hkeep, hnext, hlock'⟩ := hout
    refine hinv.goto_of_seals ht rfl hkeep hlock' not_not_beq_and (fun _ => rfl) ?_ (not_closing rfl)
    refine ⟨hfresh, ?_, hok⟩
    rw [setGate_self]
    exact hnext
  | done gate ok =>
    obtain ⟨hkeep, -, hlock', -⟩ := hout
    have htrue : ok = true := hok
    subst htrue
    exact hinv.goto_of_seals ht rfl hkeep hlock' not_not_beq_and (fun _ => unlocked) hfresh
      (not_closing rfl)
  | failStop => exact hout.elim

variable {proc : SealProc}

theorem Inv.manage_sealOld (hinv : s.Inv) (ht : s.transition = some (.sealOld op old proc))
    (h : s.manage (.sealOld op old proc) = some s') : s'.Inv := by
  obtain ⟨hfresh, hproc⟩ := hinv.stage _ ht
  have hlock : ManagerLock (s.generations old) proc.locks :=
    hinv.lock_of_transition ht beq_self_and
  simp only [manage, map_eq_some_iff] at h
  obtain ⟨out, hstep, rfl⟩ := h
  have hout := SealProc.step_yields hstep hproc hlock
  cases out with
  | running gate next =>
    obtain ⟨hkeep, hnext, hlock'⟩ := hout
    refine hinv.goto_of_seals ht rfl hkeep hlock' not_beq_self_and (fun _ => rfl) ?_ (not_closing rfl)
    refine ⟨hfresh, ?_⟩
    rw [setGate_self]
    exact hnext
  | done gate ok =>
    obtain ⟨hkeep, -, hall, hlock'⟩ := hout
    refine Inv.setControl (s := (s.setGate old gate).goto (.setPending op old)) ?_ old false
    refine hinv.goto_of_seals ht rfl hkeep hlock' not_beq_self_and (fun _ => unlocked) ?_
      (not_closing rfl)
    refine ⟨hfresh, ?_⟩
    rw [setGate_self]
    exact hall
  | failStop => exact hout.elim

/-- **The rule for the steps that may unseal**: they run on the current gate of an
open domain, so what is known of the other one is not touched. -/
theorem Inv.goto_of_moves (hinv : s.Inv) (ht : s.transition = some t)
    (hpub : t.publishing = false) (hopen : s.closed = false) (hG : s.current = G)
    (hkeep : MovesKeep (s.generations G) gate) (hlock : ManagerLock gate held)
    (hother : t.locksIdle (!G) = false) (hlocks : ∀ g, t'.locksIdle g = (g == G && held))
    (hstage : (s.setGate G gate).Stage t') : ((s.setGate G gate).goto t').Inv := by
  subst hG
  refine hinv.goto_of_gate ht hpub hkeep hlock hother hlocks hstage ?_ ?_ (absurd_closed hopen)
    (fun h => absurd_closed hopen (hinv.certified h).1)
  · rw [setGate_not]
    exact hinv.otherSealed
  · intro h
    rw [Drained, setGate_not]
    exact h

theorem Inv.manage_idleSeal (hinv : s.Inv) {proc : IdleSealProc w}
    (ht : s.transition = some (.idleSeal old proc)) (h : s.manage (.idleSeal old proc) = some s') :
    s'.Inv := by
  obtain ⟨hfresh, hproc⟩ := hinv.stage _ ht
  obtain ⟨hopen, -, hcur⟩ := id hfresh
  have hlock : ManagerLock (s.generations old) false := hinv.lock_of_transition ht rfl
  have hout := IdleSealProc.step_yields hproc
  simp only [manage] at h
  generalize proc.step (s.generations old) = out at h hout
  cases h
  cases out with
  | running gate next =>
    obtain ⟨hkeep, hnext, hidle⟩ := hout
    have hlock' : ManagerLock gate false := by
      rw [ManagerLock, hidle]
      exact hlock
    refine hinv.goto_of_moves ht rfl hopen hcur hkeep hlock' rfl
      (fun _ => unlocked) ?_
    refine ⟨hfresh, ?_⟩
    rw [setGate_self]
    exact hnext
  | done gate ok =>
    obtain ⟨rfl, hall⟩ := hout
    cases ok with
    | true =>
      refine Inv.setControl (s := (s.setGate old _).goto (.setPending .idle old)) ?_ old false
      rw [setGate_eta]
      exact hinv.goto ht rfl (fun _ => rfl) (fun _ => rfl) ⟨hfresh, (hall rfl).allSealed⟩
        (not_closing rfl)
    | false =>
      refine Inv.setControl (s := ((s.setGate old _).goto (.abandon .idle old)).setControl old false)
        ?_ (!old) false
      refine Inv.setControl ?_ old false
      rw [setGate_eta]
      exact hinv.goto ht rfl (fun _ => rfl) (fun _ => rfl) hfresh (not_closing rfl)
  | failStop => exact hout.elim

/-- A transition step outside all idle locks: the counts and locks do not move. -/
private theorem managerLock_goto (hinv : s.Inv) (ht : s.transition = some t)
    (hfree : ∀ g, t.locksIdle g = false) : ∀ g, ManagerLock (s.generations g) false :=
  fun g => hinv.lock_of_transition ht (hfree g)

theorem Inv.manage_setPending (hinv : s.Inv) (ht : s.transition = some (.setPending op old)) :
    ({ s with pending := some old }.goto (.publish op old)).Inv := by
  obtain ⟨⟨hopen, hnone, hcur⟩, hall⟩ := hinv.stage _ ht
  have hdrained : s.Drained (!old) := by
    have hd := (hinv.settled_of_transition ht rfl).2 hnone
    rwa [hcur] at hd
  exact { hinv with
    managerLock := by
      intro g
      have hlock := managerLock_goto hinv ht (fun _ => rfl) g
      exact hlock
    settled := nofun
    stage := by
      intro t' ht'
      cases ht'
      exact ⟨hopen, rfl, hcur, hall, hdrained⟩
    closedSealed := absurd_closed hopen }

theorem Inv.manage_publish (hinv : s.Inv) (ht : s.transition = some (.publish op old)) :
    ({ s with current := !old }.goto (.reopen op old .lock)).Inv := by
  obtain ⟨hopen, hpend, hcur, hall, hdrained⟩ := hinv.stage _ ht
  exact { hinv with
    managerLock := by
      intro g
      have hlock := managerLock_goto hinv ht (fun _ => rfl) g
      show ManagerLock (s.generations g) (g == !old && false)
      rwa [Bool.and_false]
    otherSealed := by
      show (s.generations (!(!old))).AllSealed
      rw [Bool.not_not]
      exact hall
    settled := by
      intro _
      constructor
      · intro old' hold
        have hsame : s.pending = some old' := hold
        rw [hpend] at hsame
        cases hsame
        rfl
      · intro hnone
        have hsame : s.pending = none := hnone
        rw [hpend] at hsame
        cases hsame
    stage := by
      intro t' ht'
      cases ht'
      exact ⟨⟨hopen, hpend, rfl⟩, hdrained.1⟩
    closedSealed := absurd_closed hopen }

theorem Inv.manage_reopen (hinv : s.Inv) {proc : ReopenProc}
    (ht : s.transition = some (.reopen op old proc))
    (h : s.manage (.reopen op old proc) = some s') : s'.Inv := by
  obtain ⟨hrot, hproc⟩ := hinv.stage _ ht
  obtain ⟨hopen, -, hcur⟩ := id hrot
  have hlock : ManagerLock (s.generations (!old)) proc.locks :=
    hinv.lock_of_transition ht beq_self_and
  simp only [manage, map_eq_some_iff] at h
  obtain ⟨out, hstep, rfl⟩ := h
  have hout := ReopenProc.step_yields hstep hproc hlock
  cases out with
  | running gate next =>
    obtain ⟨hkeep, hnext, hlock'⟩ := hout
    refine hinv.goto_of_moves ht rfl hopen hcur hkeep hlock' not_not_beq_and (fun _ => rfl) ?_
    refine ⟨hrot, ?_⟩
    rw [setGate_self]
    exact hnext
  | done gate ok =>
    obtain ⟨hkeep, htrue, hlock'⟩ := hout
    subst htrue
    refine Inv.setControl (s := (s.setGate (!old) gate).goto (.releaseBarrier op old)) ?_
      (!old) false
    exact hinv.goto_of_moves ht rfl hopen hcur hkeep hlock' not_not_beq_and
      (fun _ => unlocked) hrot
  | failStop => exact hout.elim

variable {again : Bool}

theorem Inv.manage_drainSeal (hinv : s.Inv) (ht : s.transition = some (.drainSeal old again proc))
    (h : s.manage (.drainSeal old again proc) = some s') : s'.Inv := by
  obtain ⟨hrot, hproc⟩ := hinv.stage _ ht
  have hlock : ManagerLock (s.generations old) proc.locks :=
    hinv.lock_of_transition ht beq_self_and
  simp only [manage, map_eq_some_iff] at h
  obtain ⟨out, hstep, rfl⟩ := h
  have hout := SealProc.step_yields hstep hproc hlock
  cases out with
  | running gate next =>
    obtain ⟨hkeep, hnext, hlock'⟩ := hout
    refine hinv.goto_of_seals ht rfl hkeep hlock' not_beq_self_and (fun _ => rfl) ?_ (not_closing rfl)
    refine ⟨hrot, ?_⟩
    rw [setGate_self]
    exact hnext
  | done gate ok =>
    obtain ⟨hkeep, -, hall, hlock'⟩ := hout
    refine hinv.goto_of_seals ht rfl hkeep hlock' not_beq_self_and (fun _ => rfl) ?_ (not_closing rfl)
    refine ⟨hrot, ?_⟩
    rw [setGate_self]
    exact hall
  | failStop => exact hout.elim

/-- A gate the manager has just seen idle, under the idle lock, is drained. -/
theorem drained_of_observed (hheld : (s.generations G).idle = some .manager)
    (hkeep : SealsKeep (s.generations G) gate) (hall : gate.AllIdle) :
    (s.setGate G gate).Drained G := by
  rw [Drained, setGate_self]
  refine ⟨hall, fun r hr => ?_⟩
  rw [hkeep.releaser, hheld] at hr
  cases hr

section

variable (hinv : s.Inv)
include hinv

theorem Inv.manage_drainWait {proc : WaitProc}
    (ht : s.transition = some (.drainWait old again proc))
    (h : s.manage (.drainWait old again proc) = some s') : s'.Inv := by
  obtain ⟨hrot, hproc⟩ := hinv.stage _ ht
  have hlock : ManagerLock (s.generations old) proc.locks :=
    hinv.lock_of_transition ht beq_self_and
  simp only [manage, map_eq_some_iff] at h
  obtain ⟨out, hstep, rfl⟩ := h
  have hout := WaitProc.step_yields hstep hproc hlock
  cases out with
  | running gate next =>
    obtain ⟨hkeep, hnext, hlock'⟩ := hout
    refine hinv.goto_of_seals ht rfl hkeep hlock' not_beq_self_and (fun _ => rfl) ?_ (not_closing rfl)
    refine ⟨hrot, ?_⟩
    rw [setGate_self]
    exact hnext
  | done gate ok =>
    obtain ⟨hkeep, -, hall, hlock', hheld⟩ := hout
    refine Inv.setControl (s := (s.setGate old gate).goto (.callback .rotate old again)) ?_
      old false
    exact hinv.goto_of_seals ht rfl hkeep hlock' not_beq_self_and (fun _ => unlocked)
      ⟨hrot, drained_of_observed hheld hkeep hall⟩ (not_closing rfl)
  | failStop => exact hout.elim

theorem Inv.manage_tryWait {proc : DrainProc} (ht : s.transition = some (.tryWait op old proc))
    (h : s.manage (.tryWait op old proc) = some s') : s'.Inv := by
  obtain ⟨hrot, hproc⟩ := hinv.stage _ ht
  have hlock : ManagerLock (s.generations old) proc.locks :=
    hinv.lock_of_transition ht beq_self_and
  have hout := DrainProc.step_yields hproc hlock
  simp only [manage] at h
  generalize proc.step (s.generations old) = out at h hout
  cases h
  cases out with
  | running gate next =>
    obtain ⟨hkeep, hnext, hlock'⟩ := hout
    refine hinv.goto_of_seals ht rfl hkeep hlock' not_beq_self_and (fun _ => rfl) ?_ (not_closing rfl)
    refine ⟨hrot, ?_⟩
    rw [setGate_self]
    exact hnext
  | done gate ok =>
    obtain ⟨hkeep, hall, hlock', hheld⟩ := hout
    refine Inv.setControl (s := (s.setGate old gate).goto _) ?_ old false
    cases ok with
    | true =>
      exact hinv.goto_of_seals ht rfl hkeep hlock' not_beq_self_and (fun _ => unlocked)
        ⟨hrot, drained_of_observed (hheld rfl) hkeep (hall rfl)⟩ (not_closing rfl)
    | false =>
      exact hinv.goto_of_seals ht rfl hkeep hlock' not_beq_self_and (fun _ => unlocked)
        trivial (not_closing rfl)
  | failStop => exact hout.elim

theorem Inv.manage_clear (ht : s.transition = some (.clear op old again)) :
    ({ s with pending := none }.goto
      (if again then .barrier .rotate s.current else .unlock)).Inv := by
  obtain ⟨⟨hopen, hpend, hcur⟩, hdrained⟩ := hinv.stage _ ht
  have hother : s.Drained (!s.current) := by
    rw [hcur, Bool.not_not]
    exact hdrained
  exact { hinv with
    managerLock := by
      intro g
      have hlock := managerLock_goto hinv ht (fun _ => rfl) g
      cases again <;> exact hlock
    settled := by
      intro _
      exact ⟨fun old' h => (by cases h), fun _ => hother⟩
    stage := by
      intro t' ht'
      cases ht'
      cases again with
      | true => exact ⟨hopen, rfl, rfl⟩
      | false => exact trivial
    closedSealed := absurd_closed hopen }

-- ---- Closing.

theorem Inv.manage_close (ht : s.transition = some (.locked op)) :
    ({ s with closed := true }.goto (.closeClaim false)).Inv :=
  { hinv with
    managerLock := by
      intro g
      have hlock := managerLock_goto hinv ht (fun _ => rfl) g
      exact hlock
    settled := fun _ => hinv.settled_of_transition ht rfl
    stage := by
      intro t' ht'
      cases ht'
      exact ⟨rfl, fun h => absurd h Bool.false_ne_true⟩
    closedSealed := fun _ => .inr rfl
    certified := fun h => ⟨rfl, (hinv.certified h).2⟩ }

theorem Inv.manage_closeSeal (ht : s.transition = some (.closeSeal g proc))
    (h : s.manage (.closeSeal g proc) = some s') : s'.Inv := by
  obtain ⟨hclosed, hfirst, hproc⟩ := hinv.stage _ ht
  have hlock : ManagerLock (s.generations g) proc.locks :=
    hinv.lock_of_transition ht beq_self_and
  simp only [manage, map_eq_some_iff] at h
  obtain ⟨out, hstep, rfl⟩ := h
  have hout := SealProc.step_yields hstep hproc hlock
  cases out with
  | running gate next =>
    obtain ⟨hkeep, hnext, hlock'⟩ := hout
    refine hinv.goto_of_seals ht rfl hkeep hlock' not_beq_self_and (fun _ => rfl) ?_ fun _ _ => .inr rfl
    refine ⟨hclosed, fun hg => (hfirst hg).of_seals hkeep, ?_⟩
    rw [setGate_self]
    exact hnext
  | done gate ok =>
    obtain ⟨hkeep, -, hall, hlock'⟩ := hout
    refine hinv.goto_of_seals ht rfl hkeep hlock' not_beq_self_and (fun _ => rfl) ?_ fun _ _ => .inr rfl
    refine ⟨hclosed, fun hg => (hfirst hg).of_seals hkeep, ?_⟩
    rw [setGate_self]
    exact hall
  | failStop => exact hout.elim

/-- Setting the history flag of a domain whose generations are both drained. -/
theorem Inv.certify (hclosed : s.closed = true) (hall : ∀ g, s.Drained g) :
    ({ s with certified := true } : RotatingReadDomain w N).Inv :=
  { hinv with
    stage := fun t ht => (hinv.stage t ht).of_keep rfl rfl rfl (fun _ => .refl _) fun h => h
    certified := fun _ => ⟨hclosed, hall⟩ }

theorem Inv.manage_closeWait {proc : WaitProc}
    (ht : s.transition = some (.closeWait g proc)) (h : s.manage (.closeWait g proc) = some s') :
    s'.Inv := by
  obtain ⟨hclosed, hfirst, hproc⟩ := hinv.stage _ ht
  have hlock : ManagerLock (s.generations g) proc.locks :=
    hinv.lock_of_transition ht beq_self_and
  simp only [manage, map_eq_some_iff] at h
  obtain ⟨out, hstep, rfl⟩ := h
  have hout := WaitProc.step_yields hstep hproc hlock
  cases out with
  | running gate next =>
    obtain ⟨hkeep, hnext, hlock'⟩ := hout
    refine hinv.goto_of_seals ht rfl hkeep hlock' not_beq_self_and (fun _ => rfl) ?_ fun _ _ => .inr rfl
    refine ⟨hclosed, fun hg => (hfirst hg).of_seals hkeep, ?_⟩
    rw [setGate_self]
    exact hnext
  | done gate ok =>
    obtain ⟨hkeep, -, hall, hlock', hheld⟩ := hout
    have hdrained := drained_of_observed hheld hkeep hall
    cases g with
    | false =>
      refine Inv.setControl (s := (s.setGate false gate).goto (.closeClaim true)) ?_ false false
      exact hinv.goto_of_seals ht rfl hkeep hlock' rfl (fun _ => unlocked)
        ⟨hclosed, fun _ => hdrained⟩ fun _ _ => .inr rfl
    | true =>
      -- generation 0 was drained before generation 1 was claimed
      have hboth : ∀ g, (s.setGate true gate).Drained g := by
        intro g
        cases g with
        | false => exact (hfirst rfl).of_seals hkeep
        | true => exact hdrained
      have hgoto : ((s.setGate true gate).goto .unlock).Inv :=
        hinv.goto_of_seals ht rfl hkeep hlock' rfl (fun _ => unlocked) trivial
          fun _ _ => .inl fun g => (hboth g).1.allSealed
      exact (hgoto.setControl true false).certify hclosed fun g => (hboth g).setControl true false
  | failStop => exact hout.elim

theorem Inv.manage_unlock (ht : s.transition = some .unlock) :
    ({ s with transition := none } : RotatingReadDomain w N).Inv :=
  { hinv with
    managerLock := by
      intro g
      have hlock := managerLock_goto hinv ht (fun _ => rfl) g
      exact hlock
    settled := fun _ => hinv.settled_of_transition ht rfl
    stage := fun t h => by cases h
    closedSealed := by
      intro h
      rcases hinv.closedSealed h with hall | hclosing
      · exact .inl hall
      · rw [ht] at hclosing
        cases hclosing }

/-- **The holder of the transition lock keeps the invariant**, and so takes no
`fail_stop` branch. -/
theorem Inv.manage (ht : s.transition = some t) (h : s.manage t = some s') : s'.Inv := by
  have hstage := hinv.stage t ht
  cases t with
  | locked op =>
    simp only [manage] at h
    split at h
    next =>
      cases h
      exact hinv.manage_close ht
    next =>
      split at h
      next =>
        cases h
        exact hinv.goto ht rfl (fun _ => rfl) (fun _ => rfl) trivial (not_closing rfl)
      next hopen =>
        cases h
        exact hinv.goto ht rfl (fun _ => rfl) (fun _ => rfl) (Bool.eq_false_iff.mpr hopen)
          (not_closing rfl)
  | classify op =>
    have hopen : s.closed = false := hstage
    simp only [manage] at h
    split at h
    next old hold =>
      cases h
      have hcur := (hinv.settled_of_transition ht rfl).1 old hold
      exact hinv.goto ht rfl (fun _ => rfl) (fun _ => rfl) ⟨hopen, hold, hcur⟩ (not_closing rfl)
    next hnone =>
      cases h
      exact hinv.goto ht rfl (fun _ => rfl) (fun _ => rfl) ⟨hopen, hnone, rfl⟩ (not_closing rfl)
  | barrier op old | releaseBarrier op old | callback op old again =>
    cases h
    exact hinv.goto ht rfl (fun _ => rfl) (fun _ => rfl) hstage (not_closing rfl)
  | claimReplacement op old =>
    refine hinv.claim ht rfl (fun _ => rfl) ?_ (not_closing rfl) ?_ ?_ h
    · exact fun _ => Bool.and_false _
    · exact ⟨hstage, fun j hj => absurd hj (Nat.not_lt_zero _), trivial⟩
    · exact hinv.goto ht rfl (fun _ => rfl) (fun _ => rfl) hstage (not_closing rfl)
  | replacement op old proc => exact hinv.manage_replacement ht h
  | claimOld op old =>
    refine hinv.claim ht rfl (fun _ => rfl) ?_ (not_closing rfl) ?_ ?_ h
    · intro g
      split
      · rfl
      · exact Bool.and_false _
    · split
      · exact ⟨hstage, fun j hj => absurd hj (Nat.not_lt_zero _)⟩
      · exact ⟨hstage, trivial⟩
    · refine Inv.setControl (s := s.goto (.abandon op old)) ?_ (!old) false
      exact hinv.goto ht rfl (fun _ => rfl) (fun _ => rfl) hstage (not_closing rfl)
  | sealOld op old proc => exact hinv.manage_sealOld ht h
  | idleSeal old proc => exact hinv.manage_idleSeal ht h
  | setPending op old =>
    cases h
    exact hinv.manage_setPending ht
  | publish op old =>
    cases h
    exact hinv.manage_publish ht
  | reopen op old proc => exact hinv.manage_reopen ht h
  | abandon op old =>
    cases h
    exact hinv.goto ht rfl (fun _ => rfl) (fun _ => rfl) trivial (not_closing rfl)
  | claimPending op old again =>
    refine hinv.claim ht rfl (fun _ => rfl) ?_ (not_closing rfl) ?_ ?_ h
    · intro g
      split <;> exact Bool.and_false _
    · split
      · exact ⟨hstage, trivial⟩
      · exact ⟨hstage, fun j hj => absurd hj (Nat.not_lt_zero _)⟩
    · exact hinv.goto ht rfl (fun _ => rfl) (fun _ => rfl) trivial (not_closing rfl)
  | drainSeal old again proc => exact hinv.manage_drainSeal ht h
  | drainWait old again proc => exact hinv.manage_drainWait ht h
  | tryWait op old proc => exact hinv.manage_tryWait ht h
  | clear op old again =>
    cases h
    exact hinv.manage_clear ht
  | closeClaim g =>
    refine hinv.claim ht rfl (fun _ => rfl) ?_ (fun _ _ => rfl) ?_ hinv h
    · exact fun _ => Bool.and_false _
    · exact ⟨hstage.1, hstage.2, trivial⟩
  | closeSeal g proc => exact hinv.manage_closeSeal ht h
  | closeWait g proc => exact hinv.manage_closeWait ht h
  | unlock =>
    cases h
    exact hinv.manage_unlock ht

-- ---- Every step, and every run.

theorem Inv.enter (stripe : Fin N) :
    ({ s with readers := s.readers ++ [.start stripe] } : RotatingReadDomain w N).Inv :=
  { hinv with
    counted := by
      intro g i
      have hsame : (s.readers ++ [Reader.start stripe]).countP (·.holds g i) =
          s.readers.countP (·.holds g i) := by
        rw [countP_append]
        rfl
      exact (hinv.counted g i).trans hsame.symm
    readerLock := by
      intro g r
      refine (hinv.readerLock g r).trans ?_
      show s.readers[r]?.any _ = true ↔ (s.readers ++ [Reader.start stripe])[r]?.any _ = true
      rw [getElem?_append]
      split
      next => exact Iff.rfl
      next hge =>
        have hnone : s.readers[r]? = none := getElem?_eq_none (by omega)
        rw [hnone]
        cases hk : [Reader.start stripe][r - s.readers.length]? with
        | none => exact Iff.rfl
        | some x =>
          have hmem := mem_of_getElem? hk
          rw [mem_singleton] at hmem
          subst hmem
          exact Iff.rfl
    serials := by
      intro x hx g serial hp
      rcases mem_append.mp hx with hold | hnew
      · exact hinv.serials x hold g serial hp
      · rw [mem_singleton] at hnew
        subst hnew
        cases hp
    stage := fun t ht => (hinv.stage t ht).of_keep rfl rfl rfl (fun _ => .refl _) fun h => h }

theorem Inv.lock (op : Operation) (ht : s.transition = none) : (s.goto (.locked op)).Inv :=
  { hinv with
    managerLock := by
      intro g
      have hlock := hinv.managerLock g
      rw [managing, ht] at hlock
      exact hlock
    settled := fun _ => hinv.settled (by rw [ht]; rfl)
    stage := by
      intro t h
      cases h
      exact trivial
    closedSealed := by
      intro h
      rcases hinv.closedSealed h with hall | hclosing
      · exact .inl hall
      · rw [ht] at hclosing
        cases hclosing }

/-- **Every step keeps the invariant.** -/
theorem Inv.step {action : Action N} (h : s.step action = some s') : s'.Inv := by
  unfold RotatingReadDomain.step at h
  split at h
  next => cases h
  next =>
    cases action with
    | enter stripe =>
      cases h
      exact hinv.enter stripe
    | reader r => exact hinv.of_reader (readerMove_of_readerStep h)
    | lock op =>
      simp only [] at h
      split at h
      next hnone =>
        cases h
        exact hinv.lock op (isNone_iff_eq_none.mp hnone)
      next => cases h
    | manage =>
      simp only [] at h
      split at h
      next t ht => exact hinv.manage ht h
      next => cases h
    | barrierBusy =>
      simp only [] at h
      split at h
      next op old ht =>
        split at h
        next => cases h
        next =>
          cases h
          exact hinv.goto ht rfl (fun _ => rfl) (fun _ => rfl) trivial (not_closing rfl)
      next => cases h
    | panic =>
      simp only [] at h
      split at h
      next op old again ht =>
        cases h
        exact hinv.goto ht rfl (fun _ => rfl) (fun _ => rfl) trivial (not_closing rfl)
      next => cases h

theorem Inv.run {actions : List (Action N)}
    (h : Lib.run RotatingReadDomain.step s actions = some s') : s'.Inv :=
  run_invariant (fun _ _ _ hi hs => hi.step hs) hinv h

end

/-- Outside `lock`, `seal_and_wait` and the final unlock the domain is open. -/
theorem Stage.open_of (h : s.Stage t) :
    s.closed = false ∨ (∃ op, t = .locked op) ∨ t.closing = true ∨ t = .unlock := by
  cases t with
  | locked op => exact .inr (.inl ⟨op, rfl⟩)
  | classify op => exact .inl h
  | barrier op old | claimReplacement op old | claimOld op old | publish op old
  | releaseBarrier op old | abandon op old | claimPending op old again => exact .inl h.1
  | replacement op old proc | sealOld op old proc | idleSeal old proc | setPending op old
  | reopen op old proc | drainSeal old again proc | drainWait old again proc
  | tryWait op old proc | callback op old again | clear op old again => exact .inl h.1.1
  | closeClaim g | closeSeal g proc | closeWait g proc => exact .inr (.inr (.inl rfl))
  | unlock => exact .inr (.inr (.inr rfl))

/-- `s'` is closed if `s` is, and no stripe that is sealed in `s` is open in `s'`. -/
structure StaysClosed (s s' : RotatingReadDomain w N) : Prop where
  closed    : s'.closed = true
  certified : s.certified = true → s'.certified = true
  sealedAt  : ∀ g i, (s.generations g).SealedAt i → (s'.generations g).SealedAt i

theorem staysClosed_of_seals (hclosed : s.closed = true)
    (hkeep : SealsKeep (s.generations G) gate) : StaysClosed s (s.setGate G gate) where
  closed := hclosed
  certified h := h
  sealedAt g i h := by
    rcases eq_or_eq_not G g with rfl | rfl
    · rw [setGate_self]
      exact hkeep.stays i h
    · rw [setGate_not]
      exact h

theorem StaysClosed.setControl {u : RotatingReadDomain w N} (h : StaysClosed s u)
    (g : GenerationIndex) (held : Bool) : StaysClosed s (u.setControl g held) where
  closed := h.closed
  certified := h.certified
  sealedAt g' i hs := by
    obtain ⟨c, hc⟩ := u.gate_setControl g held g'
    rw [hc]
    exact h.sealedAt g' i hs

theorem StaysClosed.goto {u : RotatingReadDomain w N} (h : StaysClosed s u) (t : Transition w) :
    StaysClosed s (u.goto t) := ⟨h.closed, h.certified, h.sealedAt⟩

theorem StaysClosed.refl (h : s.closed = true) : StaysClosed s s := ⟨h, fun h => h, fun _ _ h => h⟩

/-- The steps of the lock's holder on a closed domain are those of `seal_and_wait`. -/
theorem Inv.manage_closed (hinv : s.Inv) (hclosed : s.closed = true) (ht : s.transition = some t)
    (h : s.manage t = some s') : StaysClosed s s' := by
  rcases (hinv.stage t ht).open_of with hopen | ⟨op, rfl⟩ | hclosing | rfl
  · rw [hclosed] at hopen
    cases hopen
  · simp only [RotatingReadDomain.manage] at h
    split at h
    next =>
      cases h
      exact ⟨rfl, fun h => h, fun _ _ h => h⟩
    next =>
      cases h
      exact (StaysClosed.refl hclosed).goto _
  · cases t with
    | closeClaim g =>
      simp only [RotatingReadDomain.manage, RotatingReadDomain.claim] at h
      split at h
      next =>
        cases h
        exact ((StaysClosed.refl hclosed).setControl g true).goto _
      next =>
        cases h
    | closeSeal g proc =>
      obtain ⟨-, -, hproc⟩ := hinv.stage _ ht
      simp only [RotatingReadDomain.manage, map_eq_some_iff] at h
      obtain ⟨out, hstep, rfl⟩ := h
      have hout := SealProc.step_yields hstep hproc (hinv.lock_of_transition ht beq_self_and)
      cases out with
      | running gate next | done gate ok => exact (staysClosed_of_seals hclosed hout.1).goto _
      | failStop => exact hout.elim
    | closeWait g proc =>
      obtain ⟨-, -, hproc⟩ := hinv.stage _ ht
      simp only [RotatingReadDomain.manage, map_eq_some_iff] at h
      obtain ⟨out, hstep, rfl⟩ := h
      have hout := WaitProc.step_yields hstep hproc (hinv.lock_of_transition ht beq_self_and)
      cases out with
      | running gate next => exact (staysClosed_of_seals hclosed hout.1).goto _
      | done gate ok =>
        have hdone := (staysClosed_of_seals hclosed hout.1).setControl g false
        cases g with
        | false => exact hdone.goto _
        | true => exact ⟨hdone.closed, fun _ => rfl, hdone.sealedAt⟩
      | failStop => exact hout.elim
    | _ => cases hclosing
  · cases h
    exact ⟨hclosed, fun h => h, fun _ _ h => h⟩

/-- **A closed domain is never reopened**: no step opens a sealed stripe. -/
theorem Inv.step_closed (hinv : s.Inv) (hclosed : s.closed = true) {action : Action N}
    (h : s.step action = some s') : StaysClosed s s' := by
  unfold RotatingReadDomain.step at h
  split at h
  next => cases h
  next =>
    cases action with
    | enter stripe =>
      cases h
      exact ⟨hclosed, fun h => h, fun _ _ h => h⟩
    | reader r =>
      have hmove := readerMove_of_readerStep h
      obtain ⟨-, -, -, hcl, hcert⟩ := hmove.frame
      exact ⟨hcl.trans hclosed, fun h => hcert.trans h,
        fun g _ hs => (hmove.keep hinv g).sealedAt hs⟩
    | lock op | panic =>
      simp only [] at h
      split at h
      next =>
        cases h
        exact (StaysClosed.refl hclosed).goto _
      next => cases h
    | manage =>
      simp only [] at h
      split at h
      next t ht => exact hinv.manage_closed hclosed ht h
      next => cases h
    | barrierBusy =>
      simp only [] at h
      split at h
      next op old ht =>
        split at h
        next => cases h
        next =>
          cases h
          exact (StaysClosed.refl hclosed).goto _
      next => cases h

theorem Inv.run_closed (hinv : s.Inv) (hclosed : s.closed = true) {actions : List (Action N)}
    (h : Lib.run RotatingReadDomain.step s actions = some s') : StaysClosed s s' := by
  have hrun : s'.Inv ∧ StaysClosed s s' := by
    refine run_invariant (I := fun u => u.Inv ∧ StaysClosed s u) ?_ ⟨hinv, .refl hclosed⟩ h
    rintro u action v ⟨hu, hs⟩ hstep
    have hv := hu.step_closed hs.closed hstep
    exact ⟨hu.step hstep, hv.closed, fun hc => hv.certified (hs.certified hc),
      fun g i hi => hv.sealedAt g i (hs.sealedAt g i hi)⟩
  exact hrun.2

/-- **Generation safety.** In every state that any interleaving of readers,
rotations, polls, idle attempts, closings and unwinding callbacks reaches:

* at most one generation's gate is open, and it is the current one;
* once `closed` is set, no sealed stripe is opened again in any continuation, and
  once `seal_and_wait` has returned no gate is open in any continuation;
* no `fail_stop` branch of a transition was taken; a process that stopped did so
  because a reader found the count of its stripe full. -/
theorem generation_safety (h : Reachable step new s) :
    ¬((s.generations false).IsOpen ∧ (s.generations true).IsOpen) ∧
    (s.generations (!s.current)).AllSealed ∧
    (s.closed = true → ∀ actions s', run step s actions = some s' → ∀ g i,
      isSealed ((s.generations g).counters i) = true →
      isSealed ((s'.generations g).counters i) = true) ∧
    (s.certified = true → ∀ actions s', run step s actions = some s' → ∀ g,
      ¬(s'.generations g).IsOpen) ∧
    (∀ why, s.aborted = some why → why = .acquire) := by
  have hinv : s.Inv := Reachable.invariant (fun _ _ _ hi hs => hi.step hs) new_inv h
  refine ⟨?_, hinv.otherSealed, ?_, ?_, ?_⟩
  · rintro ⟨h0, h1⟩
    have hother := hinv.otherSealed.not_isOpen
    cases hcur : s.current with
    | false =>
      rw [hcur] at hother
      exact hother h1
    | true =>
      rw [hcur] at hother
      exact hother h0
  · intro hclosed actions s' hrun g i hs
    exact (hinv.run_closed hclosed hrun).sealedAt g i hs
  · intro hcert actions s' hrun g
    have hclosed := (hinv.certified hcert).1
    have hcert' := (hinv.run_closed hclosed hrun).certified hcert
    exact (((hinv.run hrun).certified hcert').2 g).1.allSealed.not_isOpen
  · intro why hwhy
    rcases hinv.aborts with hnone | hacq
    · rw [hnone] at hwhy
      cases hwhy
    · rw [hacq] at hwhy
      cases hwhy
      rfl

/-- Two stripes; one reader. A poll rotates while the reader still holds its
permit, the reader releases, a second poll runs its callback, which unwinds, an
idle attempt completes the rotation, and the domain is closed. -/
def pollRun : List (Action 2) :=
  List.flatten [
    [.enter ⟨0, Nat.two_pos⟩, .reader 0, .reader 0, .reader 0, .lock .poll], .replicate 37 .manage,
    [.reader 0, .reader 0, .reader 0, .reader 0, .lock .poll], .replicate 10 .manage,
    [.panic, .manage, .lock .idle], .replicate 13 .manage,
    [.lock .close], .replicate 20 .manage]

theorem generation_safety_pollRun :
    ∃ s : RotatingReadDomain 62 2, run step new pollRun = some s ∧ s.certified = true ∧
      s.current = true ∧ (s.generations (!s.current)).AllSealed ∧
      ∀ why, s.aborted = some why → why = .acquire := by
  have hrun : ((run step (new : RotatingReadDomain 62 2) pollRun).map fun s =>
      (s.certified, s.current)) = some (true, true) := by
    decide +kernel
  obtain ⟨s, hs, hval⟩ := map_eq_some_iff.mp hrun
  rw [Prod.mk.injEq] at hval
  obtain ⟨-, hother, -, -, haborts⟩ := generation_safety ⟨pollRun, hs⟩
  exact ⟨s, hs, hval.1, hval.2, hother, haborts⟩

end RotatingReadDomain

end Xlfn.Kernel
