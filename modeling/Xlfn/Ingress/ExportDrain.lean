import Xlfn.Ingress.ExportWf

/-!
# Xlfn — draining the export ingress

`seal_and_drain` returns when the module may be unloaded, so no call may be inside
user code then, and none may get there later. `ExportIngress` alone does not
give this to any caller: two overlapping calls break it, because the second can
finish, and a whole epoch can open, between the wait of the first and its
exchange. In the module the right to call it is a `ModuleClosing`, which
`begin_close` creates and the call consumes; `Ready` is what that gives.

* `Ready`            — `seal_and_drain` is called in CLOSING, one call at a time.
-/

namespace Xlfn.Ingress

open Lib Kernel List Option

variable {w N : Nat}

namespace ExportIngress

variable {s s' : ExportIngress w N}

/-- `seal_and_drain` is called to finish a close that has begun, and not while
another call of it is under way. -/
def Ready (s : ExportIngress w N) : Action N → Prop
  | .sealAndDrain => s.phase = .closing ∧ ∀ c ∈ s.calls, c.draining = false
  | _ => True

instance (s : ExportIngress w N) (action : Action N) : Decidable (s.Ready action) := by
  cases action with
  | sealAndDrain =>
    exact inferInstanceAs (Decidable (s.phase = .closing ∧ ∀ c ∈ s.calls, c.draining = false))
  | _ => exact inferInstanceAs (Decidable True)

-- ---- Every step keeps the invariant.

variable {action : Action N} {c : Call} {i : Nat} {e : EntryCall N}

theorem not_stopped_of_step (h : s.step action = some s') :
    (s.aborted || s.exports.aborted.isSome) = false := by
  unfold step at h
  split at h
  next => cases h
  next hnot => simpa using hnot

theorem Wf.of_enter (hwf : s.Wf) (udf : Bool) (stripe : Fin N) :
    Wf { s with entries := s.entries ++ [⟨udf, stripe, .observe⟩] } where
  gate := hwf.gate
  entry i e he := by
    rcases getElem?_append_singleton_cases he with hold | ⟨-, rfl⟩
    · exact { hwf.entry i e hold with }
    · exact entryOk_of_free nofun rfl (by simp)
  apart i j e e' r he he' hr hr' := by
    rcases getElem?_append_singleton_cases he with hold | ⟨-, rfl⟩
    · rcases getElem?_append_singleton_cases he' with hold' | ⟨-, rfl⟩
      · exact hwf.apart i j e e' r hold hold' hr hr'
      · cases hr'
    · cases hr
  call k c hc := { hwf.call k c hc with }
  idle := hwf.idle
  single := hwf.single

theorem dormant_addCall (hc : c.reopens = false) : (s.addCall c).Dormant ↔ s.Dormant := by
  constructor
  · intro h d hd
    exact h d (mem_append_left _ hd)
  · intro h d hd
    rcases mem_append.mp hd with hd | hd
    · exact h d hd
    · rw [mem_singleton.mp hd]
      exact hc

theorem Wf.of_addCall (hwf : s.Wf) (hreopens : c.reopens = false)
    (hok : (s.addCall c).CallOk s.calls.length c)
    (hfree : c.draining = true → ∀ d ∈ s.calls, d.draining = false) : (s.addCall c).Wf where
  gate := hwf.gate
  entry i e he := { hwf.entry i e he with }
  apart := hwf.apart
  call k d hd := by
    rcases getElem?_append_singleton_cases hd with hold | ⟨rfl, rfl⟩
    · refine (hwf.call k d hold).frame id (fun _ => ⟨rfl, rfl⟩) (fun _ hp _ => hp)
        (fun _ h => h) (fun epoch hs => ⟨hs.1, fun heq => ⟨(hs.2 heq).1, ?_⟩⟩)
      exact (dormant_addCall hreopens).mpr (hs.2 heq).2
    · exact hok
  idle hp hd := hwf.idle hp ((dormant_addCall hreopens).mp hd)
  single k k' d d' hd hd' hdr hdr' := by
    have hnot : ∀ {j : Nat} {e : Call}, s.calls[j]? = some e → e.draining = true →
        c.draining = true → False := by
      intro j e he hed hcd
      rw [hfree hcd e (mem_of_getElem? he)] at hed
      cases hed
    rcases getElem?_append_singleton_cases hd with hold | ⟨rfl, rfl⟩
    · rcases getElem?_append_singleton_cases hd' with hold' | ⟨rfl, rfl⟩
      · exact hwf.single k k' d d' hold hold' hdr hdr'
      · exact (hnot hold hdr hdr').elim
    · rcases getElem?_append_singleton_cases hd' with hold' | ⟨rfl, -⟩
      · exact (hnot hold' hdr' hdr).elim
      · rfl

variable {k : Nat}

theorem Wf.call_moves (hwf : s.Wf) (hc : s.calls[k]? = some c) (h : s.callStep k c = some s') :
    s' = s.abort ∨ ∃ c', CallMoves s s' k c c' := by
  cases c with
  | beginOpening pc => exact hwf.beginOpening_moves hc h
  | completeOpen pc => exact hwf.completeOpen_moves hc h
  | beginClose pc => exact .inr (hwf.beginClose_moves hc h)
  | sealAndDrain pc => exact hwf.sealAndDrain_moves hc h

theorem Wf.dropGuard_moves (hwf : s.Wf) {entry : ExportEntry} (he : s.entries[i]? = some e)
    (hpc : e.pc = .live entry) :
    EntryMoves s (s.setEntry i e (.dropping entry)) i e { e with pc := .dropping entry } := by
  have hok := hwf.entry i e he
  obtain ⟨udf, stripe, pc⟩ := e
  cases hpc
  exact entryMoves_pc hwf.gate (fun _ hr => hr) ⟨nofun, (by rintro r ⟨⟩), hok.held,
    (by rintro r ⟨⟩), hok.epoch, (by simp)⟩

theorem Wf.operate_moves (hwf : s.Wf) (hc : s.calls[k]? = some (.completeOpen .operation))
    (ok : Bool) :
    CallMoves s (s.setCall k (.completeOpen (if ok then .publish else .unlock .failed))) k
      (.completeOpen .operation) (.completeOpen (if ok then .publish else .unlock .failed)) := by
  have hheld := (hwf.call k _ hc).lock rfl
  cases ok with
  | true | false =>
    exact hwf.callMoves_pc hc rfl nofun (callOk_of_plain (fun _ => hheld) rfl trivial
      nofun nofun nofun rfl)

theorem Wf.drainFails_moves (hwf : s.Wf) (hc : s.calls[k]? = some c)
    (hreopens : c.reopens = false) :
    CallMoves s (s.setCall k (.sealAndDrain .failed)) k c (.sealAndDrain .failed) :=
  hwf.callMoves_pc hc hreopens.symm nofun (callOk_of_plain nofun rfl trivial nofun nofun nofun rfl)

/-- What a step does: an entry moves, a call moves, one is added, or the process stops. -/
theorem Wf.step_cases (hwf : s.Wf) (h : s.step action = some s') :
    (∃ i e e', (action = .entry i ∨ action = .dropGuard i) ∧ s.entries[i]? = some e ∧
        EntryMoves s s' i e e') ∨
      (∃ k c c', s.calls[k]? = some c ∧ CallMoves s s' k c c') ∨
      (∃ udf stripe, action = .enter udf stripe ∧
        s' = { s with entries := s.entries ++ [⟨udf, stripe, .observe⟩] }) ∨
      (∃ c, s' = s.addCall c ∧ (c = .beginOpening .lock ∨ c = .completeOpen .lock ∨
        c = .beginClose .observe ∨ c = .sealAndDrain .phase ∧ action = .sealAndDrain)) ∨
      s' = s.abort := by
  unfold step at h
  split at h
  next => cases h
  next =>
    cases action with
    | enter udf stripe => exact .inr (.inr (.inl ⟨udf, stripe, rfl, (some.inj h).symm⟩))
    | entry i =>
      obtain ⟨e, he, hstep⟩ := bind_eq_some_iff.mp h
      rcases hwf.entry_moves he hstep with rfl | ⟨e', hmoves⟩
      · exact .inr (.inr (.inr (.inr rfl)))
      · exact .inl ⟨i, e, e', .inl rfl, he, hmoves⟩
    | dropGuard i =>
      obtain ⟨e, he, hstep⟩ := bind_eq_some_iff.mp h
      split at hstep
      next entry hpc =>
        cases hstep
        exact .inl ⟨i, e, _, .inr rfl, he, hwf.dropGuard_moves he hpc⟩
      next => cases hstep
    | beginOpening => exact .inr (.inr (.inr (.inl ⟨_, (some.inj h).symm, .inl rfl⟩)))
    | completeOpen =>
      exact .inr (.inr (.inr (.inl ⟨_, (some.inj h).symm, .inr (.inl rfl)⟩)))
    | beginClose =>
      exact .inr (.inr (.inr (.inl ⟨_, (some.inj h).symm, .inr (.inr (.inl rfl))⟩)))
    | sealAndDrain =>
      exact .inr (.inr (.inr (.inl ⟨_, (some.inj h).symm, .inr (.inr (.inr ⟨rfl, rfl⟩))⟩)))
    | call k =>
      obtain ⟨c, hc, hstep⟩ := bind_eq_some_iff.mp h
      rcases hwf.call_moves hc hstep with rfl | ⟨c', hmoves⟩
      · exact .inr (.inr (.inr (.inr rfl)))
      · exact .inr (.inl ⟨k, c, c', hc, hmoves⟩)
    | operate k ok =>
      simp only [] at h
      split at h
      next hc =>
        cases h
        exact .inr (.inl ⟨k, _, _, hc, hwf.operate_moves hc ok⟩)
      next => cases h
    | spurious k =>
      obtain ⟨c, hc, hstep⟩ := bind_eq_some_iff.mp h
      split at hstep
      next locked observed =>
        cases hstep
        exact .inr (.inl ⟨k, _, _, hc,
          hwf.callMoves_closeObserved hc (hwf.call k _ hc).lock s.phase⟩)
      next => cases hstep
    | drainFails k =>
      simp only [] at h
      split at h
      next hor =>
        cases h
        rcases hor with hc | hc
        · exact .inr (.inl ⟨k, _, _, hc, hwf.drainFails_moves hc rfl⟩)
        · exact .inr (.inl ⟨k, _, _, hc, hwf.drainFails_moves hc rfl⟩)
      next => cases h

/-- **The invariant is kept by every step that is ready.** -/
theorem Wf.step (hwf : s.Wf) (hready : s.Ready action) (h : s.step action = some s') : s'.Wf := by
  rcases hwf.step_cases h with ⟨i, e, e', -, he, hmoves⟩ | ⟨k, c, c', hc, hmoves⟩ |
    ⟨udf, stripe, -, rfl⟩ | ⟨c, rfl, hcase⟩ | rfl
  · exact hwf.of_entry he hmoves
  · exact hwf.of_call hc hmoves
  · exact hwf.of_enter udf stripe
  · rcases hcase with rfl | rfl | rfl | ⟨rfl, rfl⟩
    · exact hwf.of_addCall rfl (callOk_of_plain nofun rfl trivial nofun nofun nofun rfl) nofun
    · exact hwf.of_addCall rfl (callOk_of_plain nofun rfl trivial nofun nofun nofun rfl) nofun
    · exact hwf.of_addCall rfl (callOk_of_plain nofun rfl trivial nofun nofun nofun rfl) nofun
    · exact hwf.of_addCall rfl (callOk_of_plain nofun rfl trivial nofun
        nofun (fun _ => hready.1) rfl) (fun _ => hready.2)
  · exact hwf.abort

variable {as : List (Action N)}

theorem wf_of_run (hready : Meets step Ready (new : ExportIngress w N) as)
    (hrun : run step (new : ExportIngress w N) as = some s) : s.Wf :=
  run_invariant_of_meets (fun _ _ _ hwf hok hstep => hwf.step hok hstep) as _ _ new_wf hready hrun

-- ---- What follows what in an entry.

/-- Nothing has been decided yet, or nothing is left. -/
def Undecided : EntryPc → Bool
  | .guardEpoch _ _ _ => false
  | .returning _ _ => false
  | .live _ => false
  | .dropping _ => false
  | .udfLeave _ _ => false
  | .release _ _ => false
  | _ => true

/-- Where an access takes an entry, the phase being `phase`: a decision is made in
one place, and handed on from there to the end of the guard. -/
inductive Follows (phase : Phase) : EntryPc → EntryPc → Prop
  | undecided {pc pc' : EntryPc} (h : Undecided pc' = true) : Follows phase pc pc'
  | decided (locked : Bool) (permit : Nat) :
      Follows phase (.confirm locked permit)
        (.guardEpoch locked permit (decide (phase = .opened)))
  | guarded (locked : Bool) (permit : Nat) (accepted : Bool) (epoch : Nat) :
      Follows phase (.guardEpoch locked permit accepted)
        (.returning locked
          (if accepted then .admitted ⟨epoch, some permit⟩ else .rejected ⟨epoch, some permit⟩))
  | refused (locked : Bool) (epoch : Nat) :
      Follows phase (.refuse locked) (.returning locked (.rejected ⟨epoch, none⟩))
  | returned (locked : Bool) (entry : ExportEntry) :
      Follows phase (.returning locked entry) (.live entry)
  | leaves (entry : ExportEntry) (permit : Nat) (h : entry.guard.permit = some permit) :
      Follows phase (.dropping entry) (.udfLeave entry permit)
  | releases (entry : ExportEntry) (permit : Nat) (h : entry.guard.permit = some permit) :
      Follows phase (.dropping entry) (.release entry permit)
  | left (entry : ExportEntry) (permit : Nat) :
      Follows phase (.udfLeave entry permit) (.release entry permit)
  | releasing (entry : ExportEntry) (permit : Nat) :
      Follows phase (.release entry permit) (.release entry permit)

theorem follows_of_udfLeaveStep {next : EntryPc} (hnext : Follows s.phase e.pc next) :
    s.udfLeaveStep i e next = s.abort ∨
      ∃ pc, (s.udfLeaveStep i e next).entries = s.entries.set i { e with pc := pc } ∧
        Follows s.phase e.pc pc := by
  unfold udfLeaveStep
  split
  next => exact .inl rfl
  next => exact .inr ⟨next, rfl, hnext⟩

theorem follows_of_entryStep (h : s.entryStep i e = some s') : s' = s.abort ∨
      ∃ pc, s'.entries = s.entries.set i { e with pc := pc } ∧ Follows s.phase e.pc pc := by
  obtain ⟨udf, stripe, pc⟩ := e
  cases pc with
  | observe =>
    cases h
    refine .inr ⟨_, rfl, .undecided ?_⟩
    split
    · rfl
    · rfl
  | lock =>
    simp only [entryStep] at h
    split at h
    next =>
      cases h
      exact .inr ⟨_, rfl, .undecided rfl⟩
    next => cases h
  | check locked =>
    simp only [entryStep] at h
    split at h
    next =>
      cases h
      exact .inr ⟨_, rfl, .undecided rfl⟩
    next =>
      obtain ⟨exports, -, rfl⟩ := map_eq_some_iff.mp h
      exact .inr ⟨_, rfl, .undecided rfl⟩
  | acquire locked permit =>
    obtain ⟨exports, -, rfl⟩ := map_eq_some_iff.mp h
    refine .inr ⟨_, rfl, .undecided ?_⟩
    split
    · split
      · rfl
      · rfl
    · rfl
    · rfl
  | udfEnter locked permit =>
    simp only [entryStep] at h
    split at h
    next =>
      cases h
      exact .inr ⟨_, rfl, .undecided rfl⟩
    next =>
      cases h
      exact .inl rfl
  | confirm locked permit =>
    simp only [entryStep] at h
    split at h
    next =>
      cases h
      refine .inr ⟨_, rfl, .undecided ?_⟩
      split
      · rfl
      · rfl
    next =>
      cases h
      exact .inr ⟨_, rfl, .decided locked permit⟩
  | udfUndo locked permit =>
    cases h
    exact follows_of_udfLeaveStep (.undecided rfl)
  | dropPermit locked permit =>
    obtain ⟨exports, -, rfl⟩ := map_eq_some_iff.mp h
    refine .inr ⟨_, rfl, .undecided ?_⟩
    split
    · rfl
    · rfl
  | guardEpoch locked permit accepted =>
    cases h
    exact .inr ⟨_, rfl, .guarded locked permit accepted s.epoch⟩
  | refuse locked =>
    cases h
    exact .inr ⟨_, rfl, .refused locked s.epoch⟩
  | returning locked entry =>
    cases h
    refine .inr ⟨.live entry, ?_, .returned locked entry⟩
    cases locked with
    | true => rfl
    | false => rfl
  | live entry => cases h
  | dropping entry =>
    cases h
    refine .inr ⟨_, rfl, ?_⟩
    split
    next => exact .undecided rfl
    next permit hpermit =>
      split
      next =>
        split
        next => exact .leaves entry permit hpermit
        next => exact .releases entry permit hpermit
      next => exact .undecided rfl
  | udfLeave entry permit =>
    cases h
    exact follows_of_udfLeaveStep (.left entry permit)
  | release entry permit =>
    obtain ⟨exports, -, rfl⟩ := map_eq_some_iff.mp h
    refine .inr ⟨_, rfl, ?_⟩
    split
    · exact .undecided rfl
    · exact .releasing entry permit
  | gone => cases h
  | crossed => cases h

-- ---- Admission.

/-- The entry was accepted: it is about to return `Admitted`, or has. -/
def Accepted : EntryPc → Bool
  | .guardEpoch _ _ accepted => accepted
  | .returning _ (.admitted _) => true
  | .live (.admitted _) => true
  | .dropping (.admitted _) => true
  | .udfLeave (.admitted _) _ => true
  | .release (.admitted _) _ => true
  | _ => false

/-- Entry `i` was accepted. -/
def AcceptedAt (s : ExportIngress w N) (i : Nat) : Prop :=
  ∃ e, s.entries[i]? = some e ∧ Accepted e.pc = true

theorem accepted_of_set {pc : EntryPc} (he : s.entries[i]? = some e)
    (hentries : s'.entries = s.entries.set i { e with pc := pc }) :
    s'.AcceptedAt i ↔ Accepted pc = true := by
  have hnew : s'.entries[i]? = some { e with pc := pc } := by
    rw [hentries, getElem?_set_self (List.getElem_of_getElem? he).1]
  constructor
  · rintro ⟨f, hf, hacc⟩
    cases hnew.symm.trans hf
    exact hacc
  · exact fun hacc => ⟨_, hnew, hacc⟩

/-- **An entry is accepted in one place**: where it loads the phase with its permit taken. -/
theorem accepted_of_entryStep (he : s.entries[i]? = some e) (h : s.entryStep i e = some s')
    (hacc : s'.AcceptedAt i) :
    Accepted e.pc = true ∨ s.phase = .opened ∧ ∃ locked permit, e.pc = .confirm locked permit := by
  rcases follows_of_entryStep h with rfl | ⟨pc, hentries, hfollows⟩
  · obtain ⟨f, hf, hfa⟩ := hacc
    cases he.symm.trans hf
    exact .inl hfa
  · have hnew := (accepted_of_set he hentries).mp hacc
    generalize e.pc = old at hfollows
    cases hfollows with
    | undecided hpc =>
      cases pc with
      | guardEpoch | returning | live | dropping | udfLeave | release => cases hpc
      | _ => cases hnew
    | decided locked permit =>
      exact .inr ⟨of_decide_eq_true hnew, locked, permit, rfl⟩
    | guarded locked permit accepted =>
      cases accepted with
      | true => exact .inl rfl
      | false => cases hnew
    | refused => cases hnew
    | returned locked entry | leaves entry | releases entry | left entry | releasing entry =>
      cases entry with
      | admitted => exact .inl rfl
      | rejected => cases hnew

/-- Only an access of entry `i` accepts it, with OPEN seen under a permit. -/
theorem Wf.accepted_step (hwf : s.Wf) (h : s.step action = some s') (hnot : ¬s.AcceptedAt i)
    (hacc : s'.AcceptedAt i) : action = .entry i ∧ s.phase = .opened ∧
      ∃ e locked permit, s.entries[i]? = some e ∧ e.pc = .confirm locked permit := by
  have hsame : s'.entries[i]? = s.entries[i]? → False := by
    intro heq
    obtain ⟨e, he, hea⟩ := hacc
    exact hnot ⟨e, heq.symm.trans he, hea⟩
  rcases hwf.step_cases h with ⟨j, e, e', haction, he, hmoves⟩ | ⟨k, c, c', -, hmoves⟩ |
    ⟨udf, stripe, -, rfl⟩ | ⟨c, rfl, -⟩ | rfl
  · by_cases hji : j = i
    · subst hji
      have hdone := not_stopped_of_step h
      rcases haction with rfl | rfl
      · have hentry : s.entryStep j e = some s' := by
          simpa [ExportIngress.step, hdone, he] using h
        rcases accepted_of_entryStep he hentry hacc with hold | ⟨hopen, locked, permit, hpc⟩
        · exact absurd ⟨e, he, hold⟩ hnot
        · exact ⟨rfl, hopen, e, locked, permit, he, hpc⟩
      · have hdrop : ∃ entry, e.pc = .live entry ∧ s' = s.setEntry j e (.dropping entry) := by
          simp only [ExportIngress.step, hdone, Bool.false_eq_true, if_false, he, bind_some] at h
          split at h
          next entry hpc => exact ⟨entry, hpc, (some.inj h).symm⟩
          next => cases h
        obtain ⟨entry, hpc, rfl⟩ := hdrop
        have hnew := (accepted_of_set he rfl).mp hacc
        refine absurd ⟨e, he, ?_⟩ hnot
        rw [hpc]
        cases entry with
        | admitted guard => rfl
        | rejected guard => cases hnew
    · refine (hsame ?_).elim
      rw [hmoves.entries, getElem?_set_ne hji]
  · exact (hsame (by rw [hmoves.entries])).elim
  · obtain ⟨e, he, hea⟩ := hacc
    rcases getElem?_append_singleton_cases he with hold | ⟨-, rfl⟩
    · exact absurd ⟨e, hold, hea⟩ hnot
    · cases hea
  · exact (hsame rfl).elim
  · exact (hsame rfl).elim

/-- **An admitted entry has seen OPEN while it held a permit.** -/
theorem admitted_open (hready : Meets step Ready (new : ExportIngress w N) as)
    (hrun : run step (new : ExportIngress w N) as = some s) (hacc : s.AcceptedAt i) :
    ∃ as₁ as₂ t e locked permit, as = as₁ ++ .entry i :: as₂ ∧
      run step (new : ExportIngress w N) as₁ = some t ∧ t.phase = .opened ∧
      t.entries[i]? = some e ∧ e.pc = .confirm locked permit ∧
      t.exports.users[permit]? = some (.holding e.stripe) ∧
      0 < active (t.exports.gate.counters e.stripe) := by
  have hnew : ¬(new : ExportIngress w N).AcceptedAt i := by
    rintro ⟨e, he, -⟩
    cases he
  obtain ⟨as₁, a, as₂, t, t', rfl, ht, hstep, hnot, hyes⟩ :=
    exists_step_of_run (P := fun s => s.AcceptedAt i) hrun hnew hacc
  have hwf := wf_of_run hready.of_append ht
  obtain ⟨rfl, hopen, e, locked, permit, he, hpc⟩ := hwf.accepted_step hstep hnot hyes
  have hx := (hwf.entry i e he).held permit (by rw [hpc]; rfl)
  exact ⟨as₁, as₂, t, e, locked, permit, rfl, ht, hopen, he, hpc, hx,
    hwf.gate.active_pos hx (by simp [GateUser.holds])⟩

-- ---- The drain.

theorem Wf.allIdle_of_sealed (hwf : s.Wf) {drained : Nat} (hc : s.calls[k]? = some c)
    (hsealed : c.sealedEpoch = some drained) (hepoch : s.epoch = drained) :
    s.phase = .closed ∧ s.exports.gate.AllIdle := by
  obtain ⟨hclosed, hdormant⟩ := ((hwf.call k c hc).sealedIn drained hsealed).2 hepoch.symm
  exact ⟨hclosed, hwf.idle hclosed hdormant⟩

theorem Wf.guard_after_sealed (hwf : s.Wf) {drained : Nat} {guard : ExportCallGuard}
    (hc : s.calls[k]? = some c) (hsealed : c.sealedEpoch = some drained)
    (he : s.entries[i]? = some e) (hguard : e.pc.guard = some guard)
    (hcounted : guard.permit.isSome = true) : drained < guard.epoch := by
  have hok := hwf.entry i e he
  have hepoch := hok.epoch guard hguard hcounted
  have hle := ((hwf.call k c hc).sealedIn drained hsealed).1
  rw [hepoch]
  refine Nat.lt_of_le_of_ne hle fun heq => ?_
  have hidle := (hwf.allIdle_of_sealed hc hsealed heq.symm).2
  obtain ⟨r, hr⟩ := isSome_iff_exists.mp hcounted
  have hno := hwf.gate.not_holds hidle (hok.held r ((held_of_guard hguard).trans hr)) e.stripe
  simp [GateUser.holds] at hno

/-- **The export ingress drains.** In every interleaving of entries, guard drops,
openings, closes and drains in which `seal_and_drain` is called to finish a close
and by one caller at a time:

* an entry that was admitted had loaded OPEN while it held a counted permit;
* once `seal_and_drain` has succeeded in an epoch, every guard that holds a permit
  belongs to a later one, and until the next `begin_opening` no permit exists;
* no guard is dropped in another epoch than its own. -/
theorem ingress_drain (hready : Meets step Ready (new : ExportIngress w N) as)
    (hrun : run step (new : ExportIngress w N) as = some s) :
    (∀ i e guard, s.entries[i]? = some e → e.pc = .live (.admitted guard) →
      ∃ as₁ as₂ t f locked permit, as = as₁ ++ .entry i :: as₂ ∧
        run step (new : ExportIngress w N) as₁ = some t ∧ t.phase = .opened ∧
        t.entries[i]? = some f ∧ f.pc = .confirm locked permit ∧
        t.exports.users[permit]? = some (.holding f.stripe) ∧
        0 < active (t.exports.gate.counters f.stripe)) ∧
    (∀ (k : Nat) (c : Call) drained, s.calls[k]? = some c → c.sealedEpoch = some drained →
      (∀ (i : Nat) (e : EntryCall N) guard, s.entries[i]? = some e → e.pc.guard = some guard →
        guard.permit.isSome = true → drained < guard.epoch) ∧
      (s.epoch = drained → s.phase = .closed ∧ (∀ j, active (s.exports.gate.counters j) = 0) ∧
        ∀ (i : Nat) (e : EntryCall N) permit x, s.entries[i]? = some e →
          e.pc.user = some permit → s.exports.users[permit]? = some x →
          ∀ j, x.holds j = false)) ∧
    (∀ (i : Nat) (e : EntryCall N), s.entries[i]? = some e → e.pc ≠ .crossed) := by
  have hwf := wf_of_run hready hrun
  refine ⟨fun i e guard he hpc => ?_, fun k c drained hc hsealed => ⟨?_, fun hepoch => ?_⟩,
    fun i e he => (hwf.entry i e he).uncrossed⟩
  · exact admitted_open hready hrun ⟨e, he, by rw [hpc]; rfl⟩
  · exact fun i e guard he hguard hcounted => hwf.guard_after_sealed hc hsealed he hguard hcounted
  · obtain ⟨hclosed, hidle⟩ := hwf.allIdle_of_sealed hc hsealed hepoch
    exact ⟨hclosed, fun j => (hidle j).2, fun _ _ _ _ _ _ hx j => hwf.gate.not_holds hidle hx j⟩

-- ---- One epoch, and what goes wrong outside `Ready`.

/-- The stripe of a gate that has one. -/
def onlyStripe : Fin 1 := ⟨0, Nat.zero_lt_one⟩

/-- An epoch opens (calls `k` and `k + 1`) on a gate with one stripe. -/
def openingRun (k : Nat) : List (Action 1) :=
  List.flatten [[.beginOpening], .replicate 22 (.call k), [.completeOpen],
    .replicate 8 (.call (k + 1)), [.operate (k + 1) true], .replicate 2 (.call (k + 1))]

/-- Entry `i` comes in and is admitted. -/
def enteringRun (i : Nat) : List (Action 1) := .enter false onlyStripe :: .replicate 6 (.entry i)

/-- The ingress opens, an entry comes and goes, and the ingress is sealed again. -/
def epochRun : List (Action 1) :=
  List.flatten [openingRun 0, enteringRun 0, [.dropGuard 0], .replicate 6 (.entry 0),
    [.beginClose], .replicate 4 (.call 2), [.sealAndDrain], .replicate 19 (.call 3)]

theorem ingress_drain_epochRun :
    (∃ s : ExportIngress 30 1, run step new (openingRun 0 ++ enteringRun 0) = some s ∧
      s.entries[0]? = some ⟨false, onlyStripe, .live (.admitted ⟨1, some 0⟩)⟩ ∧
      ∃ as t, run step (new : ExportIngress 30 1) as = some t ∧ t.phase = .opened ∧
        0 < active (t.exports.gate.counters onlyStripe)) ∧
    ∃ s : ExportIngress 30 1, run step new epochRun = some s ∧
      s.calls[3]? = some (.sealAndDrain (.finished 1 1)) ∧ s.epoch = 1 ∧ s.phase = .closed ∧
      (∀ j, active (s.exports.gate.counters j) = 0) ∧
      ∀ (i : Nat) (e : EntryCall 1), s.entries[i]? = some e → e.pc ≠ .crossed := by
  have hentered : Meets step Ready (new : ExportIngress 30 1) (openingRun 0 ++ enteringRun 0) ∧
      (run step (new : ExportIngress 30 1) (openingRun 0 ++ enteringRun 0)).map
        (fun s => s.entries[0]?) =
        some (some ⟨false, onlyStripe, .live (.admitted ⟨1, some 0⟩)⟩) := by
    decide +kernel
  have hsealed : Meets step Ready (new : ExportIngress 30 1) epochRun ∧
      (run step (new : ExportIngress 30 1) epochRun).map (fun s => (s.calls[3]?, s.epoch)) =
        some (some (.sealAndDrain (.finished 1 1)), 1) := by
    decide +kernel
  obtain ⟨s, hs, he⟩ := map_eq_some_iff.mp hentered.2
  obtain ⟨t, ht, hval⟩ := map_eq_some_iff.mp hsealed.2
  simp only [Prod.mk.injEq] at hval
  obtain ⟨as₁, as₂, u, f, locked, permit, -, hu, hopen, -, -, -, hpos⟩ :=
    (ingress_drain hentered.1 hs).1 0 _ _ he rfl
  have hsafe := ingress_drain hsealed.1 ht
  have hdrain := (hsafe.2.1 3 _ 1 hval.1 rfl).2 hval.2
  have hstripe : f.stripe = onlyStripe := Subsingleton.elim _ _
  rw [hstripe] at hpos
  exact ⟨⟨s, hs, he, as₁, u, hu, hopen, hpos⟩, t, ht, hval.1, hval.2, hdrain.1, hdrain.2.1,
    hsafe.2.2⟩

/-- The epoch is sealed, and Excel calls once more. -/
def lateRun : List (Action 1) :=
  epochRun ++ .enter false onlyStripe :: .replicate 4 (.entry 1)

/-- Two calls of `seal_and_drain` overlap. The first has waited and is about to make
its exchange; the second seals the epoch, the next one opens, an entry is admitted
and a close begins. Then the first goes on. -/
def overlappingRun : List (Action 1) :=
  List.flatten [openingRun 0, [.beginClose], .replicate 4 (.call 2), [.sealAndDrain],
    .replicate 17 (.call 3), [.sealAndDrain], .replicate 19 (.call 4), openingRun 5,
    enteringRun 0, [.beginClose], .replicate 4 (.call 7), .replicate 2 (.call 3)]

/-- **A guard of the sealed epoch can be alive.** A rejected guard without a permit
is created after the seal, in a run that is ready throughout; and where two calls of
`seal_and_drain` overlap, even an admitted guard with a permit is alive when one of
them returns. -/
theorem guard_of_sealed_epoch :
    (∃ s : ExportIngress 30 1, run step new lateRun = some s ∧ Meets step Ready
        (new : ExportIngress 30 1) lateRun ∧
      s.calls[3]? = some (.sealAndDrain (.finished 1 1)) ∧ s.epoch = 1 ∧
      s.entries[1]? = some ⟨false, onlyStripe, .live (.rejected ⟨1, none⟩)⟩) ∧
    ∃ s : ExportIngress 30 1, run step new overlappingRun = some s ∧
      s.calls[3]? = some (.sealAndDrain (.finished 2 2)) ∧ s.epoch = 2 ∧
      s.entries[0]? = some ⟨false, onlyStripe, .live (.admitted ⟨2, some 0⟩)⟩ ∧
      active (s.exports.gate.counters onlyStripe) = 1 := by
  have hlate : Meets step Ready (new : ExportIngress 30 1) lateRun ∧
      (run step (new : ExportIngress 30 1) lateRun).map
        (fun s => (s.calls[3]?, s.epoch, s.entries[1]?)) =
        some (some (.sealAndDrain (.finished 1 1)), 1,
          some ⟨false, onlyStripe, .live (.rejected ⟨1, none⟩)⟩) := by
    decide +kernel
  have hoverlap : (run step (new : ExportIngress 30 1) overlappingRun).map
        (fun s => (s.calls[3]?, s.epoch, s.entries[0]?, active (s.exports.gate.counters onlyStripe))) =
        some (some (.sealAndDrain (.finished 2 2)), 2,
          some ⟨false, onlyStripe, .live (.admitted ⟨2, some 0⟩)⟩, 1) := by
    decide +kernel
  obtain ⟨s, hs, hval⟩ := map_eq_some_iff.mp hlate.2
  obtain ⟨t, ht, hval'⟩ := map_eq_some_iff.mp hoverlap
  simp only [Prod.mk.injEq] at hval hval'
  exact ⟨⟨s, hs, hlate.1, hval.1, hval.2.1, hval.2.2⟩, t, ht, hval'.1, hval'.2.1, hval'.2.2.1,
    hval'.2.2.2⟩

end ExportIngress

end Xlfn.Ingress
