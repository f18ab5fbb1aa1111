import Xlfn.Ingress.ExportDrain

/-!
# Xlfn — publishing the opening of the export ingress

`complete_open` takes the opening lock, waits until no permit is left and then
exchanges OPENING for OPEN. The lock is meant to keep new entries out in between,
but an entry takes it only when its *first* load of the phase returns OPENING. An
entry that loaded CLOSED before `begin_opening` takes no lock, can take its permit
after the wait, load OPENING, and be rejected while it is counted.

* `Overtakes`          — the step in which such an entry gets past the wait.
* `Quiet`              — what the wait has established, while nobody overtakes it.
-/

namespace Xlfn.Ingress

open Lib Kernel List Option

variable {w N : Nat}

/-- The entry was rejected with its permit taken; it is counted until it is gone. -/
def EntryPc.rejects : EntryPc → Bool
  | .guardEpoch _ _ accepted => !accepted
  | .returning _ (.rejected guard) => guard.permit.isSome
  | .live (.rejected guard) => guard.permit.isSome
  | .dropping (.rejected guard) => guard.permit.isSome
  | .udfLeave (.rejected _) _ => true
  | .release (.rejected _) _ => true
  | _ => false

/-- The wait for quiescence has found stripe `stripe` idle, in its current pass or
in the one that ended it. -/
def seesIdle (stripe : Fin N) : GateManager w → Bool
  | .waiting _ (.observe i true) => decide (stripe.val < i)
  | .ready _ => true
  | _ => false

namespace ExportIngress

variable {s s' : ExportIngress w N}

section

variable (s : ExportIngress w N)

/-- Entry `i` was rejected and its permit still counts. -/
def CountedRejection (i : Nat) (e : EntryCall N) : Prop :=
  s.entries[i]? = some e ∧ e.pc.rejects = true ∧
    ∃ r x, e.pc.user = some r ∧ s.exports.users[r]? = some x ∧ x.holds e.stripe = true

/-- A `complete_open` that has not yet published has found the stripe idle. -/
def observedIdle (stripe : Fin N) : Call → Bool
  | .completeOpen (.manage (some .waitIdle) _) => s.exports.manager.any (seesIdle stripe)
  | .completeOpen .phase => true
  | .completeOpen .operation => true
  | .completeOpen .publish => true
  | _ => false

/-- An entry without the opening lock loads OPENING under its permit, on a stripe
that a `complete_open` under way has already found idle. -/
def Overtakes : Action N → Bool
  | .entry i =>
    match s.entries[i]? with
    | some ⟨_, stripe, .confirm false _⟩ =>
      decide (s.phase = .opening) && s.calls.any (s.observedIdle stripe)
    | _ => false
  | _ => false

/-- While the ingress is opening, no stripe that the wait has found idle has a
rejected entry. -/
def Quiet : Prop :=
  s.phase = .opening → ∀ (i : Nat) (e : EntryCall N), s.CountedRejection i e →
    ∀ c ∈ s.calls, s.observedIdle e.stripe c = false

end

-- ---- Entries.

/-- A user that counts after an access counted before it, unless it was entering. -/
theorem holds_of_next {x x' : GateUser N} (hnext : x.Next x') {i : Fin N}
    (hholds : x'.holds i = true) : x.holds i = true ∨ ∃ stripe, x = .entering stripe := by
  cases hnext with
  | acquired stripe => exact .inr ⟨stripe, rfl⟩
  | retained => exact .inl hholds
  | locked => exact .inl hholds
  | _ => cases hholds

variable {c c' : Call} {e : EntryCall N} {k : Nat}

theorem locks_of_observedIdle {stripe : Fin N} (h : s.observedIdle stripe c = true) :
    c.locks = true := by
  cases c with
  | completeOpen pc =>
    cases pc with
    | lock => cases h
    | finished => cases h
    | _ => rfl
  | _ => cases h

theorem observedIdle_congr (hmanager : s'.exports.manager = s.exports.manager) (stripe : Fin N)
    (c : Call) : s'.observedIdle stripe c = s.observedIdle stripe c := by
  unfold observedIdle
  rw [hmanager]

variable {i : Nat}

theorem counted_of_held {r : Nat} (hok : s.EntryOk i e) (he : s.entries[i]? = some e)
    (hrejects : e.pc.rejects = true) (hheld : e.pc.held = some r) : s.CountedRejection i e :=
  ⟨he, hrejects, r, _, EntryPc.user_of_held hheld, hok.held r hheld, by simp [GateUser.holds]⟩

/-- **An entry is rejected under its permit in one place**: where it loads the phase.
Elsewhere it was rejected and counted before. -/
theorem counted_of_entryStep (hwf : s.Wf) {f : EntryCall N} (he : s.entries[i]? = some e)
    (h : s.entryStep i e = some s') (hf : s'.CountedRejection i f) : f.stripe = e.stripe ∧
      (s.CountedRejection i e ∨ ∃ locked permit, e.pc = .confirm locked permit) := by
  have hok := hwf.entry i e he
  obtain ⟨hf', hrejects, r, x, hr, hx, hholds⟩ := hf
  rcases follows_of_entryStep h with rfl | ⟨pc, hentries, hfollows⟩
  · cases he.symm.trans hf'
    exact ⟨rfl, .inl ⟨he, hrejects, r, x, hr, hx, hholds⟩⟩
  · rw [hentries, getElem?_set_self (List.getElem_of_getElem? he).1] at hf'
    cases hf'
    refine ⟨rfl, ?_⟩
    obtain ⟨udf, stripe, old⟩ := e
    cases hfollows with
    | undecided hpc =>
      cases pc with
      | guardEpoch | returning | live | dropping | udfLeave | release => cases hpc
      | _ => cases hrejects
    | decided locked permit => exact .inr ⟨locked, permit, rfl⟩
    | guarded locked permit accepted =>
      cases accepted with
      | true => cases hrejects
      | false => exact .inl (counted_of_held hok he rfl rfl)
    | refused => cases hrejects
    | returned locked entry =>
      cases entry with
      | admitted => cases hrejects
      | rejected guard =>
        obtain ⟨permit, hpermit⟩ := isSome_iff_exists.mp hrejects
        exact .inl (counted_of_held hok he hrejects hpermit)
    | leaves entry permit hpermit | releases entry permit hpermit =>
      cases entry with
      | admitted => cases hrejects
      | rejected guard =>
        exact .inl (counted_of_held hok he (isSome_iff_exists.mpr ⟨_, hpermit⟩) hpermit)
    | left entry permit =>
      cases entry with
      | admitted => cases hrejects
      | rejected guard => exact .inl (counted_of_held hok he rfl rfl)
    | releasing entry permit =>
      cases some.inj hr
      obtain ⟨y, hy, hleaving⟩ := hok.leaving r rfl
      obtain ⟨exports, hstep, rfl⟩ := map_eq_some_iff.mp h
      refine .inl ⟨he, hrejects, r, y, rfl, hy, ?_⟩
      obtain ⟨-, ⟨z, z', hz, hnext, hset⟩ | ⟨hsame, -⟩⟩ := GateSystem.user_step hstep
      · cases hy.symm.trans hz
        have hx' : exports.users[r]? = some x := hx
        rw [hset, getElem?_set_self (List.getElem_of_getElem? hy).1] at hx'
        cases hx'
        rcases holds_of_next hnext hholds with hold | ⟨stripe', rfl⟩
        · exact hold
        · exact hleaving.elim
      · have hx' : exports.users[r]? = some x := hx
        rw [hsame, hy] at hx'
        cases hx'
        exact hholds

/-- An entry that moves brings no new rejection to a stripe found idle. -/
theorem Quiet.of_entry (hwf : s.Wf) (hquiet : s.Quiet) {e' : EntryCall N}
    (he : s.entries[i]? = some e) (hmoves : EntryMoves s s' i e e')
    (hnew : ∀ f, s'.CountedRejection i f → s.phase = .opening →
      (∃ g, s.CountedRejection i g ∧ f.stripe = g.stripe) ∨
        ∀ c ∈ s.calls, s.observedIdle f.stripe c = false) : s'.Quiet := by
  intro hp j f hf c hc
  rw [hmoves.calls] at hc
  rw [hmoves.phase] at hp
  rw [observedIdle_congr hmoves.manager]
  obtain ⟨hfj, hrejects, r, x, hr, hx, hholds⟩ := hf
  have hfj' := hfj
  rw [hmoves.entries] at hfj'
  rcases getElem?_set_cases he hfj' with ⟨rfl, rfl⟩ | ⟨hne, hold⟩
  · rcases hnew _ ⟨hfj, hrejects, r, x, hr, hx, hholds⟩ hp with ⟨g, hg, hstripe⟩ | hidle
    · rw [hstripe]
      exact hquiet hp j g hg c hc
    · exact hidle c hc
  · refine hquiet hp j f ⟨hold, hrejects, r, x, hr, ?_, hholds⟩ c hc
    rw [← hmoves.others r (fun hown => hne (hwf.apart j i f e r hold he hr hown))
      ((hwf.entry j f hold).user_lt hr)]
    exact hx

/-- An access of an entry keeps the opening quiet, unless it overtakes the wait. -/
theorem Quiet.of_entryStep (hwf : s.Wf) (hquiet : s.Quiet) (he : s.entries[i]? = some e)
    (hstill : s.Overtakes (.entry i) = false) (h : s.entryStep i e = some s') : s'.Quiet := by
  rcases hwf.entry_moves he h with rfl | ⟨e', hmoves⟩
  · exact hquiet
  refine hquiet.of_entry hwf he hmoves fun f hf hp => ?_
  obtain ⟨hstripe, hold | ⟨locked, permit, hpc⟩⟩ := counted_of_entryStep hwf he h hf
  · exact .inl ⟨e, hold, hstripe⟩
  · right
    rw [hstripe]
    intro c hc
    cases hobs : s.observedIdle e.stripe c with
    | false => rfl
    | true =>
      obtain ⟨k, hk⟩ := mem_iff_getElem?.mp hc
      cases locked with
      | true =>
        have hmine := (hwf.entry i e he).lock (by rw [hpc]; rfl)
        rw [(hwf.call k c hk).lock (locks_of_observedIdle hobs)] at hmine
        cases hmine
      | false =>
        obtain ⟨udf, stripe, pc⟩ := e
        cases hpc
        have hover : s.Overtakes (.entry i) = true := by
          have hany : s.calls.any (s.observedIdle stripe) = true :=
            any_eq_true.mpr ⟨c, hc, hobs⟩
          simp [Overtakes, he, hp, hany]
        rw [hover] at hstill
        cases hstill

-- ---- Calls.

theorem counted_of_callMoves {f : EntryCall N} (hmoves : CallMoves s s' k c c')
    (hf : s'.CountedRejection i f) : s.CountedRejection i f := by
  obtain ⟨hfi, hrejects, r, x, hr, hx, hholds⟩ := hf
  rw [hmoves.entries] at hfi
  rw [hmoves.users] at hx
  exact ⟨hfi, hrejects, r, x, hr, hx, hholds⟩

/-- A call that moves keeps the opening quiet, if what it newly knows to be idle is. -/
theorem Quiet.of_call (hquiet : s.Quiet) (hc : s.calls[k]? = some c)
    (hmoves : CallMoves s s' k c c') (hphase : s'.phase = .opening → s.phase = .opening)
    (hnew : ∀ stripe, s'.observedIdle stripe c' = true →
      s.observedIdle stripe c = true ∨ active (s.exports.gate.counters stripe) = 0)
    (hgate : s.exports.Inv) : s'.Quiet := by
  intro hp i f hf d hd
  have hold := counted_of_callMoves hmoves hf
  have hquiet' := hquiet (hphase hp) i f hold
  obtain ⟨j, hj⟩ := mem_iff_getElem?.mp hd
  rw [hmoves.calls] at hj
  cases hobs : s'.observedIdle f.stripe d with
  | false => rfl
  | true =>
    rcases getElem?_set_cases hc hj with ⟨rfl, rfl⟩ | ⟨hne, hdold⟩
    · rcases hnew f.stripe hobs with hbefore | hzero
      · rw [hquiet' c (mem_of_getElem? hc)] at hbefore
        cases hbefore
      · obtain ⟨-, -, r, x, -, hx, hholds⟩ := hold
        have hpos := hgate.active_pos hx hholds
        omega
    · have hbefore : s.observedIdle f.stripe d = true := by
        cases hchain : d.chain.isSome with
        | true =>
          rw [← observedIdle_congr (hmoves.claim j d hne hdold hchain).2]
          exact hobs
        | false =>
          cases d with
          | completeOpen pc =>
            cases pc with
            | manage last rest => cases hchain
            | _ => exact hobs
          | _ => cases hobs
      rw [hquiet' d (mem_of_getElem? hdold)] at hbefore
      cases hbefore

/-- **One access of the wait**: a stripe it newly finds idle has no permit. -/
theorem seesIdle_of_manage {g g' : GateSystem w N} {m m' : GateManager w} {stripe : Fin N}
    (hm : g.manager = some m) (hat : ControlOp.At m .waitIdle)
    (h : g.step .striped .manage = some g') (hm' : g'.manager = some m')
    (hsees : seesIdle stripe m' = true) :
    seesIdle stripe m = true ∨ active (g.gate.counters stripe) = 0 := by
  obtain ⟨m₀, hm₀, hmanage⟩ := GateSystem.manage_of_step h
  cases hm.symm.trans hm₀
  rcases hat with ⟨proc, rfl⟩ | rfl
  · obtain ⟨out, hout, rfl⟩ := map_eq_some_iff.mp hmanage
    cases proc with
    | lock =>
      simp only [WaitProc.step] at hout
      split at hout
      next =>
        cases hout
        cases hm'
        have hlt : decide (stripe.val < 0) = true := hsees
        exact absurd (of_decide_eq_true hlt) (Nat.not_lt_zero _)
      next => cases hout
    | observe i idle =>
      simp only [WaitProc.step] at hout
      split at hout
      next hi =>
        cases hout
        cases hm'
        cases hboth : idle && active (g.gate.counters ⟨i, hi⟩) == 0 with
        | false =>
          rw [hboth] at hsees
          cases hsees
        | true =>
          rw [hboth] at hsees
          obtain ⟨rfl, hzero⟩ := Bool.and_eq_true_iff.mp hboth
          rcases Nat.lt_succ_iff_lt_or_eq.mp (of_decide_eq_true hsees) with hlt | heq
          · exact .inl (decide_eq_true hlt)
          · have hstripe : stripe = ⟨i, hi⟩ := Fin.ext heq
            rw [hstripe]
            exact .inr (beq_iff_eq.mp hzero)
      next hi =>
        split at hout
        next hidle =>
          cases hout
          subst hidle
          exact .inl (decide_eq_true (by have := stripe.isLt; omega))
        next =>
          cases hout
          cases hm'
          cases hsees
    | parked =>
      cases hout
      cases hm'
      cases hsees
  · cases hmanage

/-- The steps of `complete_open`: what it knows to be idle afterwards it knew before,
or it has just seen. It never makes the phase OPENING. -/
theorem observed_of_completeOpenStep (hwf : s.Wf) {pc : CompleteOpen} (stripe : Fin N)
    (hc : s.calls[k]? = some (.completeOpen pc)) (h : s.completeOpenStep k pc = some s')
    (hc' : s'.calls[k]? = some c') : (s'.phase = .opening → s.phase = .opening) ∧
      (s'.observedIdle stripe c' = true → s.observedIdle stripe (.completeOpen pc) = true ∨
        active (s.exports.gate.counters stripe) = 0) := by
  have hlt := (List.getElem_of_getElem? hc).1
  have hset : ∀ {d : Call}, (s.calls.set k d)[k]? = some d := getElem?_set_self hlt
  cases pc with
  | lock =>
    simp only [completeOpenStep] at h
    split at h
    next =>
      cases h
      cases hset.symm.trans hc'
      exact ⟨id, (fun h => by cases h)⟩
    next => cases h
  | control =>
    obtain ⟨t, ht, rfl⟩ := map_eq_some_iff.mp h
    obtain ⟨exports, -, rfl⟩ := map_eq_some_iff.mp ht
    cases hset.symm.trans hc'
    exact ⟨id, (fun h => by cases h)⟩
  | manage last rest =>
    have hok := hwf.call k _ hc
    obtain ⟨-, m, hm, hat⟩ := hok.claim last rest rfl
    obtain ⟨out, hout, rfl⟩ := map_eq_some_iff.mp h
    have hseal : last ≠ some .trySealIfIdle := by
      rcases hok.locals with heq | heq
      all_goals cases heq; simp
    rcases administer_spec hwf.gate hm hat hseal hout with
      rfl | ⟨t, phase, rfl, rfl, rfl, -, hadm⟩ |
        ⟨t, last', rest', rfl, hgoing, -, ⟨m', hm', hat'⟩, hadm⟩
    · cases hc.symm.trans hc'
      exact ⟨id, .inl⟩
    · -- the wait is over, and was so before its claim was dropped
      refine ⟨fun hp => hadm.phase.symm.trans hp, fun _ => .inl ?_⟩
      rcases hok.locals with heq | heq
      · cases heq
      · cases heq
        show s.exports.manager.any (seesIdle stripe) = true
        rw [hm]
        rfl
    · refine ⟨fun hp => hadm.phase.symm.trans hp, fun hobs => ?_⟩
      have hd : c' = .completeOpen (.manage last' rest') := by
        have hsame : (t.calls.set k (.completeOpen (.manage last' rest')))[k]? = some c' := hc'
        rw [hadm.calls] at hsame
        exact (some.inj (hset.symm.trans hsame)).symm
      subst hd
      rcases hok.locals with heq | heq
      · cases heq
        cases hat
        rcases hgoing with ⟨rfl, rfl, hstep⟩ | ⟨-, op, rfl, hop, hstep⟩
        · cases hobs
        · cases hop
          obtain ⟨phase, hphase, hbegin⟩ := GateSystem.begin_of_step hstep
          cases hm.symm.trans hphase
          have hany : t.exports.manager.any (seesIdle stripe) = true := hobs
          rw [← some.inj hbegin] at hany
          cases hany
      · cases heq
        rcases hgoing with ⟨rfl, rfl, hstep⟩ | ⟨-, op, rfl, hop, hstep⟩
        · have hsees : seesIdle stripe m' = true := by
            have hany : t.exports.manager.any (seesIdle stripe) = true := hobs
            rw [hm'] at hany
            exact hany
          rcases seesIdle_of_manage hm hat hstep hm' hsees with hbefore | hzero
          · left
            show s.exports.manager.any (seesIdle stripe) = true
            rw [hm]
            exact hbefore
          · exact .inr hzero
        · cases hop
  | phase =>
    cases h
    exact ⟨id, fun _ => .inl rfl⟩
  | operation => cases h
  | publish =>
    refine ⟨fun hp => ?_, fun _ => .inl rfl⟩
    simp only [completeOpenStep] at h
    split at h
    next hopening => exact hopening
    next =>
      cases h
      exact hp
  | unlock outcome =>
    cases h
    cases hset.symm.trans hc'
    exact ⟨id, (fun h => by cases h)⟩
  | finished outcome => cases h

/-- The call is no `complete_open`. -/
def Call.other : Call → Bool
  | .completeOpen _ => false
  | _ => true

theorem observedIdle_other (hother : Call.other c = true) (stripe : Fin N) :
    s.observedIdle stripe c = false := by
  cases c with
  | completeOpen pc => cases hother
  | _ => rfl

theorem calls_of_administered {last : Option ControlOp} {rest : List ControlOp}
    {next : Option ControlOp → List ControlOp → Call} {done : Call} (hc : s.calls[k]? = some c)
    (hother : Call.other c = true) (hnext : ∀ last rest, Call.other (next last rest) = true)
    (hdone : Call.other done = true)
    (h : (s.administer last rest).map (s.administered k next done) = some s')
    (hc' : s'.calls[k]? = some c') : s'.phase = s.phase ∧ Call.other c' = true := by
  have hset : ∀ {d : Call}, (s.calls.set k d)[k]? = some d :=
    getElem?_set_self (List.getElem_of_getElem? hc).1
  obtain ⟨out, hout, rfl⟩ := map_eq_some_iff.mp h
  unfold administer at hout
  split at hout
  next => cases hout
  next =>
    split at hout
    next =>
      obtain ⟨exports, -, rfl⟩ := map_eq_some_iff.mp hout
      cases hset.symm.trans hc'
      exact ⟨rfl, hdone⟩
    next =>
      split at hout
      next =>
        cases hout
        cases hset.symm.trans hc'
        exact ⟨rfl, hnext _ _⟩
      next =>
        cases hout
        cases hc.symm.trans hc'
        exact ⟨rfl, hother⟩
  next =>
    obtain ⟨exports, -, rfl⟩ := map_eq_some_iff.mp hout
    cases hset.symm.trans hc'
    exact ⟨rfl, hnext _ _⟩

theorem calls_of_takeClaim {d : Call} (hlt : k < s.calls.length)
    (h : (s.takeClaim k).map (·.setCall k d) = some s') (hc' : s'.calls[k]? = some c') :
    s'.phase = s.phase ∧ c' = d := by
  obtain ⟨t, ht, rfl⟩ := map_eq_some_iff.mp h
  obtain ⟨exports, -, rfl⟩ := map_eq_some_iff.mp ht
  have hset : (s.calls.set k d)[k]? = some d := getElem?_set_self hlt
  exact ⟨rfl, (some.inj (hset.symm.trans hc')).symm⟩

/-- The other calls stay what they are, and only `begin_opening` makes the phase OPENING. -/
theorem other_of_callStep (hc : s.calls[k]? = some c) (hother : Call.other c = true)
    (h : s.callStep k c = some s') (hc' : s'.calls[k]? = some c') :
    (s'.phase = .opening → s.phase = .opening ∨ c = .beginOpening .publish) ∧
      Call.other c' = true := by
  have hlt := (List.getElem_of_getElem? hc).1
  have hset : ∀ {d : Call}, (s.calls.set k d)[k]? = some d := getElem?_set_self hlt
  have hsame : ∀ {d : Call}, s' = s.setCall k d → Call.other d = true →
      (s'.phase = .opening → s.phase = .opening ∨ c = .beginOpening .publish) ∧
        Call.other c' = true := by
    rintro d rfl hd
    cases hset.symm.trans hc'
    exact ⟨.inl, hd⟩
  have hlocked : ∀ {d : Call} {holder : Option Holder}, s' = (s.setLock holder).setCall k d →
      Call.other d = true →
      (s'.phase = .opening → s.phase = .opening ∨ c = .beginOpening .publish) ∧
        Call.other c' = true := by
    rintro d holder rfl hd
    cases hset.symm.trans hc'
    exact ⟨.inl, hd⟩
  have hstop : s' = s.abort →
      (s'.phase = .opening → s.phase = .opening ∨ c = .beginOpening .publish) ∧
        Call.other c' = true := by
    rintro rfl
    cases hc.symm.trans hc'
    exact ⟨.inl, hother⟩
  have hphase : ∀ {d : Call}, Call.other d = true → s'.phase = s.phase ∧ c' = d →
      (s'.phase = .opening → s.phase = .opening ∨ c = .beginOpening .publish) ∧
        Call.other c' = true := by
    rintro d hd ⟨hp, rfl⟩
    exact ⟨fun hopening => .inl (hp.symm.trans hopening), hd⟩
  have hchain : s'.phase = s.phase ∧ Call.other c' = true →
      (s'.phase = .opening → s.phase = .opening ∨ c = .beginOpening .publish) ∧
        Call.other c' = true :=
    fun hp => ⟨fun hopening => .inl (hp.1.symm.trans hopening), hp.2⟩
  cases c with
  | completeOpen pc => cases hother
  | beginOpening pc =>
    simp only [callStep] at h
    cases pc with
    | lock =>
      simp only [beginOpeningStep] at h
      split at h
      next => exact hlocked (some.inj h).symm rfl
      next => cases h
    | phase => exact hsame (some.inj h).symm rfl
    | count again i sum =>
      simp only [beginOpeningStep] at h
      split at h
      next =>
        split at h
        next => exact hsame (some.inj h).symm rfl
        next => exact hstop (some.inj h).symm
      next => exact hsame (some.inj h).symm rfl
    | epoch =>
      simp only [beginOpeningStep] at h
      split at h
      next =>
        cases h
        cases hset.symm.trans hc'
        exact ⟨.inl, rfl⟩
      next => exact hstop (some.inj h).symm
    | control => exact hphase rfl (calls_of_takeClaim hlt h hc')
    | manage last rest =>
      exact hchain (calls_of_administered hc rfl (fun _ _ => rfl) rfl h hc')
    | publish =>
      cases h
      cases hset.symm.trans hc'
      exact ⟨fun _ => .inr rfl, rfl⟩
    | unlock ok => exact hlocked (some.inj h).symm rfl
    | finished ok => cases h
  | beginClose pc =>
    simp only [callStep] at h
    cases pc with
    | observe | load locked => exact hsame (some.inj h).symm rfl
    | lock =>
      simp only [beginCloseStep] at h
      split at h
      next => exact hlocked (some.inj h).symm rfl
      next => cases h
    | exchange locked observed =>
      simp only [beginCloseStep] at h
      split at h
      next =>
        cases h
        cases hset.symm.trans hc'
        exact ⟨(fun h => by cases h), rfl⟩
      next => exact hsame (some.inj h).symm rfl
    | unlock locked =>
      cases locked with
      | true => exact hlocked (some.inj h).symm rfl
      | false => exact hsame (some.inj h).symm rfl
    | finished => cases h
  | sealAndDrain pc =>
    simp only [callStep] at h
    cases pc with
    | phase | certify drained => exact hsame (some.inj h).symm rfl
    | control | controlAgain => exact hphase rfl (calls_of_takeClaim hlt h hc')
    | manage last rest | manageAgain last rest =>
      exact hchain (calls_of_administered hc rfl (fun _ _ => rfl) rfl h hc')
    | exchange =>
      simp only [sealAndDrainStep] at h
      split at h
      next =>
        cases h
        cases hset.symm.trans hc'
        exact ⟨(fun h => by cases h), rfl⟩
      next => exact hsame (some.inj h).symm rfl
    | finished drained certificate | failed | panicked => cases h

theorem Quiet.of_callStep (hwf : s.Wf) (hquiet : s.Quiet) (hc : s.calls[k]? = some c)
    (h : s.callStep k c = some s') : s'.Quiet := by
  rcases hwf.call_moves hc h with rfl | ⟨c', hmoves⟩
  · exact hquiet
  have hc' : s'.calls[k]? = some c' := by
    rw [hmoves.calls]
    exact getElem?_set_self (List.getElem_of_getElem? hc).1
  cases hkind : Call.other c with
  | false =>
    cases c with
    | completeOpen pc =>
      have hobs := fun stripe => observed_of_completeOpenStep hwf stripe hc h hc'
      by_cases hN : Nonempty (Fin N)
      · obtain ⟨stripe⟩ := hN
        exact hquiet.of_call hc hmoves (hobs stripe).1 (fun stripe => (hobs stripe).2) hwf.gate
      · intro _ i e
        exact absurd ⟨e.stripe⟩ hN
    | _ => cases hkind
  | true =>
    obtain ⟨hphase, hother⟩ := other_of_callStep hc hkind h hc'
    have hquiet' : (s'.phase = .opening → s.phase = .opening) → s'.Quiet := fun hp =>
      hquiet.of_call hc hmoves hp
        (fun stripe hobs => by
          rw [observedIdle_other hother] at hobs
          cases hobs)
        hwf.gate
    by_cases hpublish : c = .beginOpening .publish
    · -- `begin_opening` has the opening lock, so no `complete_open` is past its wait
      subst hpublish
      intro _ i e _ d hd
      cases hobs : s'.observedIdle e.stripe d with
      | false => rfl
      | true =>
        obtain ⟨j, hj⟩ := mem_iff_getElem?.mp hd
        rw [hmoves.calls] at hj
        rcases getElem?_set_cases hc hj with ⟨rfl, rfl⟩ | ⟨hne, hold⟩
        · rw [observedIdle_other hother] at hobs
          cases hobs
        · have hmine := (hwf.call k _ hc).lock rfl
          rw [(hwf.call j d hold).lock (locks_of_observedIdle hobs)] at hmine
          cases hmine
          exact absurd rfl hne
    · exact hquiet' fun hp => (hphase hp).resolve_right hpublish

theorem Quiet.of_addCall (hquiet : s.Quiet) (hs : s' = s.addCall c)
    (hnone : ∀ stripe, s.observedIdle stripe c = false) : s'.Quiet := by
  subst hs
  intro hp i e hcounted d hd
  rcases mem_append.mp hd with hold | hnew
  · exact hquiet hp i e hcounted d hold
  · rw [mem_singleton.mp hnew]
    exact hnone e.stripe

/-- **What the wait has established stays true** while nobody overtakes it. -/
theorem Quiet.step (hwf : s.Wf) (hquiet : s.Quiet) {action : Action N}
    (hstill : s.Overtakes action = false) (h : s.step action = some s') : s'.Quiet := by
  have hdone := not_stopped_of_step h
  cases action with
  | entry i =>
    simp only [ExportIngress.step, hdone, Bool.false_eq_true, if_false] at h
    obtain ⟨e, he, hentry⟩ := bind_eq_some_iff.mp h
    exact hquiet.of_entryStep hwf he hstill hentry
  | call k =>
    simp only [ExportIngress.step, hdone, Bool.false_eq_true, if_false] at h
    obtain ⟨c, hc, hcall⟩ := bind_eq_some_iff.mp h
    exact hquiet.of_callStep hwf hc hcall
  | dropGuard i =>
    simp only [ExportIngress.step, hdone, Bool.false_eq_true, if_false] at h
    obtain ⟨e, he, hdrop⟩ := bind_eq_some_iff.mp h
    split at hdrop
    next entry hpc =>
      cases hdrop
      refine hquiet.of_entry hwf he (hwf.dropGuard_moves he hpc) fun f hf _ => .inl ?_
      obtain ⟨hfi, hrejects, -⟩ := hf
      have hnew : (s.setEntry i e (.dropping entry)).entries[i]? =
          some { e with pc := .dropping entry } :=
        getElem?_set_self (List.getElem_of_getElem? he).1
      cases hnew.symm.trans hfi
      refine ⟨e, ?_, rfl⟩
      cases entry with
      | admitted guard => cases hrejects
      | rejected guard =>
        obtain ⟨permit, hpermit⟩ := isSome_iff_exists.mp hrejects
        exact counted_of_held (hwf.entry i e he) he (by rw [hpc]; exact hrejects)
          (by rw [hpc]; exact hpermit)
    next => cases hdrop
  | enter udf stripe =>
    simp only [ExportIngress.step, hdone, Bool.false_eq_true, if_false] at h
    cases h
    intro hp i e hf c hc
    obtain ⟨hfi, hrejects, hcounts⟩ := hf
    rcases getElem?_append_singleton_cases hfi with hold | ⟨-, rfl⟩
    · exact hquiet hp i e ⟨hold, hrejects, hcounts⟩ c hc
    · cases hrejects
  | operate k ok =>
    simp only [ExportIngress.step, hdone, Bool.false_eq_true, if_false] at h
    split at h
    next hc =>
      cases h
      exact hquiet.of_call hc (hwf.operate_moves hc ok) id (fun _ _ => .inl rfl) hwf.gate
    next => cases h
  | spurious k =>
    simp only [ExportIngress.step, hdone, Bool.false_eq_true, if_false] at h
    obtain ⟨c, hc, hstep⟩ := bind_eq_some_iff.mp h
    split at hstep
    next locked observed =>
      cases hstep
      exact hquiet.of_call hc (hwf.callMoves_closeObserved hc (hwf.call k _ hc).lock s.phase) id
        (by rintro _ ⟨⟩) hwf.gate
    next => cases hstep
  | drainFails k =>
    simp only [ExportIngress.step, hdone, Bool.false_eq_true, if_false] at h
    split at h
    next hor =>
      cases h
      rcases hor with hc | hc
      · exact hquiet.of_call hc (hwf.drainFails_moves hc rfl) id (by rintro _ ⟨⟩) hwf.gate
      · exact hquiet.of_call hc (hwf.drainFails_moves hc rfl) id (by rintro _ ⟨⟩) hwf.gate
    next => cases h
  | beginOpening | completeOpen | beginClose | sealAndDrain =>
    exact hquiet.of_addCall (by simpa [ExportIngress.step, hdone] using h.symm) (fun _ => rfl)

theorem quiet_of_run {as : List (Action N)}
    (hok : Meets step (fun s a => s.Ready a ∧ s.Overtakes a = false) (new : ExportIngress w N) as)
    (hrun : run step (new : ExportIngress w N) as = some s) : s.Wf ∧ s.Quiet := by
  refine run_invariant_of_meets (I := fun s => s.Wf ∧ s.Quiet) (fun s a s' hI hmeets hstep => ?_)
    as _ _ ⟨new_wf, ?_⟩ hok hrun
  · exact ⟨hI.1.step hmeets.1 hstep, hI.2.step hI.1 hmeets.2 hstep⟩
  · rintro ⟨⟩

/-- **Publishing the opening.** In every interleaving in which no entry gets past the
wait of a `complete_open` (and `seal_and_drain` is called as it is meant to be), no
entry that was rejected is still counted at the step that publishes OPEN. -/
theorem publication_quiet {as : List (Action N)}
    (hok : Meets step (fun s a => s.Ready a ∧ s.Overtakes a = false) (new : ExportIngress w N) as)
    (hrun : run step (new : ExportIngress w N) as = some s) (k : Nat) (s' : ExportIngress w N)
    (hc : s.calls[k]? = some (.completeOpen .publish)) (hstep : s.step (.call k) = some s')
    (hpublished : s'.calls[k]? = some (.completeOpen (.unlock .published))) (i : Nat)
    (e : EntryCall N) : ¬s.CountedRejection i e := by
  have hdone := not_stopped_of_step hstep
  have hp : s.phase = .opening := by
    simp only [step, hdone, Bool.false_eq_true, if_false, hc, bind_some, callStep,
      completeOpenStep] at hstep
    split at hstep
    next hopening => exact hopening
    next =>
      cases hstep
      have hlost : (s.calls.set k (.completeOpen (.unlock .lost)))[k]? =
          some (.completeOpen (.unlock .published)) := hpublished
      rw [getElem?_set_self (List.getElem_of_getElem? hc).1] at hlost
      cases hlost
  intro hcounted
  have hquiet := (quiet_of_run hok hrun).2 hp i e hcounted _ (mem_of_getElem? hc)
  cases hquiet

/-- An entry is rejected while the ingress opens and leaves before the publication. -/
def rejectedRun : List (Action 1) :=
  List.flatten [[.beginOpening], .replicate 22 (.call 0), [.enter false onlyStripe],
    .replicate 7 (.entry 0), [.dropGuard 0], .replicate 2 (.entry 0), [.completeOpen],
    .replicate 8 (.call 1), [.operate 1 true]]

theorem publication_quiet_rejectedRun :
    ∃ s s' : ExportIngress 30 1, run step new rejectedRun = some s ∧
      s.step (.call 1) = some s' ∧ s'.phase = .opened ∧
      ∀ (i : Nat) (e : EntryCall 1), ¬s.CountedRejection i e := by
  have hrun : Meets step (fun s a => s.Ready a ∧ s.Overtakes a = false)
        (new : ExportIngress 30 1) rejectedRun ∧
      (run step (new : ExportIngress 30 1) rejectedRun).bind (fun s =>
        (s.step (.call 1)).map fun s' => (s.calls[1]?, s'.calls[1]?, s'.phase)) =
        some (some (.completeOpen .publish), some (.completeOpen (.unlock .published)),
          .opened) := by
    decide +kernel
  obtain ⟨s, hs, hmap⟩ := bind_eq_some_iff.mp hrun.2
  obtain ⟨s', hs', hval⟩ := map_eq_some_iff.mp hmap
  simp only [Prod.mk.injEq] at hval
  exact ⟨s, s', hs, hs', hval.2.2, publication_quiet hrun.1 hs 1 s' hval.1 hs' hval.2.1⟩

/-- An entry loads CLOSED and is delayed. The ingress opens up to the exchange, with
no permit in sight; then the entry goes on, without the opening lock. -/
def overtakingRun : List (Action 1) :=
  List.flatten [[.enter false onlyStripe, .entry 0], [.beginOpening], .replicate 22 (.call 0),
    [.completeOpen], .replicate 8 (.call 1), .replicate 5 (.entry 0), [.operate 1 true]]

/-- **The publication can be overtaken**: OPEN is published while the guard of an
entry that was rejected on OPENING is alive and counted. -/
theorem publication_overtaken :
    ∃ (s s' : ExportIngress 30 1) (e : EntryCall 1), run step new overtakingRun = some s ∧
      s.calls[1]? = some (.completeOpen .publish) ∧ s.step (.call 1) = some s' ∧
      s'.calls[1]? = some (.completeOpen (.unlock .published)) ∧ s'.phase = .opened ∧
      s.CountedRejection 0 e ∧ e.pc = .live (.rejected ⟨1, some 0⟩) := by
  have hrun : (run step (new : ExportIngress 30 1) overtakingRun).bind (fun s =>
        (s.step (.call 1)).map fun s' => (s.calls[1]?, s'.calls[1]?, s'.phase)) =
        some (some (.completeOpen .publish), some (.completeOpen (.unlock .published)),
          .opened) := by
    decide +kernel
  have hlate : (run step (new : ExportIngress 30 1) overtakingRun).map
        (fun s => (s.entries[0]?, s.exports.users[0]?)) =
        some (some ⟨false, onlyStripe, .live (.rejected ⟨1, some 0⟩)⟩,
          some (.holding onlyStripe)) := by
    decide +kernel
  obtain ⟨s, hs, hmap⟩ := bind_eq_some_iff.mp hrun
  obtain ⟨s', hs', hval⟩ := map_eq_some_iff.mp hmap
  rw [hs] at hlate
  simp only [map_some, some.injEq, Prod.mk.injEq] at hval hlate
  obtain ⟨hc, hc', hp⟩ := hval
  exact ⟨s, s', _, hs, hc, hs', hc', hp,
    ⟨hlate.1, rfl, 0, _, rfl, hlate.2, by simp [GateUser.holds]⟩, rfl⟩

end ExportIngress

end Xlfn.Ingress
