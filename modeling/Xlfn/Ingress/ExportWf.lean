import Xlfn.Lib.Machine
import Xlfn.Lib.Table
import Xlfn.Kernel.GateClient
import Xlfn.Ingress.Export

/-!
# Xlfn — the invariant of the export ingress

An entry re-reads the phase after it has its permit, and that alone has to keep
it inside one epoch. What makes it work is that the epoch only moves while the
gate is drained, and that the gate only leaves that state inside `begin_opening`.

* `EntryOk` — one entry: its user of the gate is in the state its program counter
  says, and the guard it has is of the current epoch.
* `CallOk`  — one call: the locks it holds, the place of the claim's holder, and
  what it knows of the phase and of the gate.
* `Wf`      — all of them together. `idle` is the fact the epochs rest on.

The invariant needs that `seal_and_drain` is only called to finish a close, and
by one caller: `Ready` says so of one step.
-/

namespace Xlfn.Ingress

open Lib Kernel GateSystem List Option EntryPc

variable {w N : Nat}

-- ---- What a program counter holds.

variable {r : Nat}

namespace EntryPc

/-- The entry holds the opening lock here. -/
def locks : EntryPc → Bool
  | .check locked => locked
  | .acquire locked _ => locked
  | .udfEnter locked _ => locked
  | .confirm locked _ => locked
  | .udfUndo locked _ => locked
  | .dropPermit locked _ => locked
  | .guardEpoch locked _ _ => locked
  | .refuse locked => locked
  | .returning locked _ => locked
  | _ => false

/-- The user of the gate that `try_enter` has just begun. -/
def asked : EntryPc → Option Nat
  | .acquire _ permit => some permit
  | _ => none

/-- The permit the entry owns. -/
def held : EntryPc → Option Nat
  | .udfEnter _ permit => some permit
  | .confirm _ permit => some permit
  | .udfUndo _ permit => some permit
  | .guardEpoch _ permit _ => some permit
  | .returning _ entry => entry.guard.permit
  | .live entry => entry.guard.permit
  | .dropping entry => entry.guard.permit
  | .udfLeave _ permit => some permit
  | _ => none

/-- The permit whose release is under way. -/
def leaving : EntryPc → Option Nat
  | .dropPermit _ permit => some permit
  | .release _ permit => some permit
  | _ => none

/-- The gate's user of this entry. -/
def user (pc : EntryPc) : Option Nat := pc.asked.or (pc.held.or pc.leaving)

/-- The guard of this entry, before its drop has compared the epochs. -/
def guard : EntryPc → Option ExportCallGuard
  | .returning _ entry => some entry.guard
  | .live entry => some entry.guard
  | .dropping entry => some entry.guard
  | _ => none

theorem user_of_asked {pc : EntryPc} (h : pc.asked = some r) : pc.user = some r := by
  rw [user, h]
  rfl

theorem user_of_held {pc : EntryPc} (h : pc.held = some r) : pc.user = some r := by
  cases pc with
  | acquire => cases h
  | _ => simp only [user, h, asked, none_or, some_or]

theorem user_of_leaving {pc : EntryPc} (h : pc.leaving = some r) : pc.user = some r := by
  cases pc with
  | dropPermit => exact h
  | release => exact h
  | _ => cases h

end EntryPc

namespace Call

/-- The call holds the opening lock here. -/
def locks : Call → Bool
  | .beginOpening .lock => false
  | .beginOpening (.finished _) => false
  | .beginOpening _ => true
  | .completeOpen .lock => false
  | .completeOpen (.finished _) => false
  | .completeOpen _ => true
  | .beginClose (.load locked) => locked
  | .beginClose (.exchange locked _) => locked
  | .beginClose (.unlock locked) => locked
  | _ => false

/-- Inside the chain of control operations: the last one begun, and the rest. -/
def chain : Call → Option (Option ControlOp × List ControlOp)
  | .beginOpening (.manage last rest) => some (last, rest)
  | .completeOpen (.manage last rest) => some (last, rest)
  | .sealAndDrain (.manage last rest) => some (last, rest)
  | .sealAndDrain (.manageAgain last rest) => some (last, rest)
  | _ => none

/-- What a call has in its own variables: how far its chain has come, or a phase it
has seen and may exchange. -/
def Locals : Call → Prop
  | .beginOpening (.manage last rest) =>
    (last, rest) = (none, [.waitIfSealed, .reopen]) ∨
      (last, rest) = (some .waitIfSealed, [.reopen]) ∨ (last, rest) = (some .reopen, [])
  | .completeOpen (.manage last rest) =>
    (last, rest) = (none, [.waitIdle]) ∨ (last, rest) = (some .waitIdle, [])
  | .sealAndDrain (.manage last rest) =>
    (last, rest) = (none, [.waitIdle]) ∨ (last, rest) = (some .waitIdle, [])
  | .sealAndDrain (.manageAgain last rest) =>
    (last, rest) = (none, [.doSeal, .wait]) ∨ (last, rest) = (some .doSeal, [.wait]) ∨
      (last, rest) = (some .wait, [])
  | .beginClose (.exchange _ observed) => observed = .opened ∨ observed = .opening
  | _ => True

/-- `begin_opening` has seen CLOSED and has not yet stored OPENING. -/
def opens : Call → Bool
  | .beginOpening (.count _ _ _) => true
  | .beginOpening .epoch => true
  | .beginOpening .control => true
  | .beginOpening (.manage _ _) => true
  | .beginOpening .publish => true
  | _ => false

/-- `begin_opening` has begun a new epoch and has not yet stored OPENING. -/
def reopens : Call → Bool
  | .beginOpening .control => true
  | .beginOpening (.manage _ _) => true
  | .beginOpening .publish => true
  | _ => false

/-- The gate is known to be drained here. -/
def drained : Call → Bool
  | .beginOpening .control => true
  | .beginOpening (.manage _ rest) => !rest.isEmpty
  | .sealAndDrain .exchange => true
  | _ => false

/-- `seal_and_drain` is under way. -/
def draining : Call → Bool
  | .sealAndDrain .phase => true
  | .sealAndDrain .control => true
  | .sealAndDrain (.manage _ _) => true
  | .sealAndDrain .controlAgain => true
  | .sealAndDrain (.manageAgain _ _) => true
  | .sealAndDrain .exchange => true
  | _ => false

/-- The epoch in which `seal_and_drain` has succeeded. -/
def sealedEpoch : Call → Option Nat
  | .sealAndDrain (.certify drained) => some drained
  | .sealAndDrain (.finished drained _) => some drained
  | _ => none

theorem opens_of_reopens {c : Call} (h : c.reopens = true) : c.opens = true := by
  cases c with
  | beginOpening pc =>
    cases pc with
    | control => rfl
    | manage => rfl
    | publish => rfl
    | _ => cases h
  | _ => cases h

theorem locks_of_opens {c : Call} (h : c.opens = true) : c.locks = true := by
  cases c with
  | beginOpening pc =>
    cases pc with
    | lock => cases h
    | finished => cases h
    | _ => rfl
  | _ => cases h

end Call

/-- Where the holder of the claim is, `last` being the last operation it began. -/
def At (last : Option ControlOp) (m : GateManager w) : Prop :=
  match last with
  | none => m = .ready .unknown
  | some op => op.At m

-- ---- The invariant.

namespace ExportIngress

/-- No `begin_opening` is between its new epoch and OPENING. -/
def Dormant (s : ExportIngress w N) : Prop := ∀ c ∈ s.calls, c.reopens = false

structure EntryOk (s : ExportIngress w N) (i : Nat) (e : EntryCall N) : Prop where
  lock    : e.pc.locks = true → s.openingLock = some (.entry i)
  asked   : ∀ r, e.pc.asked = some r → s.exports.users[r]? = some (.entering e.stripe)
  held    : ∀ r, e.pc.held = some r → s.exports.users[r]? = some (.holding e.stripe)
  leaving : ∀ r, e.pc.leaving = some r →
    ∃ x, s.exports.users[r]? = some x ∧ x.Leaving e.stripe
  /-- A counted guard is of the current epoch. -/
  epoch   : ∀ guard, e.pc.guard = some guard → guard.permit.isSome = true → guard.epoch = s.epoch
  /-- The assertion in the guard's drop has not failed. -/
  uncrossed : e.pc ≠ .crossed

structure CallOk (s : ExportIngress w N) (k : Nat) (c : Call) : Prop where
  lock     : c.locks = true → s.openingLock = some (.call k)
  claim    : ∀ last rest, c.chain = some (last, rest) →
    s.claim = some k ∧ ∃ m, s.exports.manager = some m ∧ At last m
  locals   : c.Locals
  opens    : c.opens = true → s.phase = .closed
  drained  : c.drained = true → s.exports.gate.AllIdle
  draining : c.draining = true → s.phase = .closing
  sealedIn : ∀ epoch, c.sealedEpoch = some epoch →
    epoch ≤ s.epoch ∧ (epoch = s.epoch → s.phase = .closed ∧ s.Dormant)

/-- **The invariant of the ingress.** -/
structure Wf (s : ExportIngress w N) : Prop where
  gate   : s.exports.Inv
  entry  : ∀ i e, s.entries[i]? = some e → s.EntryOk i e
  /-- No two entries share a user of the gate. -/
  apart  : ∀ (i j : Nat) (e e' : EntryCall N) (r : Nat), s.entries[i]? = some e →
    s.entries[j]? = some e' → e.pc.user = some r → e'.pc.user = some r → i = j
  call   : ∀ k c, s.calls[k]? = some c → s.CallOk k c
  /-- A closed ingress has a drained gate, until a new epoch has begun. -/
  idle   : s.phase = .closed → s.Dormant → s.exports.gate.AllIdle
  /-- One `seal_and_drain` at a time. -/
  single : ∀ (k k' : Nat) (c c' : Call), s.calls[k]? = some c → s.calls[k']? = some c' →
    c.draining = true → c'.draining = true → k = k'

theorem new_wf : (new : ExportIngress w N).Wf where
  gate := new_inv true
  entry i e h := by cases h
  apart i j e e' r h := by cases h
  call k c h := by cases h
  idle _ _ i := ⟨isSealed_sealedBit, active_sealedBit⟩
  single k k' c c' h := by cases h

-- ---- An entry moves.

variable {s s' : ExportIngress w N}

theorem Wf.abort (hwf : s.Wf) : s.abort.Wf :=
  { hwf with
    entry i e h := { hwf.entry i e h with }
    call k c h := { hwf.call k c h with } }

variable {pc : EntryPc} {i k : Nat} {e : EntryCall N} {c c' : Call} {last : Option ControlOp}
  {m : GateManager w} {rest : List ControlOp}

theorem held_of_guard {guard : ExportCallGuard} (h : pc.guard = some guard) :
    pc.held = guard.permit := by
  cases pc with
  | returning locked entry | live entry | dropping entry => cases h; rfl
  | _ => cases h

/-- What an entry knows survives the moves of the others: they do not touch its user
of the gate, and the epoch moves only when nobody has a permit. -/
theorem EntryOk.frame (hgate : s.exports.Inv) (h : s.EntryOk i e)
    (hlock : s.openingLock = some (.entry i) → s'.openingLock = some (.entry i))
    (husers : ∀ r, e.pc.user = some r → s'.exports.users[r]? = s.exports.users[r]?)
    (hepoch : s'.epoch = s.epoch ∨ s.exports.gate.AllIdle) : s'.EntryOk i e where
  lock hl := hlock (h.lock hl)
  asked r hr := (husers r (user_of_asked hr)).trans (h.asked r hr)
  held r hr := (husers r (user_of_held hr)).trans (h.held r hr)
  leaving r hr := by
    rw [husers r (user_of_leaving hr)]
    exact h.leaving r hr
  epoch guard hguard hcounted := by
    rcases hepoch with hsame | hidle
    · rw [hsame]
      exact h.epoch guard hguard hcounted
    · obtain ⟨r, hr⟩ := isSome_iff_exists.mp hcounted
      have hheld := h.held r ((held_of_guard hguard).trans hr)
      have hno := hgate.not_holds hidle hheld e.stripe
      rw [GateUser.holds, beq_self_eq_true] at hno
      cases hno
  uncrossed := h.uncrossed

/-- What a call knows survives a step that leaves its locks and its claim alone,
and after which the rest of what it relies on is still true. -/
theorem CallOk.frame (h : s.CallOk k c)
    (hlock : s.openingLock = some (.call k) → s'.openingLock = some (.call k))
    (hclaim : c.chain.isSome = true → s'.claim = s.claim ∧ s'.exports.manager = s.exports.manager)
    (hphase : ∀ phase, s.phase = phase → c.opens = true ∨ c.draining = true → s'.phase = phase)
    (hdrained : c.drained = true → s.exports.gate.AllIdle → s'.exports.gate.AllIdle)
    (hsealed : ∀ epoch, epoch ≤ s.epoch ∧ (epoch = s.epoch → s.phase = .closed ∧ s.Dormant) →
      epoch ≤ s'.epoch ∧ (epoch = s'.epoch → s'.phase = .closed ∧ s'.Dormant)) : s'.CallOk k c where
  lock hl := hlock (h.lock hl)
  claim last rest hchain := by
    obtain ⟨hk, m, hm, hat⟩ := h.claim last rest hchain
    obtain ⟨hk', hm'⟩ := hclaim (by rw [hchain]; rfl)
    exact ⟨hk'.trans hk, m, hm'.trans hm, hat⟩
  locals := h.locals
  opens ho := hphase _ (h.opens ho) (.inl ho)
  drained hd := hdrained hd (h.drained hd)
  draining hd := hphase _ (h.draining hd) (.inr hd)
  sealedIn epoch he := hsealed epoch (h.sealedIn epoch he)

/-- What a step of entry `i` may change, and the state it leaves the entry in. -/
structure EntryMoves (s s' : ExportIngress w N) (i : Nat) (e e' : EntryCall N) : Prop where
  entries : s'.entries = s.entries.set i e'
  calls   : s'.calls = s.calls
  phase   : s'.phase = s.phase
  epoch   : s'.epoch = s.epoch
  claim   : s'.claim = s.claim
  manager : s'.exports.manager = s.exports.manager
  gate    : s'.exports.Inv
  idle    : s.exports.gate.AllIdle → s'.exports.gate.AllIdle
  lock    : ∀ holder, holder ≠ .entry i → s.openingLock = some holder →
    s'.openingLock = some holder
  /-- The users of the other entries stay as they are. -/
  others  : ∀ r, e.pc.user ≠ some r → r < s.exports.users.length →
    s'.exports.users[r]? = s.exports.users[r]?
  /-- Its own user is the one it had, or a new one. -/
  user    : ∀ r, e'.pc.user = some r → e.pc.user = some r ∨ r = s.exports.users.length
  ok      : s'.EntryOk i e'

theorem EntryOk.user_lt (h : s.EntryOk i e) (hr : e.pc.user = some r) :
    r < s.exports.users.length := by
  have hex : ∃ x, s.exports.users[r]? = some x := by
    rcases or_eq_some_iff.mp hr with hr | ⟨-, hr⟩
    · exact ⟨_, h.asked r hr⟩
    · rcases or_eq_some_iff.mp hr with hr | ⟨-, hr⟩
      · exact ⟨_, h.held r hr⟩
      · obtain ⟨x, hx, -⟩ := h.leaving r hr
        exact ⟨x, hx⟩
  obtain ⟨x, hx⟩ := hex
  exact (List.getElem_of_getElem? hx).1

theorem Wf.of_entry (hwf : s.Wf) {e' : EntryCall N} (he : s.entries[i]? = some e)
    (hmoves : EntryMoves s s' i e e') : s'.Wf where
  gate := hmoves.gate
  entry j f hf := by
    rw [hmoves.entries] at hf
    rcases getElem?_set_cases he hf with ⟨rfl, rfl⟩ | ⟨hne, hf⟩
    · exact hmoves.ok
    · have hok := hwf.entry j f hf
      refine hok.frame hwf.gate (hmoves.lock _ ?_) (fun r hr => ?_) (.inl hmoves.epoch)
      · rintro ⟨⟩
        exact hne rfl
      · refine hmoves.others r (fun hown => ?_) (hok.user_lt hr)
        exact hne (hwf.apart j i f e r hf he hr hown)
  apart j j' f f' r hf hf' hr hr' := by
    rw [hmoves.entries] at hf hf'
    rcases getElem?_set_cases he hf with ⟨rfl, rfl⟩ | ⟨-, hold⟩
    · rcases getElem?_set_cases he hf' with ⟨rfl, -⟩ | ⟨-, hold'⟩
      · rfl
      · rcases hmoves.user r hr with hown | rfl
        · exact hwf.apart j j' e f' r he hold' hown hr'
        · exact absurd ((hwf.entry j' f' hold').user_lt hr') (Nat.lt_irrefl _)
    · rcases getElem?_set_cases he hf' with ⟨rfl, rfl⟩ | ⟨-, hold'⟩
      · rcases hmoves.user r hr' with hown | rfl
        · exact hwf.apart j j' f e r hold he hr hown
        · exact absurd ((hwf.entry j f hold).user_lt hr) (Nat.lt_irrefl _)
      · exact hwf.apart j j' f f' r hold hold' hr hr'
  call k c hc := by
    rw [hmoves.calls] at hc
    refine (hwf.call k c hc).frame (hmoves.lock _ nofun)
      (fun _ => ⟨hmoves.claim, hmoves.manager⟩) (fun _ hp _ => hmoves.phase.trans hp)
      (fun _ => hmoves.idle) (fun epoch hs => ?_)
    rw [hmoves.epoch, hmoves.phase, Dormant, hmoves.calls]
    exact hs
  idle hp hd := by
    rw [Dormant, hmoves.calls] at hd
    exact hmoves.idle (hwf.idle (hmoves.phase.symm.trans hp) hd)
  single k k' c c' hc hc' := by
    rw [hmoves.calls] at hc hc'
    exact hwf.single k k' c c' hc hc'

-- ---- The steps of an entry.

theorem entryOk_of_free (hlock : e.pc.locks = true → s.openingLock = some (.entry i))
    (huser : e.pc.user = none) (hcross : e.pc ≠ .crossed) : s.EntryOk i e where
  lock := hlock
  asked r hr := by
    rw [user_of_asked hr] at huser
    cases huser
  held r hr := by
    rw [user_of_held hr] at huser
    cases huser
  leaving r hr := by
    rw [user_of_leaving hr] at huser
    cases huser
  epoch guard hguard hcounted := by
    obtain ⟨r, hr⟩ := isSome_iff_exists.mp hcounted
    rw [user_of_held ((held_of_guard hguard).trans hr)] at huser
    cases huser
  uncrossed := hcross

/-- An entry that holds a permit, its guard being of the current epoch. -/
theorem entryOk_of_held (hlock : e.pc.locks = true → s.openingLock = some (.entry i))
    (hasked : e.pc.asked = none) (hheld : e.pc.held = some r) (hleaving : e.pc.leaving = none)
    (hx : s.exports.users[r]? = some (.holding e.stripe))
    (hepoch : ∀ guard, e.pc.guard = some guard → guard.epoch = s.epoch) (hcross : e.pc ≠ .crossed) :
    s.EntryOk i e where
  lock := hlock
  asked r' hr := by
    rw [hasked] at hr
    cases hr
  held r' hr := by
    cases hheld.symm.trans hr
    exact hx
  leaving r' hr := by
    rw [hleaving] at hr
    cases hr
  epoch guard hguard _ := hepoch guard hguard
  uncrossed := hcross

theorem entryMoves_still (hgate : s.exports.Inv)
    (hentries : s'.entries = s.entries.set i { e with pc := pc }) (hcalls : s'.calls = s.calls)
    (hphase : s'.phase = s.phase) (hepoch : s'.epoch = s.epoch) (hclaim : s'.claim = s.claim)
    (hexports : s'.exports = s.exports)
    (hlock : ∀ holder, holder ≠ .entry i → s.openingLock = some holder →
      s'.openingLock = some holder) (huser : ∀ r, pc.user = some r → e.pc.user = some r)
    (hok : s'.EntryOk i { e with pc := pc }) : EntryMoves s s' i e { e with pc := pc } where
  entries := hentries
  calls := hcalls
  phase := hphase
  epoch := hepoch
  claim := hclaim
  manager := by rw [hexports]
  gate := by rwa [hexports]
  idle := by rw [hexports]; exact id
  lock := hlock
  others r _ _ := by rw [hexports]
  user r hr := .inl (huser r hr)
  ok := hok

theorem entryMoves_pc (hgate : s.exports.Inv) (huser : ∀ r, pc.user = some r → e.pc.user = some r)
    (hok : (s.setEntry i e pc).EntryOk i { e with pc := pc }) :
    EntryMoves s (s.setEntry i e pc) i e { e with pc := pc } :=
  entryMoves_still hgate rfl rfl rfl rfl rfl rfl (fun _ _ h => h) huser hok

/-- The program counter and the instrumentation counter of the stripe change. -/
theorem entryMoves_udf {active : Nat} (hgate : s.exports.Inv)
    (huser : ∀ r, pc.user = some r → e.pc.user = some r)
    (hok : ((s.setUdf e.stripe active).setEntry i e pc).EntryOk i { e with pc := pc }) :
    EntryMoves s ((s.setUdf e.stripe active).setEntry i e pc) i e { e with pc := pc } :=
  entryMoves_still hgate rfl rfl rfl rfl rfl rfl (fun _ _ h => h) huser hok

theorem entryMoves_user {exports : GateSystem w N} (hgate : s.exports.Inv) (hr : e.pc.user = some r)
    (hstep : s.exports.step .striped (.user r) = some exports)
    (huser : ∀ r', pc.user = some r' → r' = r)
    (hok : ((s.setExports exports).setEntry i e pc).EntryOk i { e with pc := pc }) :
    EntryMoves s ((s.setExports exports).setEntry i e pc) i e { e with pc := pc } := by
  obtain ⟨hmanager, husers⟩ := user_step hstep
  refine ⟨rfl, rfl, rfl, rfl, rfl, hmanager, hgate.step hstep, fun hidle => ?_, fun _ _ h => h,
    fun r' hne _ => ?_, fun r' hr' => .inl ?_, hok⟩
  · exact hgate.allIdle_user hstep hidle
  · rcases husers with ⟨x, x', hx, -, hset⟩ | ⟨hsame, -⟩
    · show exports.users[r']? = _
      rw [hset, getElem?_set_ne]
      rintro rfl
      exact hne hr
    · show exports.users[r']? = _
      rw [hsame]
  · rw [huser r' hr']
    exact hr

theorem udfLeave_moves {next : EntryPc} (hgate : s.exports.Inv)
    (huser : ∀ r, next.user = some r → e.pc.user = some r)
    (hok : ∀ active, ((s.setUdf e.stripe active).setEntry i e next).EntryOk i { e with pc := next }) :
    s.udfLeaveStep i e next = s.abort ∨
      ∃ e', EntryMoves s (s.udfLeaveStep i e next) i e e' := by
  unfold udfLeaveStep
  split
  next => exact .inl rfl
  next => exact .inr ⟨_, entryMoves_udf hgate huser (hok _)⟩

/-- **Releasing a permit.** The entry stays where it is until its user of the gate
has finished, and then owns none. -/
theorem release_moves {next : EntryPc} (hgate : s.exports.Inv) (hok : s.EntryOk i e)
    (hleaving : e.pc.leaving = some r) (hlock : next.locks = true → e.pc.locks = true)
    (hnext : next.user = none) (hcross : next ≠ .crossed) (h : s.releaseStep i e r next = some s') :
    ∃ e', EntryMoves s s' i e e' := by
  obtain ⟨exports, hstep, rfl⟩ := map_eq_some_iff.mp h
  have hr : e.pc.user = some r := user_of_leaving hleaving
  have hheldNone : e.pc.held = none ∧ e.pc.asked = none ∧ e.pc.guard = none := by
    cases hpc : e.pc with
    | dropPermit locked permit | release entry permit => exact ⟨rfl, rfl, rfl⟩
    | _ =>
      rw [hpc] at hleaving
      cases hleaving
  obtain ⟨hheld, hasked, hguard⟩ := hheldNone
  obtain ⟨x, hx, hxl⟩ := hok.leaving r hleaving
  split
  next hfinished =>
    refine ⟨_, entryMoves_user hgate hr hstep (fun r' hr' => ?_) ?_⟩
    · rw [hnext] at hr'
      cases hr'
    · exact entryOk_of_free (fun hl => hok.lock (hlock hl)) hnext hcross
  next hgoing =>
    refine ⟨_, entryMoves_user hgate hr hstep (fun r' hr' => ?_) ?_⟩
    · exact some.inj (hr'.symm.trans hr)
    · refine ⟨hok.lock, fun r' hr' => ?_, fun r' hr' => ?_, fun r' hr' => ?_, fun g hg => ?_,
        hok.uncrossed⟩
      · exact absurd (hasked.symm.trans hr') (by simp)
      · exact absurd (hheld.symm.trans hr') (by simp)
      · cases hleaving.symm.trans hr'
        obtain ⟨-, ⟨y, y', hy, hnexty, hset⟩ | ⟨hsame, -⟩⟩ := user_step hstep
        · cases hx.symm.trans hy
          have hy' : exports.users[r]? = some y' := by
            rw [hset, getElem?_set_self (List.getElem_of_getElem? hx).1]
          rcases hxl.next hnexty with rfl | hl
          · exact absurd hy' hgoing
          · exact ⟨y', hy', hl⟩
        · exact ⟨x, (congrArg (·[r]?) hsame).trans hx, hxl⟩
      · exact absurd (hguard.symm.trans hg) (by simp)

/-- **The steps of an entry.** Each moves the entry alone, or stops the process. -/
theorem Wf.entry_moves (hwf : s.Wf) (he : s.entries[i]? = some e) (h : s.entryStep i e = some s') :
    s' = s.abort ∨ ∃ e', EntryMoves s s' i e e' := by
  have hok := hwf.entry i e he
  have hgate := hwf.gate
  obtain ⟨udf, stripe, pc⟩ := e
  cases pc with
  | observe =>
    cases h
    refine .inr ⟨_, entryMoves_pc hgate ?_ (entryOk_of_free ?_ ?_ ?_)⟩
    all_goals by_cases hp : s.phase = .opening
    all_goals simp [hp, user, asked, held, leaving, locks]
  | lock =>
    simp only [entryStep] at h
    split at h
    next hfree =>
      cases h
      refine .inr ⟨_, entryMoves_still hgate rfl rfl rfl rfl rfl rfl ?_ (by rintro r ⟨⟩)
        (entryOk_of_free (fun _ => rfl) rfl (by simp))⟩
      intro holder _ hheld
      rw [hfree] at hheld
      cases hheld
    next => cases h
  | check locked =>
    simp only [entryStep] at h
    split at h
    next =>
      cases h
      exact .inr ⟨_, entryMoves_pc hgate (by rintro r ⟨⟩)
        (entryOk_of_free hok.lock rfl (by simp))⟩
    next =>
      obtain ⟨exports, hstep, rfl⟩ := map_eq_some_iff.mp h
      have hexports := enter_of_step hstep
      refine .inr ⟨_, rfl, rfl, rfl, rfl, rfl, ?_, hgate.step hstep, ?_, fun _ _ h => h, ?_, ?_, ?_⟩
      · rw [hexports]
        rfl
      · rw [hexports]
        exact id
      · intro r _ hr
        rw [hexports]
        exact getElem?_append_left hr
      · rintro r ⟨⟩
        exact .inr rfl
      · refine ⟨hok.lock, ?_, (by rintro r ⟨⟩), (by rintro r ⟨⟩), (by rintro g ⟨⟩), (by simp)⟩
        rintro r ⟨⟩
        rw [hexports]
        simp [setEntry, setExports]
  | acquire locked permit =>
    obtain ⟨exports, hstep, rfl⟩ := map_eq_some_iff.mp h
    have hasked := hok.asked permit rfl
    obtain ⟨-, ⟨x, x', hx, hnext, hset⟩ | ⟨hsame, -⟩⟩ := user_step hstep
    · cases hasked.symm.trans hx
      have hx' : exports.users[permit]? = some x' := by
        rw [hset, getElem?_set_self (List.getElem_of_getElem? hx).1]
      cases hnext with
      | acquired =>
        simp only [hx']
        cases udf with
        | true | false =>
          exact .inr ⟨_, entryMoves_user hgate rfl hstep (by rintro r ⟨⟩; rfl)
            (entryOk_of_held hok.lock rfl rfl rfl hx' (by rintro g ⟨⟩) (by simp))⟩
      | refused =>
        simp only [hx']
        exact .inr ⟨_, entryMoves_user hgate rfl hstep (by rintro r ⟨⟩)
          (entryOk_of_free hok.lock rfl (by simp))⟩
    · have hx' : exports.users[permit]? = some (.entering stripe) := by rw [hsame, hasked]
      simp only [hx']
      refine .inr ⟨_, entryMoves_user hgate rfl hstep (by rintro r ⟨⟩; rfl)
        ⟨hok.lock, ?_, (by rintro r ⟨⟩), (by rintro r ⟨⟩), (by rintro g ⟨⟩), (by simp)⟩⟩
      rintro r ⟨⟩
      exact hx'
  | udfEnter locked permit =>
    simp only [entryStep] at h
    split at h
    next =>
      cases h
      exact .inr ⟨⟨udf, stripe, .confirm locked permit⟩,
        entryMoves_udf (e := ⟨udf, stripe, .udfEnter locked permit⟩) hgate (fun _ hr => hr)
          (entryOk_of_held hok.lock rfl rfl rfl (hok.held permit rfl) (by rintro g ⟨⟩) (by simp))⟩
    next =>
      cases h
      exact .inl rfl
  | confirm locked permit =>
    have hx := hok.held permit rfl
    simp only [entryStep] at h
    split at h
    next =>
      cases h
      cases udf with
      | true =>
        exact .inr ⟨_, entryMoves_pc hgate (fun _ hr => hr)
          (entryOk_of_held hok.lock rfl rfl rfl hx (by rintro g ⟨⟩) (by simp))⟩
      | false =>
        refine .inr ⟨_, entryMoves_pc hgate (fun _ hr => hr) ⟨hok.lock, (by rintro r ⟨⟩),
          (by rintro r ⟨⟩), ?_, (by rintro g ⟨⟩), (by simp)⟩⟩
        rintro r ⟨⟩
        exact ⟨_, hx, rfl⟩
    next =>
      cases h
      exact .inr ⟨_, entryMoves_pc hgate (fun _ hr => hr)
        (entryOk_of_held hok.lock rfl rfl rfl hx (by rintro g ⟨⟩) (by simp))⟩
  | udfUndo locked permit =>
    cases h
    refine udfLeave_moves hgate (fun _ hr => hr) fun active => ⟨hok.lock, (by rintro r ⟨⟩),
      (by rintro r ⟨⟩), ?_, (by rintro g ⟨⟩), (by simp)⟩
    rintro r ⟨⟩
    exact ⟨_, hok.held permit rfl, rfl⟩
  | dropPermit locked permit =>
    have hrelease : s.releaseStep i ⟨udf, stripe, .dropPermit locked permit⟩ permit
        (.refuse locked) = some s' := h
    exact .inr (release_moves hgate hok rfl (by exact id) rfl (by simp) hrelease)
  | guardEpoch locked permit accepted =>
    cases h
    have hx := hok.held permit rfl
    cases accepted with
    | true | false =>
      exact .inr ⟨_, entryMoves_pc hgate (fun _ hr => hr)
        (entryOk_of_held hok.lock rfl rfl rfl hx (by rintro g ⟨⟩; rfl) (by simp))⟩
  | refuse locked =>
    cases h
    exact .inr ⟨_, entryMoves_pc hgate (by rintro r ⟨⟩) (entryOk_of_free hok.lock rfl (by simp))⟩
  | returning locked entry =>
    cases h
    cases locked with
    | false =>
      exact .inr ⟨⟨udf, stripe, .live entry⟩, entryMoves_pc hgate (fun _ hr => hr)
        ⟨nofun, (by rintro r ⟨⟩), hok.held, (by rintro r ⟨⟩), hok.epoch, (by simp)⟩⟩
    | true =>
      refine .inr ⟨⟨udf, stripe, .live entry⟩, entryMoves_still hgate rfl rfl rfl rfl rfl rfl
        (fun holder hne hheld => ?_) (fun _ hr => hr)
        ⟨nofun, (by rintro r ⟨⟩), hok.held, (by rintro r ⟨⟩), hok.epoch, (by simp)⟩⟩
      have hown : s.openingLock = some (.entry i) := hok.lock rfl
      rw [hown] at hheld
      exact absurd (some.inj hheld).symm hne
  | live entry => cases h
  | dropping entry =>
    cases h
    cases hpermit : entry.guard.permit with
    | none =>
      exact .inr ⟨_, entryMoves_pc hgate (by rintro r ⟨⟩)
        (entryOk_of_free nofun rfl (by simp))⟩
    | some permit =>
      have hepoch : s.epoch = entry.guard.epoch :=
        (hok.epoch entry.guard rfl (by rw [hpermit]; rfl)).symm
      have hx := hok.held permit hpermit
      simp only [if_pos hepoch]
      have huser : user (.dropping entry) = some permit := by
        simp [user, asked, held, hpermit]
      cases udf with
      | true =>
        exact .inr ⟨_, entryMoves_pc hgate (by rintro r ⟨⟩; exact huser)
          (entryOk_of_held nofun rfl rfl rfl hx (by rintro g ⟨⟩) (by simp))⟩
      | false =>
        refine .inr ⟨_, entryMoves_pc hgate (by rintro r ⟨⟩; exact huser) ⟨nofun,
          (by rintro r ⟨⟩), (by rintro r ⟨⟩), ?_, (by rintro g ⟨⟩), (by simp)⟩⟩
        rintro r ⟨⟩
        exact ⟨_, hx, rfl⟩
  | udfLeave entry permit =>
    cases h
    refine udfLeave_moves hgate (fun _ hr => hr) fun active => ⟨nofun, (by rintro r ⟨⟩),
      (by rintro r ⟨⟩), ?_, (by rintro g ⟨⟩), (by simp)⟩
    rintro r ⟨⟩
    exact ⟨_, hok.held permit rfl, rfl⟩
  | release entry permit =>
    have hrelease : s.releaseStep i ⟨udf, stripe, .release entry permit⟩ permit .gone = some s' := h
    exact .inr (release_moves hgate hok rfl (by rintro ⟨⟩) rfl (by simp) hrelease)
  | gone => cases h
  | crossed => cases h

-- ---- A call moves.

/-- What is known of an epoch a `seal_and_drain` has sealed. -/
def SealedIn (s : ExportIngress w N) (epoch : Nat) : Prop :=
  epoch ≤ s.epoch ∧ (epoch = s.epoch → s.phase = .closed ∧ s.Dormant)

/-- What a step of call `k` may change, and the state it leaves the call in. -/
structure CallMoves (s s' : ExportIngress w N) (k : Nat) (c c' : Call) : Prop where
  calls    : s'.calls = s.calls.set k c'
  entries  : s'.entries = s.entries
  users    : s'.exports.users = s.exports.users
  gate     : s'.exports.Inv
  lock     : ∀ holder, holder ≠ .call k → s.openingLock = some holder →
    s'.openingLock = some holder
  claim    : ∀ (k' : Nat) (d : Call), k' ≠ k → s.calls[k']? = some d → d.chain.isSome = true →
    s'.claim = s.claim ∧ s'.exports.manager = s.exports.manager
  epoch    : s'.epoch = s.epoch ∨ s.exports.gate.AllIdle
  draining : c'.draining = true → c.draining = true
  /-- The phase moves only when no other call relies on it. -/
  phase    : ∀ (k' : Nat) (d : Call), k' ≠ k → s.calls[k']? = some d →
    d.opens = true ∨ d.draining = true → s'.phase = s.phase
  /-- The gate is reopened only when no other call relies on its being drained. -/
  drained  : ∀ (k' : Nat) (d : Call), k' ≠ k → s.calls[k']? = some d → d.drained = true →
    s.exports.gate.AllIdle → s'.exports.gate.AllIdle
  sealedIn : ∀ epoch, s.SealedIn epoch → s'.SealedIn epoch
  idle     : s'.phase = .closed → s'.Dormant → s'.exports.gate.AllIdle
  ok       : s'.CallOk k c'

theorem Wf.of_call (hwf : s.Wf) (hc : s.calls[k]? = some c) (hmoves : CallMoves s s' k c c') :
    s'.Wf where
  gate := hmoves.gate
  entry i e he := by
    rw [hmoves.entries] at he
    refine (hwf.entry i e he).frame hwf.gate (hmoves.lock _ nofun) (fun r _ => ?_)
      hmoves.epoch
    rw [hmoves.users]
  apart i j e e' r he he' := by
    rw [hmoves.entries] at he he'
    exact hwf.apart i j e e' r he he'
  call k' d hd := by
    rw [hmoves.calls] at hd
    rcases getElem?_set_cases hc hd with ⟨rfl, rfl⟩ | ⟨hne, hold⟩
    · exact hmoves.ok
    · refine (hwf.call k' d hold).frame (hmoves.lock _ ?_)
        (hmoves.claim k' d hne hold)
        (fun phase hp hor => (hmoves.phase k' d hne hold hor).trans hp)
        (hmoves.drained k' d hne hold) hmoves.sealedIn
      rintro ⟨⟩
      exact hne rfl
  idle := hmoves.idle
  single k₁ k₂ d₁ d₂ h₁ h₂ hd₁ hd₂ := by
    rw [hmoves.calls] at h₁ h₂
    rcases getElem?_set_cases hc h₁ with ⟨rfl, rfl⟩ | ⟨-, hold₁⟩
    · rcases getElem?_set_cases hc h₂ with ⟨rfl, -⟩ | ⟨-, hold₂⟩
      · rfl
      · exact hwf.single k₁ k₂ c d₂ hc hold₂ (hmoves.draining hd₁) hd₂
    · rcases getElem?_set_cases hc h₂ with ⟨rfl, rfl⟩ | ⟨-, hold₂⟩
      · exact hwf.single k₁ k₂ d₁ c hold₁ hc hd₁ (hmoves.draining hd₂)
      · exact hwf.single k₁ k₂ d₁ d₂ hold₁ hold₂ hd₁ hd₂

/-- While `begin_opening` reopens the gate, no other call relies on its being drained. -/
theorem Wf.drained_of_reopens (hwf : s.Wf) {k' : Nat} {d : Call} (hc : s.calls[k]? = some c)
    (hd : s.calls[k']? = some d) (hreopens : c.reopens = true) (hdrained : d.drained = true) :
    k' = k := by
  have hopens := Call.opens_of_reopens hreopens
  have hlock := (hwf.call k c hc).lock (Call.locks_of_opens hopens)
  have hok := hwf.call k' d hd
  have hcase : d.locks = true ∨ d.draining = true := by
    cases d with
    | beginOpening pc =>
      cases pc with
      | control | manage _ _ => exact .inl rfl
      | _ => cases hdrained
    | sealAndDrain pc =>
      cases pc with
      | exchange => exact .inr rfl
      | _ => cases hdrained
    | _ => cases hdrained
  rcases hcase with hl | hdr
  · have hlock' := hok.lock hl
    rw [hlock] at hlock'
    cases hlock'
    rfl
  · have hclosed := (hwf.call k c hc).opens hopens
    rw [hok.draining hdr] at hclosed
    cases hclosed

/-- Replacing a call by one that is as far with a reopening as it was. -/
theorem dormant_set_iff (hc : s.calls[k]? = some c) (hcalls : s'.calls = s.calls.set k c')
    (hsame : c'.reopens = c.reopens) : s'.Dormant ↔ s.Dormant := by
  have hmem : c ∈ s.calls := mem_of_getElem? hc
  have hmem' : c' ∈ s.calls.set k c' :=
    mem_of_getElem? (getElem?_set_self (List.getElem_of_getElem? hc).1)
  unfold Dormant
  rw [hcalls]
  constructor
  · intro h d hd
    obtain ⟨j, hj⟩ := mem_iff_getElem?.mp hd
    by_cases hjk : j = k
    · subst hjk
      cases hc.symm.trans hj
      rw [← hsame]
      exact h c' hmem'
    · exact h d (mem_of_getElem? ((getElem?_set_ne (Ne.symm hjk)).trans hj))
  · intro h d hd
    rcases mem_or_eq_of_mem_set hd with hd | rfl
    · exact h d hd
    · rw [hsame]
      exact h c hmem

section

variable (hwf : s.Wf) (hc : s.calls[k]? = some c)
include hwf hc

theorem Wf.callMoves_quiet
    (hcalls : s'.calls = s.calls.set k c') (hentries : s'.entries = s.entries)
    (husers : s'.exports.users = s.exports.users) (hgate : s'.exports.Inv)
    (hlock : ∀ holder, holder ≠ .call k → s.openingLock = some holder →
      s'.openingLock = some holder)
    (hclaim : ∀ (k' : Nat) (d : Call), k' ≠ k → s.calls[k']? = some d → d.chain.isSome = true →
      s'.claim = s.claim ∧ s'.exports.manager = s.exports.manager) (hphase : s'.phase = s.phase)
    (hepoch : s'.epoch = s.epoch) (hsame : c'.reopens = c.reopens)
    (hdraining : c'.draining = true → c.draining = true)
    (hidle : s.exports.gate.AllIdle → s'.exports.gate.AllIdle ∨ c.reopens = true)
    (hok : s'.CallOk k c') : CallMoves s s' k c c' where
  calls := hcalls
  entries := hentries
  users := husers
  gate := hgate
  lock := hlock
  claim := hclaim
  epoch := .inl hepoch
  draining := hdraining
  phase _ _ _ _ _ := hphase
  drained k' d hne hd hdr hall := by
    rcases hidle hall with hall' | hreopens
    · exact hall'
    · exact absurd (hwf.drained_of_reopens hc hd hreopens hdr) hne
  sealedIn epoch hs := by
    rw [SealedIn, hepoch, hphase, dormant_set_iff hc hcalls hsame]
    exact hs
  idle hp hd := by
    have hdorm := (dormant_set_iff hc hcalls hsame).mp hd
    rcases hidle (hwf.idle (hphase.symm.trans hp) hdorm) with hall | hreopens
    · exact hall
    · rw [hdorm c (mem_of_getElem? hc)] at hreopens
      cases hreopens
  ok := hok

theorem Wf.callMoves_pc (hsame : c'.reopens = c.reopens)
    (hdraining : c'.draining = true → c.draining = true) (hok : (s.setCall k c').CallOk k c') :
    CallMoves s (s.setCall k c') k c c' :=
  hwf.callMoves_quiet hc rfl rfl rfl hwf.gate (fun _ _ h => h) (fun _ _ _ _ _ => ⟨rfl, rfl⟩) rfl rfl
    hsame hdraining .inl hok

theorem Wf.callMoves_lock (hfree : s.openingLock = none)
    (hsame : c'.reopens = c.reopens) (hdraining : c'.draining = true → c.draining = true)
    (hok : ((s.setLock (some (.call k))).setCall k c').CallOk k c') :
    CallMoves s ((s.setLock (some (.call k))).setCall k c') k c c' := by
  refine hwf.callMoves_quiet hc rfl rfl rfl hwf.gate (fun holder _ hheld => ?_)
    (fun _ _ _ _ _ => ⟨rfl, rfl⟩) rfl rfl hsame hdraining .inl hok
  rw [hfree] at hheld
  cases hheld

theorem Wf.callMoves_unlock (hheld : c.locks = true)
    (hsame : c'.reopens = c.reopens) (hdraining : c'.draining = true → c.draining = true)
    (hok : ((s.setLock none).setCall k c').CallOk k c') :
    CallMoves s ((s.setLock none).setCall k c') k c c' := by
  refine hwf.callMoves_quiet hc rfl rfl rfl hwf.gate (fun holder hne hold => ?_)
    (fun _ _ _ _ _ => ⟨rfl, rfl⟩) rfl rfl hsame hdraining .inl hok
  rw [(hwf.call k c hc).lock hheld] at hold
  exact absurd (some.inj hold).symm hne

theorem Wf.callMoves_claim (hclaim : s.takeClaim k = some s') (hsame : c'.reopens = c.reopens)
    (hdraining : c'.draining = true → c.draining = true)
    (hok : s'.exports.manager = some (.ready .unknown) → s'.claim = some k →
      s'.exports.gate = s.exports.gate → (s'.setCall k c').CallOk k c') :
    CallMoves s (s'.setCall k c') k c c' := by
  obtain ⟨exports, hstep, rfl⟩ := map_eq_some_iff.mp hclaim
  obtain ⟨hnone, hexports⟩ := claim_of_step hstep
  have hgate : exports.Inv := hwf.gate.step hstep
  have hall : s.exports.gate.AllIdle → exports.gate.AllIdle := by
    rw [hexports]
    exact id
  have husers : exports.users = s.exports.users := by
    rw [hexports]
    rfl
  refine hwf.callMoves_quiet hc rfl rfl husers hgate (fun _ _ h => h) (fun k' d _ hd hchain => ?_)
    rfl rfl hsame hdraining (fun h => .inl (hall h)) (hok ?_ rfl ?_)
  · obtain ⟨⟨last, rest⟩, hsome⟩ := isSome_iff_exists.mp hchain
    obtain ⟨-, m, hm, -⟩ := (hwf.call k' d hd).claim last rest hsome
    rw [hnone] at hm
    cases hm
  · rw [hexports]
    rfl
  · rw [hexports]
    rfl

end

-- ---- The administration of the gate.

/-- What one access of the holder of the claim may change of the ingress. -/
structure Administers (s t : ExportIngress w N) (last : Option ControlOp) : Prop where
  calls   : t.calls = s.calls
  entries : t.entries = s.entries
  phase   : t.phase = s.phase
  epoch   : t.epoch = s.epoch
  lock    : t.openingLock = s.openingLock
  users   : t.exports.users = s.exports.users
  gate    : t.exports.Inv
  idle    : last ≠ some .reopen → s.exports.gate.AllIdle → t.exports.gate.AllIdle

/-- Where the holder of the claim is tells that it neither reopens nor rolls back. -/
theorem not_reopening_of_at (hat : At last m) (hreopen : last ≠ some .reopen)
    (hseal : last ≠ some .trySealIfIdle) :
    (∀ proc, m ≠ .reopening proc) ∧ ∀ proc, m ≠ .idleSealing proc := by
  cases last with
  | none =>
    cases hat
    exact ⟨nofun, nofun⟩
  | some op =>
    cases op with
    | reopen => exact absurd rfl hreopen
    | trySealIfIdle => exact absurd rfl hseal
    | doSeal =>
      rcases hat with ⟨proc, rfl⟩ | ⟨i, rfl⟩ | rfl
      all_goals exact ⟨nofun, nofun⟩
    | waitIdle | wait =>
      rcases hat with ⟨proc, rfl⟩ | rfl
      all_goals exact ⟨nofun, nofun⟩
    | waitIfSealed =>
      rcases hat with ⟨i, rfl⟩ | ⟨proc, rfl⟩ | rfl | rfl
      all_goals exact ⟨nofun, nofun⟩
    | tryDrained | tryWait =>
      rcases hat with ⟨proc, rfl⟩ | rfl | rfl
      all_goals exact ⟨nofun, nofun⟩

theorem administers_of_step {action : GateSystem.Action N} {exports : GateSystem w N}
    {claim : Option Nat} (hgate : s.exports.Inv) (hm : s.exports.manager = some m)
    (hat : At last m) (hseal : last ≠ some .trySealIfIdle)
    (hstep : s.exports.step .striped action = some exports) (huser : ∀ r, action ≠ .user r)
    (henter : ∀ stripe, action ≠ .enter stripe) :
    Administers s { s with exports := exports, claim := claim } last where
  calls := rfl
  entries := rfl
  phase := rfl
  epoch := rfl
  lock := rfl
  users := control_step hstep huser henter
  gate := hgate.step hstep
  idle hreopen hidle := by
    obtain ⟨hnr, hns⟩ := not_reopening_of_at hat hreopen hseal
    refine hgate.allIdle_step hstep hidle (fun proc hp => hnr proc ?_) (fun proc hp => hns proc ?_)
    · exact some.inj (hm.symm.trans hp)
    · exact some.inj (hm.symm.trans hp)

/-- **One access of a chain of control operations.** -/
theorem administer_spec {out : Administered w N} (hgate : s.exports.Inv)
    (hm : s.exports.manager = some m) (hat : At last m) (hseal : last ≠ some .trySealIfIdle)
    (h : s.administer last rest = some out) : out = .failStop ∨
      (∃ t phase, out = .done t ∧ rest = [] ∧ m = .ready phase ∧
        t.exports.gate = s.exports.gate ∧ Administers s t last) ∨
      ∃ t last' rest', out = .running t last' rest' ∧
        (last' = last ∧ rest' = rest ∧ s.exports.step .striped .manage = some t.exports ∨
          t.exports.gate = s.exports.gate ∧ ∃ op, last' = some op ∧ rest = op :: rest' ∧
            s.exports.step .striped (.begin op) = some t.exports) ∧
        t.claim = s.claim ∧ (∃ m', t.exports.manager = some m' ∧ At last' m') ∧
        Administers s t last := by
  unfold administer at h
  rw [hm] at h
  have hmanage : ((s.exports.step .striped .manage).map fun exports =>
      Administered.running (s.setExports exports) last rest) = some out →
      ∃ t last' rest', out = .running t last' rest' ∧
        (last' = last ∧ rest' = rest ∧ s.exports.step .striped .manage = some t.exports ∨
          t.exports.gate = s.exports.gate ∧ ∃ op, last' = some op ∧ rest = op :: rest' ∧
            s.exports.step .striped (.begin op) = some t.exports) ∧
        t.claim = s.claim ∧ (∃ m', t.exports.manager = some m' ∧ At last' m') ∧
        Administers s t last := by
    intro hmap
    obtain ⟨exports, hstep, rfl⟩ := map_eq_some_iff.mp hmap
    refine ⟨_, _, _, rfl, .inl ⟨rfl, rfl, hstep⟩, rfl, ?_, administers_of_step hgate hm hat hseal hstep
      nofun nofun⟩
    cases last with
    | none =>
      cases hat
      obtain ⟨m₀, hm₀, hmanage⟩ := manage_of_step hstep
      cases hm.symm.trans hm₀
      cases hmanage
    | some op => exact at_of_manage hm hat hstep
  cases m with
  | ready phase =>
    cases rest with
    | nil =>
      obtain ⟨exports, hstep, rfl⟩ := map_eq_some_iff.mp h
      refine .inr (.inl ⟨_, phase, rfl, rfl, rfl, ?_, administers_of_step hgate hm hat hseal hstep
        nofun nofun⟩)
      rw [dropClaim_of_step hstep]
    | cons op rest =>
      simp only [] at h
      split at h
      next exports hstep =>
        cases h
        refine .inr (.inr ⟨_, _, _, rfl, .inr ⟨?_, op, rfl, rfl, hstep⟩, rfl,
          at_of_begin hstep, administers_of_step hgate hm hat hseal hstep
            nofun nofun⟩)
        obtain ⟨phase', hm', hbegin⟩ := begin_of_step hstep
        obtain ⟨gate, m', rfl, hsame⟩ := begin_goto hbegin
        exact hsame rfl
      next =>
        cases h
        exact .inl rfl
  | _ => exact .inr (.inr (hmanage h))

-- ---- The steps of a call.

theorem callOk_of_plain (hlock : c.locks = true → s.openingLock = some (.call k))
    (hchain : c.chain = none) (hlocals : c.Locals) (hopens : c.opens = true → s.phase = .closed)
    (hdrained : c.drained = true → s.exports.gate.AllIdle)
    (hdraining : c.draining = true → s.phase = .closing) (hsealed : c.sealedEpoch = none) :
    s.CallOk k c where
  lock := hlock
  claim last rest h := by
    rw [hchain] at h
    cases h
  locals := hlocals
  opens := hopens
  drained := hdrained
  draining := hdraining
  sealedIn epoch h := by
    rw [hsealed] at h
    cases h

theorem callOk_of_chain (hlock : c.locks = true → s.openingLock = some (.call k))
    (hchain : c.chain = some (last, rest)) (hclaim : s.claim = some k)
    (hm : s.exports.manager = some m) (hat : At last m) (hlocals : c.Locals)
    (hopens : c.opens = true → s.phase = .closed)
    (hdrained : c.drained = true → s.exports.gate.AllIdle)
    (hdraining : c.draining = true → s.phase = .closing) : s.CallOk k c where
  lock := hlock
  claim last' rest' h := by
    cases hchain.symm.trans h
    exact ⟨hclaim, m, hm, hat⟩
  locals := hlocals
  opens := hopens
  drained := hdrained
  draining := hdraining
  sealedIn epoch h := by
    cases c with
    | sealAndDrain pc =>
      cases pc with
      | certify => cases hchain
      | finished => cases hchain
      | _ => cases h
    | _ => cases h

theorem Wf.callMoves_chain (hwf : s.Wf) {t : ExportIngress w N} (hc : s.calls[k]? = some c)
    (hchain : c.chain = some (last, rest)) (hadm : Administers s t last)
    (hreopen : last = some .reopen → c.reopens = true) (hsame : c'.reopens = c.reopens)
    (hdraining : c'.draining = true → c.draining = true) (hok : (t.setCall k c').CallOk k c') :
    CallMoves s (t.setCall k c') k c c' := by
  refine hwf.callMoves_quiet hc ?_ hadm.entries hadm.users hadm.gate (fun holder _ h => ?_)
    (fun k' d hne hd hsome => ?_) hadm.phase hadm.epoch hsame hdraining (fun hall => ?_) hok
  · show t.calls.set k c' = _
    rw [hadm.calls]
  · exact hadm.lock.trans h
  · obtain ⟨⟨last', rest'⟩, hchain'⟩ := isSome_iff_exists.mp hsome
    have hmine := ((hwf.call k c hc).claim last rest hchain).1
    rw [((hwf.call k' d hd).claim last' rest' hchain').1] at hmine
    exact absurd (some.inj hmine) hne
  · by_cases hlast : last = some .reopen
    · exact .inr (hreopen hlast)
    · exact .inl (hadm.idle hlast hall)

/-- `begin_opening` sees a closed ingress without permits, and begins an epoch. -/
theorem Wf.callMoves_epoch (hwf : s.Wf) (hc : s.calls[k]? = some (.beginOpening .epoch)) :
    CallMoves s ({ s with epoch := s.epoch + 1 }.setCall k (.beginOpening .control)) k
      (.beginOpening .epoch) (.beginOpening .control) := by
  have hok := hwf.call k _ hc
  have hclosed : s.phase = .closed := hok.opens rfl
  have hheld : s.openingLock = some (.call k) := hok.lock rfl
  have hdormant : s.Dormant := by
    intro d hd
    cases hreopens : d.reopens with
    | false => rfl
    | true =>
      obtain ⟨j, hj⟩ := mem_iff_getElem?.mp hd
      have hlock := (hwf.call j d hj).lock (Call.locks_of_opens (Call.opens_of_reopens hreopens))
      rw [hheld] at hlock
      cases hlock
      cases hc.symm.trans hj
      cases hreopens
  have hidle := hwf.idle hclosed hdormant
  refine ⟨rfl, rfl, rfl, hwf.gate, fun _ _ h => h, fun _ _ _ _ _ => ⟨rfl, rfl⟩, .inr hidle,
    nofun, fun _ _ _ _ _ => rfl, fun _ _ _ _ _ h => h, fun epoch hs => ?_, ?_, ?_⟩
  · have hle : epoch ≤ s.epoch := hs.1
    refine ⟨Nat.le_succ_of_le hle, fun heq => ?_⟩
    have hlt : epoch = s.epoch + 1 := heq
    omega
  · intro _ hdorm
    have hnot := hdorm (.beginOpening .control)
      (mem_of_getElem? (getElem?_set_self (List.getElem_of_getElem? hc).1))
    cases hnot
  · exact callOk_of_plain hok.lock rfl trivial (fun _ => hclosed) (fun _ => hidle)
      nofun rfl

/-- A call that is in no drain moves the phase of an ingress nobody relies on. -/
theorem Wf.callMoves_phase (hwf : s.Wf) {phase : Phase} (hphase : phase ≠ .closed)
    (hfree : ∀ (k' : Nat) (d : Call), k' ≠ k → s.calls[k']? = some d →
      d.opens = true ∨ d.draining = true → False) (hmoved : s.phase = .closed → ¬s.Dormant)
    (hdraining : c'.draining = true → c.draining = true)
    (hok : ((s.setPhase phase).setCall k c').CallOk k c') :
    CallMoves s ((s.setPhase phase).setCall k c') k c c' := by
  refine ⟨rfl, rfl, rfl, hwf.gate, fun _ _ h => h, fun _ _ _ _ _ => ⟨rfl, rfl⟩, .inl rfl,
    hdraining, fun k' d hne hd hor => (hfree k' d hne hd hor).elim, fun _ _ _ _ _ h => h,
    fun epoch hs => ⟨hs.1, fun heq => ?_⟩, fun hp => absurd hp hphase, hok⟩
  obtain ⟨hp, hd⟩ := hs.2 heq
  exact absurd hd (hmoved hp)

/-- While the phase is neither CLOSED nor CLOSING, nobody opens and nobody drains. -/
theorem Wf.free_of_phase (hwf : s.Wf) (hclosed : s.phase ≠ .closed) (hclosing : s.phase ≠ .closing)
    (k' : Nat) (d : Call) (hd : s.calls[k']? = some d) (hor : d.opens = true ∨ d.draining = true) :
    False := by
  rcases hor with ho | hdr
  · exact hclosed ((hwf.call k' d hd).opens ho)
  · exact hclosing ((hwf.call k' d hd).draining hdr)

theorem Wf.beginOpening_moves (hwf : s.Wf) {pc : BeginOpening}
    (hc : s.calls[k]? = some (.beginOpening pc)) (h : s.beginOpeningStep k pc = some s') :
    s' = s.abort ∨ ∃ c', CallMoves s s' k (.beginOpening pc) c' := by
  have hok := hwf.call k _ hc
  cases pc with
  | lock =>
    simp only [beginOpeningStep] at h
    split at h
    next hfree =>
      cases h
      exact .inr ⟨_, hwf.callMoves_lock hc hfree rfl nofun
        (callOk_of_plain (fun _ => rfl) rfl trivial nofun nofun nofun rfl)⟩
    next => cases h
  | phase =>
    cases h
    by_cases hp : s.phase = .closed
    · rw [if_pos hp]
      exact .inr ⟨_, hwf.callMoves_pc hc rfl nofun
        (callOk_of_plain hok.lock rfl trivial (fun _ => hp) nofun nofun rfl)⟩
    · rw [if_neg hp]
      exact .inr ⟨_, hwf.callMoves_pc hc rfl nofun
        (callOk_of_plain hok.lock rfl trivial nofun nofun nofun rfl)⟩
  | count again i sum =>
    have hclosed : s.phase = .closed := hok.opens rfl
    simp only [beginOpeningStep] at h
    split at h
    next =>
      split at h
      next =>
        cases h
        exact .inr ⟨_, hwf.callMoves_pc hc rfl nofun
          (callOk_of_plain hok.lock rfl trivial (fun _ => hclosed) nofun nofun rfl)⟩
      next =>
        cases h
        exact .inl rfl
    next =>
      cases h
      split
      next =>
        exact .inr ⟨_, hwf.callMoves_pc hc rfl nofun
          (callOk_of_plain hok.lock rfl trivial (fun _ => hclosed) nofun nofun rfl)⟩
      next =>
        cases again with
        | true =>
          exact .inr ⟨_, hwf.callMoves_pc hc rfl nofun
            (callOk_of_plain hok.lock rfl trivial nofun nofun nofun rfl)⟩
        | false =>
          exact .inr ⟨_, hwf.callMoves_pc hc rfl nofun
            (callOk_of_plain hok.lock rfl trivial (fun _ => hclosed) nofun nofun rfl)⟩
  | epoch =>
    simp only [beginOpeningStep] at h
    split at h
    next =>
      cases h
      exact .inr ⟨_, hwf.callMoves_epoch hc⟩
    next =>
      cases h
      exact .inl rfl
  | control =>
    have hclosed : s.phase = .closed := hok.opens rfl
    have hidle := hok.drained rfl
    obtain ⟨t, ht, rfl⟩ := map_eq_some_iff.mp h
    refine .inr ⟨_, hwf.callMoves_claim hc ht rfl nofun fun hm hclaim hgate => ?_⟩
    obtain ⟨exports, -, rfl⟩ := map_eq_some_iff.mp ht
    refine callOk_of_chain hok.lock rfl hclaim hm rfl (.inl rfl) (fun _ => hclosed) (fun _ => ?_)
      nofun
    rw [← hgate] at hidle
    exact hidle
  | manage last rest =>
    have hclosed : s.phase = .closed := hok.opens rfl
    obtain ⟨hclaim, m, hm, hat⟩ := hok.claim last rest rfl
    obtain ⟨out, hout, rfl⟩ := map_eq_some_iff.mp h
    have hseal : last ≠ some .trySealIfIdle := by
      rcases hok.locals with heq | heq | heq
      all_goals cases heq; simp
    rcases administer_spec hwf.gate hm hat hseal hout with
      rfl | ⟨t, phase, rfl, -, -, -, hadm⟩ | ⟨t, last', rest', rfl, hnext, hclaim', ⟨m', hm', hat'⟩, hadm⟩
    · exact .inl rfl
    · exact .inr ⟨_, hwf.callMoves_chain hc rfl hadm (fun _ => rfl) rfl nofun
        (callOk_of_plain (fun _ => hadm.lock.trans (hok.lock rfl)) rfl trivial
          (fun _ => hadm.phase.trans hclosed) nofun nofun rfl)⟩
    · refine .inr ⟨_, hwf.callMoves_chain hc rfl hadm (fun _ => rfl) rfl nofun
        (callOk_of_chain (fun _ => hadm.lock.trans (hok.lock rfl)) rfl (hclaim'.trans hclaim) hm'
          hat' ?_ (fun _ => hadm.phase.trans hclosed) (fun hdr => ?_) nofun)⟩
      · rcases hnext with ⟨rfl, rfl, -⟩ | ⟨-, op, rfl, rfl, -⟩
        · exact hok.locals
        · rcases hok.locals with heq | heq | heq
          · cases heq
            exact .inr (.inl rfl)
          · cases heq
            exact .inr (.inr rfl)
          · cases heq
      · -- the gate is drained as long as `reopen` has not begun
        rcases hnext with ⟨rfl, rfl, -⟩ | ⟨hgate, op, rfl, rfl, -⟩
        · refine hadm.idle ?_ (hok.drained hdr)
          rcases hok.locals with heq | heq | heq
          · cases heq
            simp
          · cases heq
            simp
          · cases heq
            cases hdr
        · have hidle := hok.drained rfl
          rw [← hgate] at hidle
          exact hidle
  | publish =>
    have hclosed : s.phase = .closed := hok.opens rfl
    have hheld : s.openingLock = some (.call k) := hok.lock rfl
    cases h
    refine .inr ⟨_, hwf.callMoves_phase (by simp) (fun k' d hne hd hor => ?_) (fun _ hd => ?_)
      nofun (callOk_of_plain (fun _ => hheld) rfl trivial nofun nofun nofun rfl)⟩
    · rcases hor with ho | hdr
      · have hlock := (hwf.call k' d hd).lock (Call.locks_of_opens ho)
        rw [hheld] at hlock
        cases hlock
        exact hne rfl
      · rw [(hwf.call k' d hd).draining hdr] at hclosed
        cases hclosed
    · cases hd _ (mem_of_getElem? hc)
  | unlock ok =>
    cases h
    exact .inr ⟨_, hwf.callMoves_unlock hc rfl rfl nofun
      (callOk_of_plain nofun rfl trivial nofun nofun nofun rfl)⟩
  | finished ok => cases h

theorem Wf.waitIdle_moves (hwf : s.Wf) {next : Option ControlOp → List ControlOp → Call}
    {done : Call} {out : Administered w N} (hc : s.calls[k]? = some c)
    (hchain : c.chain = some (last, rest))
    (hplace : (last, rest) = (none, [.waitIdle]) ∨ (last, rest) = (some .waitIdle, []))
    (hout : s.administer last rest = some out) (hcreopens : c.reopens = false)
    (hnext : ∀ last rest, (next last rest).chain = some (last, rest) ∧
      (next last rest).reopens = false ∧ (next last rest).opens = false ∧
      (next last rest).drained = false ∧
      ((next last rest).draining = true → c.draining = true) ∧
      ((next last rest).locks = true → c.locks = true) ∧
      (((last, rest) = (none, [.waitIdle]) ∨ (last, rest) = (some .waitIdle, [])) →
        (next last rest).Locals))
    (hdone : done.reopens = false ∧ done.opens = false ∧ done.drained = false ∧
      (done.draining = true → c.draining = true) ∧ (done.locks = true → c.locks = true) ∧
      done.chain = none ∧ done.sealedEpoch = none ∧ done.Locals) :
    s.administered k next done out = s.abort ∨
      ∃ c', CallMoves s (s.administered k next done out) k c c' := by
  have hok := hwf.call k c hc
  obtain ⟨hclaim, m, hm, hat⟩ := hok.claim last rest hchain
  have hops : last ≠ some .trySealIfIdle ∧ last ≠ some .reopen := by
    rcases hplace with heq | heq
    all_goals cases heq; simp
  rcases administer_spec hwf.gate hm hat hops.1 hout with
    rfl | ⟨t, phase, rfl, -, -, -, hadm⟩ |
      ⟨t, last', rest', rfl, hgoing, hclaim', ⟨m', hm', hat'⟩, hadm⟩
  · exact .inl rfl
  · obtain ⟨hr, ho, hd, hdr, hl, hch, hse, hloc⟩ := hdone
    refine .inr ⟨_, hwf.callMoves_chain hc hchain hadm (fun h => absurd h hops.2)
      (hr.trans hcreopens.symm) hdr (callOk_of_plain (fun h => ?_) hch hloc (fun h => ?_)
        (fun h => ?_) (fun h => ?_) hse)⟩
    · exact hadm.lock.trans (hok.lock (hl h))
    · rw [ho] at h
      cases h
    · rw [hd] at h
      cases h
    · exact hadm.phase.trans (hok.draining (hdr h))
  · obtain ⟨hch, hr, ho, hd, hdr, hl, hloc⟩ := hnext last' rest'
    refine .inr ⟨_, hwf.callMoves_chain hc hchain hadm (fun h => absurd h hops.2)
      (hr.trans hcreopens.symm) hdr (callOk_of_chain (fun h => ?_) hch (hclaim'.trans hclaim) hm'
        hat' (hloc ?_) (fun h => ?_) (fun h => ?_) (fun h => ?_))⟩
    · exact hadm.lock.trans (hok.lock (hl h))
    · rcases hgoing with ⟨rfl, rfl, -⟩ | ⟨-, op, rfl, rfl, -⟩
      · exact hplace
      · rcases hplace with heq | heq
        · cases heq
          exact .inr rfl
        · cases heq
    · rw [ho] at h
      cases h
    · rw [hd] at h
      cases h
    · exact hadm.phase.trans (hok.draining (hdr h))

theorem Wf.completeOpen_moves (hwf : s.Wf) {pc : CompleteOpen}
    (hc : s.calls[k]? = some (.completeOpen pc)) (h : s.completeOpenStep k pc = some s') :
    s' = s.abort ∨ ∃ c', CallMoves s s' k (.completeOpen pc) c' := by
  have hok := hwf.call k _ hc
  cases pc with
  | lock =>
    simp only [completeOpenStep] at h
    split at h
    next hfree =>
      cases h
      exact .inr ⟨_, hwf.callMoves_lock hc hfree rfl nofun
        (callOk_of_plain (fun _ => rfl) rfl trivial nofun nofun nofun rfl)⟩
    next => cases h
  | control =>
    obtain ⟨t, ht, rfl⟩ := map_eq_some_iff.mp h
    refine .inr ⟨_, hwf.callMoves_claim hc ht rfl nofun fun hm hclaim _ => ?_⟩
    obtain ⟨exports, -, rfl⟩ := map_eq_some_iff.mp ht
    exact callOk_of_chain hok.lock rfl hclaim hm rfl (.inl rfl) nofun nofun
      nofun
  | manage last rest =>
    obtain ⟨out, hout, rfl⟩ := map_eq_some_iff.mp h
    exact hwf.waitIdle_moves hc rfl hok.locals hout rfl
      (fun _ _ => ⟨rfl, rfl, rfl, rfl, nofun, fun _ => rfl, id⟩)
      ⟨rfl, rfl, rfl, nofun, fun _ => rfl, rfl, rfl, trivial⟩
  | phase =>
    cases h
    split
    next =>
      exact .inr ⟨_, hwf.callMoves_pc hc rfl nofun
        (callOk_of_plain hok.lock rfl trivial nofun nofun nofun rfl)⟩
    next =>
      exact .inr ⟨_, hwf.callMoves_pc hc rfl nofun
        (callOk_of_plain hok.lock rfl trivial nofun nofun nofun rfl)⟩
  | operation => cases h
  | publish =>
    have hheld : s.openingLock = some (.call k) := hok.lock rfl
    simp only [completeOpenStep] at h
    split at h
    next hp =>
      cases h
      have hclosed : s.phase ≠ .closed := by rw [hp]; simp
      refine .inr ⟨_, hwf.callMoves_phase (by simp)
        (fun k' d _ => hwf.free_of_phase hclosed (by rw [hp]; simp) k' d)
        (fun hcl => absurd hcl hclosed) nofun
        (callOk_of_plain (fun _ => hheld) rfl trivial nofun nofun nofun rfl)⟩
    next =>
      cases h
      exact .inr ⟨_, hwf.callMoves_pc hc rfl nofun
        (callOk_of_plain hok.lock rfl trivial nofun nofun nofun rfl)⟩
  | unlock outcome =>
    cases h
    exact .inr ⟨_, hwf.callMoves_unlock hc rfl rfl nofun
      (callOk_of_plain nofun rfl trivial nofun nofun nofun rfl)⟩
  | finished outcome => cases h

theorem callOk_closeObserved {locked : Bool} {observed : Phase}
    (hlock : locked = true → s.openingLock = some (.call k)) :
    s.CallOk k (.beginClose (closeObserved locked observed)) := by
  unfold closeObserved
  split
  next hopen =>
    exact callOk_of_plain hlock rfl hopen nofun nofun nofun rfl
  next =>
    exact callOk_of_plain hlock rfl trivial nofun nofun nofun rfl

theorem closeObserved_plain (locked : Bool) (observed : Phase) :
    (Call.beginClose (closeObserved locked observed)).reopens = false ∧
      (Call.beginClose (closeObserved locked observed)).draining = false := by
  unfold closeObserved
  split
  · exact ⟨rfl, rfl⟩
  · exact ⟨rfl, rfl⟩

theorem Wf.callMoves_closeObserved (hwf : s.Wf) {pc : BeginClose} {locked : Bool}
    (hc : s.calls[k]? = some (.beginClose pc))
    (hlock : locked = true → s.openingLock = some (.call k)) (observed : Phase) :
    CallMoves s (s.setCall k (.beginClose (closeObserved locked observed))) k (.beginClose pc)
      (.beginClose (closeObserved locked observed)) := by
  obtain ⟨hr, hd⟩ := closeObserved_plain locked observed
  refine hwf.callMoves_pc hc hr (fun h => ?_) (callOk_closeObserved hlock)
  rw [hd] at h
  cases h

theorem Wf.beginClose_moves (hwf : s.Wf) {pc : BeginClose}
    (hc : s.calls[k]? = some (.beginClose pc)) (h : s.beginCloseStep k pc = some s') :
    ∃ c', CallMoves s s' k (.beginClose pc) c' := by
  have hok := hwf.call k _ hc
  cases pc with
  | observe =>
    cases h
    split
    next =>
      exact ⟨_, hwf.callMoves_pc hc rfl nofun (callOk_of_plain nofun rfl trivial nofun nofun nofun
          rfl)⟩
    next =>
      exact ⟨_, hwf.callMoves_pc hc rfl nofun (callOk_of_plain nofun rfl trivial nofun nofun nofun
          rfl)⟩
  | lock =>
    simp only [beginCloseStep] at h
    split at h
    next hfree =>
      cases h
      exact ⟨_, hwf.callMoves_lock hc hfree rfl nofun
        (callOk_of_plain (fun _ => rfl) rfl trivial nofun nofun nofun rfl)⟩
    next => cases h
  | load locked =>
    cases h
    exact ⟨_, hwf.callMoves_closeObserved hc hok.lock _⟩
  | exchange locked observed =>
    simp only [beginCloseStep] at h
    split at h
    next hp =>
      cases h
      have hopen : s.phase ≠ .closed ∧ s.phase ≠ .closing := by
        rw [hp]
        rcases hok.locals with rfl | rfl
        · simp
        · simp
      refine ⟨_, hwf.callMoves_phase (by simp)
        (fun k' d _ => hwf.free_of_phase hopen.1 hopen.2 k' d)
        (fun hcl => absurd hcl hopen.1) nofun
        (callOk_of_plain hok.lock rfl trivial nofun nofun nofun rfl)⟩
    next =>
      cases h
      exact ⟨_, hwf.callMoves_closeObserved hc hok.lock _⟩
  | unlock locked =>
    cases h
    cases locked with
    | false =>
      exact ⟨.beginClose .finished, hwf.callMoves_pc hc rfl nofun
        (callOk_of_plain nofun rfl trivial nofun nofun nofun rfl)⟩
    | true =>
      exact ⟨.beginClose .finished, hwf.callMoves_unlock hc rfl rfl nofun
        (callOk_of_plain nofun rfl trivial nofun nofun nofun rfl)⟩
  | finished => cases h

/-- **The seal.** With the gate drained under the only `seal_and_drain`, the
ingress becomes CLOSED, and no opening is under way. -/
theorem Wf.callMoves_seal (hwf : s.Wf) (hc : s.calls[k]? = some (.sealAndDrain .exchange)) :
    CallMoves s ((s.setPhase .closed).setCall k (.sealAndDrain (.certify s.epoch))) k
      (.sealAndDrain .exchange) (.sealAndDrain (.certify s.epoch)) := by
  have hok := hwf.call k _ hc
  have hclosing : s.phase = .closing := hok.draining rfl
  have hidle := hok.drained rfl
  have hnot : ∀ (k' : Nat) (d : Call), s.calls[k']? = some d → d.opens = false := by
    intro k' d hd
    cases ho : d.opens with
    | false => rfl
    | true =>
      have hclosed := (hwf.call k' d hd).opens ho
      rw [hclosing] at hclosed
      cases hclosed
  refine ⟨rfl, rfl, rfl, hwf.gate, fun _ _ h => h, fun _ _ _ _ _ => ⟨rfl, rfl⟩, .inl rfl,
    nofun, fun k' d hne hd hor => ?_, fun _ _ _ _ _ h => h,
    fun epoch hs => ⟨hs.1, fun heq => ?_⟩, fun _ _ => hidle, ?_⟩
  · rcases hor with ho | hdr
    · rw [hnot k' d hd] at ho
      cases ho
    · exact absurd (hwf.single k' k d _ hd hc hdr rfl) hne
  · have hclosed := (hs.2 heq).1
    rw [hclosing] at hclosed
    cases hclosed
  · refine ⟨nofun, (by rintro _ _ ⟨⟩), trivial, nofun, nofun,
      nofun, ?_⟩
    rintro epoch ⟨⟩
    refine ⟨Nat.le_refl _, fun _ => ⟨rfl, fun d hd => ?_⟩⟩
    rcases mem_or_eq_of_mem_set hd with hd | rfl
    · obtain ⟨j, hj⟩ := mem_iff_getElem?.mp hd
      cases hr : d.reopens with
      | false => rfl
      | true =>
        have ho := Call.opens_of_reopens hr
        rw [hnot j d hj] at ho
        cases ho
    · rfl

theorem Wf.sealAndDrain_moves (hwf : s.Wf) {pc : SealAndDrain}
    (hc : s.calls[k]? = some (.sealAndDrain pc)) (h : s.sealAndDrainStep k pc = some s') :
    s' = s.abort ∨ ∃ c', CallMoves s s' k (.sealAndDrain pc) c' := by
  have hok := hwf.call k _ hc
  cases pc with
  | phase =>
    cases h
    split
    next =>
      exact .inr ⟨_, hwf.callMoves_pc hc rfl nofun
        (callOk_of_plain nofun rfl trivial nofun nofun nofun rfl)⟩
    next =>
      exact .inr ⟨_, hwf.callMoves_pc hc rfl (fun _ => rfl)
        (callOk_of_plain nofun rfl trivial nofun nofun (fun _ => hok.draining rfl) rfl)⟩
  | control | controlAgain =>
    have hclosing : s.phase = .closing := hok.draining rfl
    obtain ⟨t, ht, rfl⟩ := map_eq_some_iff.mp h
    refine .inr ⟨_, hwf.callMoves_claim hc ht rfl (fun _ => rfl) fun hm hclaim _ => ?_⟩
    obtain ⟨exports, -, rfl⟩ := map_eq_some_iff.mp ht
    exact callOk_of_chain nofun rfl hclaim hm rfl (.inl rfl) nofun
      nofun (fun _ => hclosing)
  | manage last rest =>
    obtain ⟨out, hout, rfl⟩ := map_eq_some_iff.mp h
    exact hwf.waitIdle_moves hc rfl hok.locals hout rfl
      (fun _ _ => ⟨rfl, rfl, rfl, rfl, fun _ => rfl, nofun, id⟩)
      ⟨rfl, rfl, rfl, fun _ => rfl, nofun, rfl, rfl, trivial⟩
  | manageAgain last rest =>
    have hclosing : s.phase = .closing := hok.draining rfl
    obtain ⟨hclaim, m, hm, hat⟩ := hok.claim last rest rfl
    obtain ⟨out, hout, rfl⟩ := map_eq_some_iff.mp h
    have hops : last ≠ some .trySealIfIdle ∧ last ≠ some .reopen := by
      rcases hok.locals with heq | heq | heq
      all_goals cases heq; simp
    rcases administer_spec hwf.gate hm hat hops.1 hout with
      rfl | ⟨t, phase, rfl, rfl, rfl, hgate, hadm⟩ |
        ⟨t, last', rest', rfl, hgoing, hclaim', ⟨m', hm', hat'⟩, hadm⟩
    · exact .inl rfl
    · -- the chain is done: `wait` has returned with the gate drained
      refine .inr ⟨_, hwf.callMoves_chain hc rfl hadm (fun h => absurd h hops.2) rfl
        (fun _ => rfl) (callOk_of_plain nofun rfl trivial nofun (fun _ => ?_)
          (fun _ => hadm.phase.trans hclosing) rfl)⟩
      rcases hok.locals with heq | heq | heq
      · cases heq
      · cases heq
      · cases heq
        rcases hat with ⟨proc, hp⟩ | hp
        · cases hp
        · cases hp
          have hidle := (hwf.gate.stage _ hm).2.1 rfl
          rw [← hgate] at hidle
          exact hidle
    · refine .inr ⟨_, hwf.callMoves_chain hc rfl hadm (fun h => absurd h hops.2) rfl
        (fun _ => rfl) (callOk_of_chain nofun rfl (hclaim'.trans hclaim) hm' hat' ?_
          nofun nofun (fun _ => hadm.phase.trans hclosing))⟩
      rcases hgoing with ⟨rfl, rfl, -⟩ | ⟨-, op, rfl, rfl, -⟩
      · exact hok.locals
      · rcases hok.locals with heq | heq | heq
        · cases heq
          exact .inr (.inl rfl)
        · cases heq
          exact .inr (.inr rfl)
        · cases heq
  | exchange =>
    have hclosing : s.phase = .closing := hok.draining rfl
    simp only [sealAndDrainStep] at h
    rw [if_pos (.inl hclosing)] at h
    cases h
    exact .inr ⟨_, hwf.callMoves_seal hc⟩
  | certify drained =>
    cases h
    refine .inr ⟨_, hwf.callMoves_pc hc rfl nofun ⟨nofun, (by rintro _ _ ⟨⟩),
      trivial, nofun, nofun, nofun, ?_⟩⟩
    rintro epoch ⟨⟩
    obtain ⟨hle, hsame⟩ := hok.sealedIn drained rfl
    refine ⟨hle, fun heq => ⟨(hsame heq).1, ?_⟩⟩
    exact (dormant_set_iff hc (by rfl) (by rfl)).mpr (hsame heq).2
  | finished drained certificate | failed | panicked => cases h

end ExportIngress

end Xlfn.Ingress
