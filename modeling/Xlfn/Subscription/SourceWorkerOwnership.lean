import Xlfn.Subscription.SourceWorker

/-!
# Xlfn — who owns the worker of a source

The one job is in the slot, with the start that holds the lock, with a thread, or with a shutdown;
a `Stage` names which. What each call may be doing in a stage is decided by whether the call owns
the job (`StartHeld`, `RetiringHeld`) or not (`Plain`), and every step of a call that does not own
the job leaves the stage or takes the job over.

* `Cell` lemmas — clones, drops and takes of the shared cell.
-/

namespace Xlfn.Subscription

open Lib List

namespace SourceWorker

variable {P : Type}

-- ---- The shared cell.

variable {s : Source P} {cell : Nat}

namespace Source

variable {owners : Nat}

theorem retain_cell {content : Option P} (h : s.cells[cell]? = some ⟨content, owners⟩) :
    (s.retain cell).cells[cell]? = some ⟨content, owners + 1⟩ := by
  unfold retain
  dsimp only
  rw [getElem?_modify_eq, h]
  rfl

theorem release_eq {content : Option P} (h : s.cells[cell]? = some ⟨content, owners⟩)
    (hlast : owners = 1 → content = none) : ∃ cells, s.release cell = { s with cells := cells } ∧
      cells[cell]? = some ⟨content, owners - 1⟩ := by
  have hset (value : Cell P) : (s.cells.set cell value)[cell]? = some value := by
    rw [getElem?_set_self']
    rw [h]
    rfl
  unfold release
  rw [h]
  dsimp only
  by_cases hone : owners = 1
  · rw [if_pos hone, hlast hone, hone]
    refine ⟨_, ?_, hset _⟩
    rw [Option.toList_none, append_nil]
  · rw [if_neg hone]
    exact ⟨_, rfl, hset _⟩

theorem takeCell_eq {producer : P} (h : s.cells[cell]? = some ⟨some producer, owners⟩) :
    ∃ cells, s.takeCell cell = (some producer, { s with cells := cells }) ∧
      cells[cell]? = some ⟨none, owners⟩ := by
  unfold takeCell
  refine ⟨s.cells.modify cell fun cell => { cell with content := none }, ?_, ?_⟩
  · rw [h]
    rfl
  · rw [getElem?_modify_eq, h]
    rfl

end Source

-- ---- Where the job is.

/-- No thread, no call of the job, no destruction. -/
def Fresh (s : Source P) : Prop := s.threads = [] ∧ s.ran = [] ∧ s.destroyed = []

variable {pc : StartPc P} {call : Nat}

section

variable (producer : P)

/-- The job was taken out of its cell and called. -/
def Taken (s : Source P) (cell : Nat) : Prop :=
  (∃ owners, s.cells[cell]? = some ⟨none, owners⟩) ∧ s.ran = [producer]

/-- The thread and its cell; `shared` is the owners besides the thread. -/
def ThreadOk (s : Source P) (cell shared : Nat) : Thread P → Prop
  | .created own => own = cell ∧ s.cells[cell]? = some ⟨some producer, 1 + shared⟩ ∧ s.ran = []
  | .running own _ | .completing own => own = cell ∧ Taken producer s cell
  | .exited _ => Taken producer s cell

/-- One thread, and no destruction. -/
def Threaded (s : Source P) (cell shared : Nat) : Prop :=
  (∃ thread, s.threads = [thread] ∧ ThreadOk producer s cell shared thread) ∧ s.destroyed = []

/-- The thread called the job and was joined, or the job was destroyed. -/
def Ended (s : Source P) : Prop :=
  (s.threads = [] ∧ s.ran = [] ∧ s.destroyed = [producer]) ∨
    ((∃ panicked, s.threads = [.exited panicked]) ∧ s.ran = [producer] ∧ s.destroyed = [])

/-- The start that holds the lock. -/
def StartHeld (s : Source P) : StartPc P → Prop
  | .unstarted owner =>
    owner = ⟨true, some producer⟩ ∧ s.slot = .joining ∧ s.permits = 0 ∧ Fresh s
  | .reserved owner | .registered owner =>
    owner = ⟨true, some producer⟩ ∧ s.slot = .joining ∧ s.permits = 1 ∧ Fresh s
  | .captured owner => ∃ cell, owner = ⟨true, some cell⟩ ∧
    s.cells[cell]? = some ⟨some producer, 1⟩ ∧ s.slot = .joining ∧ s.permits = 1 ∧ Fresh s
  | .spawning owner run none => owner = ⟨true, some run⟩ ∧
    s.cells[run]? = some ⟨some producer, 2⟩ ∧ s.slot = .joining ∧ s.permits = 1 ∧ Fresh s
  | .spawning owner run (some handle) => owner = ⟨true, some run⟩ ∧ handle = 0 ∧
    s.slot = .joining ∧ s.permits = 1 ∧ Threaded producer s run 1
  | .started owner => owner = ⟨true, some 0⟩ ∧
    s.slot = .joining ∧ s.permits = 1 ∧ ∃ cell, Threaded producer s cell 0
  | .installed => s.slot = .running 0 ∧ s.permits = 1 ∧ ∃ cell, Threaded producer s cell 0
  | .failed restore =>
    restore = ⟨true, some producer⟩ ∧ s.slot = .joining ∧ s.permits = 0 ∧ Fresh s
  | .stopping => s.slot = .unstarted producer ∧ s.permits = 0 ∧ Fresh s
  | .entered | .warm | .cold | .returned _ => False

/-- The shutdown that took the slot. -/
def RetiringHeld (s : Source P) : FinishPc P → Prop
  | .retiring (.unstarted own) => own = producer ∧ s.permits = 0 ∧ Fresh s
  | .retiring (.running handle) => handle = 0 ∧ s.permits = 1 ∧ ∃ cell, Threaded producer s cell 0
  | .finishing _ => s.permits = 0 ∧ Ended producer s
  | .entered | .waiting | .returned _ => False

/-- Who has the job. -/
inductive Stage where
  | unstarted
  | starting (call : Nat)
  | running
  | retiring (call : Nat)
  | joined (result : ShutdownResult)

def Stage.owner : Stage → Option Nat
  | .starting call | .retiring call => some call
  | .unstarted | .running | .joined _ => none

def Stage.result : Stage → Option ShutdownResult
  | .joined result => some result
  | .unstarted | .starting _ | .running | .retiring _ => none

def Held (s : Source P) : Stage → Prop
  | .unstarted => s.slot = .unstarted producer ∧ s.holder = none ∧ s.permits = 0 ∧ Fresh s
  | .starting call => s.holder = some call ∧
    ∃ pc, s.calls[call]? = some (.start pc) ∧ StartHeld producer s pc
  | .running => s.slot = .running 0 ∧ s.holder = none ∧ s.permits = 1 ∧
    ∃ cell, Threaded producer s cell 0
  | .retiring call => s.slot = .joining ∧ s.holder = none ∧
    ∃ pc, s.calls[call]? = some (.finish pc) ∧ RetiringHeld producer s pc
  | .joined result => s.slot = .joined result ∧ s.holder = none ∧ s.permits = 0 ∧
    Ended producer s

end

variable {producer : P}

/-- What a call that does not own the job may be doing; `joined` is the result so far. -/
def Plain (joined : Option ShutdownResult) : CallPc P → Prop
  | .start .entered | .start .warm | .start .cold | .start (.returned _) => True
  | .start _ => False
  | .finish .entered | .finish .waiting => True
  | .finish (.returned result) => joined = some result
  | .finish _ => False

/-- The job has one place, and every other call is without it. -/
structure Inv (producer : P) (s : Source P) : Prop where
  faulted : s.faulted = false
  lost    : s.lost = []
  stage   : ∃ stage, Held producer s stage ∧
    ∀ call pc, s.calls[call]? = some pc → stage.owner ≠ some call → Plain stage.result pc

theorem Plain.mono {pc : CallPc P} (h : Plain none pc) (joined : Option ShutdownResult) :
    Plain joined pc := by
  cases pc with
  | start pc => cases pc <;> exact h
  | finish pc =>
    cases pc with
    | entered | waiting | retiring | finishing => exact h
    | returned result => cases h

theorem Held.owner_ne {stage : Stage} (h : Held producer s stage) {pc : CallPc P}
    {joined : Option ShutdownResult} (hcall : s.calls[call]? = some pc) (hplain : Plain joined pc) :
    stage.owner ≠ some call := by
  cases stage with
  | unstarted | running | joined => rintro ⟨⟩
  | starting owner =>
    rintro ⟨⟩
    obtain ⟨-, own, hown, hheld⟩ := h
    rw [hcall] at hown
    cases hown
    cases own <;> first | exact hheld | exact hplain
  | retiring owner =>
    rintro ⟨⟩
    obtain ⟨-, -, own, hown, hheld⟩ := h
    rw [hcall] at hown
    cases hown
    cases own <;> first | exact hheld | exact hplain

variable {s' : Source P}

theorem inv_of_call (stage : Stage) {pc : CallPc P}
    (hothers : ∀ other pc, other ≠ call → stage.owner ≠ some other → s.calls[other]? = some pc →
      Plain stage.result pc) (hcalls : s'.calls = s.calls.set call pc)
    (hfaulted : s'.faulted = false) (hlost : s'.lost = []) (hheld : Held producer s' stage)
    (hcall : stage.owner = some call ∨ Plain stage.result pc) : Inv producer s' := by
  refine ⟨hfaulted, hlost, stage, hheld, ?_⟩
  intro other pc' hother howner
  rw [hcalls, getElem?_set] at hother
  by_cases hsame : call = other
  · subst hsame
    rw [if_pos rfl] at hother
    split at hother
    next =>
      cases hother
      exact hcall.resolve_left howner
    next => cases hother
  · rw [if_neg hsame] at hother
    exact hothers other pc' (Ne.symm hsame) howner hother

-- ---- The thread.

/-- What a thread leaves alone. -/
structure ByThread (s s' : Source P) : Prop where
  slot    : s'.slot = s.slot
  holder  : s'.holder = s.holder
  permits : s'.permits = s.permits
  calls   : s'.calls = s.calls
  lost    : s'.lost = s.lost
  faulted : s'.faulted = s.faulted

variable {handle : Nat} {panicked : Bool}

/-- **The thread takes the job once**, and destroys nothing. -/
theorem Threaded.step {shared : Nat} (hs : Threaded producer s cell shared) {thread : Thread P}
    (hthread : s.threads[handle]? = some thread)
    (h : s.stepThread handle panicked thread = some s') :
    Threaded producer s' cell shared ∧ ByThread s s' := by
  obtain ⟨⟨own, hthreads, hok⟩, hdestroyed⟩ := hs
  obtain ⟨rfl, rfl⟩ : handle = 0 ∧ thread = own := by
    rw [hthreads] at hthread
    cases handle with
    | zero =>
      cases hthread
      exact ⟨rfl, rfl⟩
    | succ handle => cases hthread
  have hset (next : Thread P) : s.threads.set 0 next = [next] := by
    rw [hthreads]
    rfl
  cases thread with
  | created own =>
    obtain ⟨rfl, hcell, hran⟩ := hok
    obtain ⟨cells, htake, hcells⟩ := Source.takeCell_eq hcell
    unfold Source.stepThread at h
    dsimp only at h
    rw [htake] at h
    cases h
    exact ⟨⟨⟨_, hset _, rfl, ⟨_, hcells⟩, congrArg (· ++ [producer]) hran⟩, hdestroyed⟩,
      rfl, rfl, rfl, rfl, rfl, rfl⟩
  | running own job =>
    obtain ⟨rfl, htaken⟩ := hok
    cases h
    exact ⟨⟨⟨_, hset _, rfl, htaken⟩, hdestroyed⟩, rfl, rfl, rfl, rfl, rfl, rfl⟩
  | completing own =>
    obtain ⟨rfl, ⟨owners, hcell⟩, hran⟩ := hok
    obtain ⟨cells, hrelease, hcells⟩ := Source.release_eq
      (s := { s with threads := s.threads.set 0 (.exited panicked) }) hcell (fun _ => rfl)
    unfold Source.stepThread at h
    dsimp only at h
    rw [hrelease] at h
    cases h
    exact ⟨⟨⟨_, hset _, ⟨_, hcells⟩, hran⟩, hdestroyed⟩, rfl, rfl, rfl, rfl, rfl, rfl⟩
  | exited result => cases h

theorem Fresh.no_thread (h : Fresh s) {thread : Thread P}
    (hthread : s.threads[handle]? = some thread) : False := by
  rw [h.1] at hthread
  cases hthread

/-- The thread runs while its start is still under way. -/
theorem StartHeld.thread (hs : StartHeld producer s pc) {thread : Thread P}
    (hthread : s.threads[handle]? = some thread)
    (h : s.stepThread handle panicked thread = some s') :
    StartHeld producer s' pc ∧ ByThread s s' := by
  cases pc with
  | unstarted owner | reserved owner | registered owner | failed owner =>
    exact (hs.2.2.2.no_thread hthread).elim
  | captured owner =>
    obtain ⟨cell, -, -, -, -, hfresh⟩ := hs
    exact (hfresh.no_thread hthread).elim
  | spawning owner run launched =>
    cases launched with
    | none => exact (hs.2.2.2.2.no_thread hthread).elim
    | some launched =>
      obtain ⟨howner, hhandle, hslot, hpermits, hthreaded⟩ := hs
      obtain ⟨hthreaded, hby⟩ := hthreaded.step hthread h
      exact ⟨⟨howner, hhandle, hby.slot.trans hslot, hby.permits.trans hpermits, hthreaded⟩, hby⟩
  | started owner =>
    obtain ⟨howner, hslot, hpermits, cell, hthreaded⟩ := hs
    obtain ⟨hthreaded, hby⟩ := hthreaded.step hthread h
    exact ⟨⟨howner, hby.slot.trans hslot, hby.permits.trans hpermits, cell, hthreaded⟩, hby⟩
  | installed =>
    obtain ⟨hslot, hpermits, cell, hthreaded⟩ := hs
    obtain ⟨hthreaded, hby⟩ := hthreaded.step hthread h
    exact ⟨⟨hby.slot.trans hslot, hby.permits.trans hpermits, cell, hthreaded⟩, hby⟩
  | stopping => exact (hs.2.2.no_thread hthread).elim
  | entered | warm | cold | returned => exact hs.elim

theorem Ended.no_thread (h : Ended producer s) {thread : Thread P}
    (hthread : s.threads[handle]? = some thread)
    (hstep : s.stepThread handle panicked thread = some s') : False := by
  rcases h with ⟨hthreads, -, -⟩ | ⟨⟨result, hthreads⟩, -, -⟩
  · rw [hthreads] at hthread
    cases hthread
  · rw [hthreads] at hthread
    cases handle with
    | zero =>
      cases hthread
      cases hstep
    | succ handle => cases hthread

theorem RetiringHeld.thread {pc : FinishPc P} (hs : RetiringHeld producer s pc) {thread : Thread P}
    (hthread : s.threads[handle]? = some thread)
    (h : s.stepThread handle panicked thread = some s') :
    RetiringHeld producer s' pc ∧ ByThread s s' := by
  cases pc with
  | retiring worker =>
    cases worker with
    | unstarted own => exact (hs.2.2.no_thread hthread).elim
    | running own =>
      obtain ⟨hhandle, hpermits, cell, hthreaded⟩ := hs
      obtain ⟨hthreaded, hby⟩ := hthreaded.step hthread h
      exact ⟨⟨hhandle, hby.permits.trans hpermits, cell, hthreaded⟩, hby⟩
  | finishing result => exact (hs.2.no_thread hthread h).elim
  | entered | waiting | returned => exact hs.elim

theorem Inv.thread (hs : Inv producer s) {thread : Thread P}
    (hthread : s.threads[handle]? = some thread)
    (h : s.stepThread handle panicked thread = some s') : Inv producer s' := by
  obtain ⟨hfaulted, hlost, stage, hheld, hothers⟩ := hs
  obtain ⟨hheld, hby⟩ : Held producer s' stage ∧ ByThread s s' := by
    cases stage with
    | unstarted => exact (hheld.2.2.2.no_thread hthread).elim
    | starting owner =>
      obtain ⟨hholder, pc, hpc, hstart⟩ := hheld
      obtain ⟨hstart, hby⟩ := hstart.thread hthread h
      exact ⟨⟨hby.holder.trans hholder, pc, by rw [hby.calls, hpc], hstart⟩, hby⟩
    | running =>
      obtain ⟨hslot, hholder, hpermits, cell, hthreaded⟩ := hheld
      obtain ⟨hthreaded, hby⟩ := hthreaded.step hthread h
      exact ⟨⟨hby.slot.trans hslot, hby.holder.trans hholder, hby.permits.trans hpermits, cell,
        hthreaded⟩, hby⟩
    | retiring owner =>
      obtain ⟨hslot, hholder, pc, hpc, hretiring⟩ := hheld
      obtain ⟨hretiring, hby⟩ := hretiring.thread hthread h
      exact ⟨⟨hby.slot.trans hslot, hby.holder.trans hholder, pc, by rw [hby.calls, hpc],
        hretiring⟩, hby⟩
    | joined result => exact (hheld.2.2.2.no_thread hthread h).elim
  refine ⟨hby.faulted.trans hfaulted, hby.lost.trans hlost, stage, hheld, ?_⟩
  rw [hby.calls]
  exact hothers

-- ---- The calls.

/-- A call without the job that stays without it, whatever happens to `closed`. -/
theorem Inv.goto_plain (hs : Inv producer s) {pc : CallPc P} (hcall : s.calls[call]? = some pc)
    (hplain : Plain none pc) (pc' : CallPc P)
    (hplain' : ∀ stage, Held producer s stage → Plain stage.result pc') (closed : Bool) :
    Inv producer ({ s with closed := closed }.goto call pc') := by
  obtain ⟨hfaulted, hlost, stage, hheld, hothers⟩ := hs
  have howner := hheld.owner_ne hcall hplain
  have hkept {other : Nat} (hother : stage.owner = some other) :
      (s.calls.set call pc')[other]? = s.calls[other]? := by
    refine getElem?_set_ne ?_
    rintro rfl
    exact howner hother
  refine inv_of_call stage ?_ rfl hfaulted hlost ?_ (Or.inr (hplain' stage hheld))
  · exact fun other pc _ hother hpc => hothers other pc hpc hother
  · cases stage with
    | unstarted | running | joined => exact hheld
    | starting owner =>
      obtain ⟨hholder, own, hown, hstart⟩ := hheld
      exact ⟨hholder, own, (hkept rfl).trans hown, hstart⟩
    | retiring owner =>
      obtain ⟨hslot, hholder, own, hown, hretiring⟩ := hheld
      exact ⟨hslot, hholder, own, (hkept rfl).trans hown, hretiring⟩

/-- What a step of the start that holds the lock does. -/
structure StartMoved (producer : P) (call : Nat) (s s' : Source P) (next : StartPc P) : Prop where
  calls   : s'.calls = s.calls.set call (.start next)
  faulted : s'.faulted = s.faulted
  lost    : s'.lost = s.lost
  place   : (s'.holder = some call ∧ StartHeld producer s' next) ∨
    ∃ result, next = .returned result ∧
      ((Held producer s' .unstarted ∧ result ≠ .ok) ∨ Held producer s' .running)

theorem Threaded.release (h : Threaded producer s cell 1) :
    ∃ cells, s.release cell = { s with cells := cells } ∧
      Threaded producer { s with cells := cells } cell 0 := by
  obtain ⟨⟨thread, hthreads, hok⟩, hdestroyed⟩ := h
  have htaken (htaken : Taken producer s cell) : ∃ cells,
      s.release cell = { s with cells := cells } ∧
        Taken producer { s with cells := cells } cell := by
    obtain ⟨⟨owners, hcell⟩, hran⟩ := htaken
    obtain ⟨cells, hrelease, hcells⟩ := Source.release_eq hcell (fun _ => rfl)
    exact ⟨cells, hrelease, ⟨_, hcells⟩, hran⟩
  cases thread with
  | created own =>
    obtain ⟨hown, hcell, hran⟩ := hok
    obtain ⟨cells, hrelease, hcells⟩ := Source.release_eq hcell nofun
    exact ⟨cells, hrelease, ⟨_, hthreads, hown, hcells, hran⟩, hdestroyed⟩
  | running own job | completing own =>
    obtain ⟨cells, hrelease, hkept⟩ := htaken hok.2
    exact ⟨cells, hrelease, ⟨_, hthreads, hok.1, hkept⟩, hdestroyed⟩
  | exited result =>
    obtain ⟨cells, hrelease, hkept⟩ := htaken hok
    exact ⟨cells, hrelease, ⟨_, hthreads, hkept⟩, hdestroyed⟩

variable {outcome : Outcome}

/-- **The owners of a start** pass the job on, put it back, or leave it to a thread. -/
theorem StartHeld.step (hs : StartHeld producer s pc) (hholder : s.holder = some call)
    (h : s.stepStart call outcome pc = some s') : ∃ next, StartMoved producer call s s' next := by
  cases pc with
  | entered | warm | cold | returned => exact hs.elim
  | unstarted owner =>
    obtain ⟨rfl, hslot, hpermits, hfresh⟩ := hs
    cases outcome with
    | ok =>
      cases h
      exact ⟨_, rfl, rfl, rfl, Or.inl ⟨hholder, rfl, hslot, congrArg (· + 1) hpermits, hfresh⟩⟩
    | error error =>
      cases h
      exact ⟨_, rfl, rfl, rfl, Or.inr ⟨_, rfl, Or.inl ⟨⟨rfl, rfl, hpermits, hfresh⟩, nofun⟩⟩⟩
    | unwind => cases h
  | reserved owner =>
    obtain ⟨rfl, hslot, hpermits, hfresh⟩ := hs
    have hback (result : StartResult) (hresult : result ≠ .ok)
        (h : some (({ s with permits := s.permits - 1 }.dropUnstarted
          ⟨true, some producer⟩).leave call result) = some s') :
        ∃ next, StartMoved producer call s s' next := by
      cases h
      exact ⟨_, rfl, rfl, rfl, Or.inr ⟨_, rfl,
        Or.inl ⟨⟨rfl, rfl, congrArg (· - 1) hpermits, hfresh⟩, hresult⟩⟩⟩
    unfold Source.stepStart at h
    dsimp only at h
    cases hregister : s.register outcome with
    | ok =>
      rw [hregister] at h
      cases h
      exact ⟨_, rfl, rfl, rfl, Or.inl ⟨hholder, rfl, hslot, hpermits, hfresh⟩⟩
    | error error | native | unwound =>
      rw [hregister] at h
      exact hback _ (by rintro ⟨⟩) h
  | registered owner =>
    obtain ⟨rfl, hslot, hpermits, hfresh⟩ := hs
    cases h
    exact ⟨_, rfl, rfl, rfl, Or.inl ⟨hholder, s.cells.length, rfl,
      getElem?_concat_length, hslot, hpermits, hfresh⟩⟩
  | captured owner =>
    obtain ⟨cell, rfl, hcell, hslot, hpermits, hfresh⟩ := hs
    cases outcome with
    | ok =>
      cases h
      exact ⟨_, rfl, rfl, rfl,
        Or.inl ⟨hholder, rfl, Source.retain_cell hcell, hslot, hpermits, hfresh⟩⟩
    | unwind =>
      -- The job is taken out of its cell before the last owner goes.
      obtain ⟨cells, htake, hcells⟩ :=
        Source.takeCell_eq (s := { s with permits := s.permits - 1 }) hcell
      obtain ⟨cells', hrelease, -⟩ := Source.release_eq
        (s := { s with permits := s.permits - 1, cells := cells, slot := .unstarted producer })
        hcells (fun _ => rfl)
      unfold Source.stepStart Source.dropStart at h
      dsimp only at h
      rw [if_pos rfl, htake] at h
      dsimp only at h
      rw [hrelease] at h
      cases h
      exact ⟨_, rfl, rfl, rfl, Or.inr ⟨_, rfl,
        Or.inl ⟨⟨rfl, rfl, congrArg (· - 1) hpermits, hfresh⟩, nofun⟩⟩⟩
    | error error => cases h
  | spawning owner run handle =>
    cases handle with
    | none =>
      obtain ⟨rfl, hcell, hslot, hpermits, hfresh⟩ := hs
      cases outcome with
      | ok =>
        cases h
        refine ⟨_, rfl, rfl, rfl, Or.inl ⟨hholder, rfl, ?_, hslot, hpermits, ?_⟩⟩
        · rw [hfresh.1]
          rfl
        · refine ⟨⟨.created run, ?_, rfl, hcell, hfresh.2.1⟩, hfresh.2.2⟩
          show s.threads ++ _ = _
          rw [hfresh.1]
          rfl
      | error error =>
        -- The closure's share goes first, then the job comes out.
        obtain ⟨cells, hrelease, hcells⟩ := Source.release_eq hcell nofun
        obtain ⟨cells', htake, hcells'⟩ := Source.takeCell_eq
          (s := { s with permits := s.permits - 1, cells := cells }) hcells
        obtain ⟨cells'', hrelease', -⟩ := Source.release_eq
          (s := { s with permits := s.permits - 1, cells := cells' }) hcells' (fun _ => rfl)
        unfold Source.stepStart Source.spawnFailed at h
        dsimp only at h
        rw [hrelease] at h
        dsimp only at h
        rw [htake] at h
        dsimp only at h
        rw [hrelease'] at h
        cases h
        exact ⟨_, rfl, rfl, rfl, Or.inl ⟨hholder, rfl, hslot, congrArg (· - 1) hpermits, hfresh⟩⟩
      | unwind => cases h
    | some handle =>
      obtain ⟨rfl, rfl, hslot, hpermits, hthreaded⟩ := hs
      obtain ⟨cells, hrelease, hthreaded⟩ := hthreaded.release
      unfold Source.stepStart Source.spawned at h
      dsimp only at h
      rw [hrelease] at h
      cases h
      exact ⟨_, rfl, rfl, rfl, Or.inl ⟨hholder, rfl, hslot, hpermits, run, hthreaded⟩⟩
  | started owner =>
    obtain ⟨rfl, hslot, hpermits, cell, hthreaded⟩ := hs
    cases outcome with
    | ok =>
      cases h
      exact ⟨_, rfl, rfl, rfl, Or.inl ⟨hholder, rfl, hpermits, cell, hthreaded⟩⟩
    | unwind =>
      cases h
      exact ⟨_, rfl, rfl, rfl, Or.inr ⟨_, rfl, Or.inr ⟨rfl, rfl, hpermits, cell, hthreaded⟩⟩⟩
    | error error => cases h
  | installed =>
    obtain ⟨hslot, hpermits, cell, hthreaded⟩ := hs
    cases h
    exact ⟨_, rfl, rfl, rfl, Or.inr ⟨_, rfl, Or.inr ⟨hslot, rfl, hpermits, cell, hthreaded⟩⟩⟩
  | failed owner =>
    obtain ⟨rfl, hslot, hpermits, hfresh⟩ := hs
    cases h
    exact ⟨_, rfl, rfl, rfl, Or.inl ⟨hholder, rfl, hpermits, hfresh⟩⟩
  | stopping =>
    obtain ⟨hslot, hpermits, hfresh⟩ := hs
    cases h
    exact ⟨_, rfl, rfl, rfl, Or.inr ⟨_, rfl, Or.inl ⟨⟨hslot, rfl, hpermits, hfresh⟩, nofun⟩⟩⟩

/-- The calls beside one that owns the job, or takes it from the slot, have no result yet. -/
theorem plain_others (stage : Stage)
    (hothers : ∀ call pc, s.calls[call]? = some pc → stage.owner ≠ some call →
      Plain stage.result pc) (hresult : stage.result = none)
    (howner : stage.owner = some call ∨ stage.owner = none) (next : Stage) :
    ∀ other pc, other ≠ call → next.owner ≠ some other → s.calls[other]? = some pc →
      Plain next.result pc := by
  intro other pc hne _ hother
  have hnot : stage.owner ≠ some other := by
    rcases howner with howner | howner
    · rw [howner]
      exact fun h => hne (Option.some.inj h).symm
    · rw [howner]
      rintro ⟨⟩
  have hplain := hothers other pc hother hnot
  rw [hresult] at hplain
  exact hplain.mono _

theorem Inv.starting (hs : Inv producer s) (hcall : s.calls[call]? = some (.start pc))
    (hpc : ∀ joined, ¬Plain joined (.start pc)) : s.holder = some call ∧ StartHeld producer s pc ∧
      ∀ other pc, s.calls[other]? = some pc → (Stage.starting call).owner ≠ some other →
        Plain none pc := by
  obtain ⟨-, -, stage, hheld, hothers⟩ := hs
  have howner : stage.owner = some call :=
    not_not.mp fun hne => hpc _ (hothers call _ hcall hne)
  cases stage with
  | unstarted | running | joined => cases howner
  | starting owner =>
    cases howner
    obtain ⟨hholder, own, hown, hstart⟩ := hheld
    rw [hcall] at hown
    cases hown
    exact ⟨hholder, hstart, hothers⟩
  | retiring owner =>
    cases howner
    obtain ⟨-, -, own, hown, -⟩ := hheld
    rw [hcall] at hown
    cases hown

theorem inv_of_owner (hs : Inv producer s) {pc pc' : CallPc P} (hcall : s.calls[call]? = some pc)
    (hothers : ∀ (other : Nat) (pc : CallPc P), s.calls[other]? = some pc →
      some call ≠ some other → Plain none pc) (hcalls : s'.calls = s.calls.set call pc')
    (hfaulted : s'.faulted = s.faulted) (hlost : s'.lost = s.lost) (next : Stage)
    (howner : next.owner = some call) (hheld : s'.calls[call]? = some pc' → Held producer s' next) :
    Inv producer s' := by
  have hnext : s'.calls[call]? = some pc' := by
    rw [hcalls, getElem?_set_self']
    rw [hcall]
    rfl
  exact inv_of_call next (fun other pc _ hne hpc => (hothers other pc hpc (howner ▸ hne)).mono _) hcalls
    (hfaulted.trans hs.faulted) (hlost.trans hs.lost) (hheld hnext) (Or.inl howner)

theorem Inv.start_held (hs : Inv producer s) (hcall : s.calls[call]? = some (.start pc))
    (hpc : ∀ joined, ¬Plain joined (.start pc)) (h : s.stepStart call outcome pc = some s') :
    Inv producer s' := by
  obtain ⟨hholder, hheld, hothers⟩ := hs.starting hcall hpc
  obtain ⟨next, hcalls, hfaulted, hlost, hplace⟩ := hheld.step hholder h
  have hplain := plain_others (.starting call) hothers rfl (Or.inl rfl)
  rcases hplace with ⟨hholder', hheld'⟩ | ⟨result, rfl, ⟨hheld', -⟩ | hheld'⟩
  · exact inv_of_owner hs hcall hothers hcalls hfaulted hlost (.starting call) rfl
      fun hnext => ⟨hholder', next, hnext, hheld'⟩
  · exact inv_of_call .unstarted (hplain .unstarted) hcalls (hfaulted.trans hs.faulted)
      (hlost.trans hs.lost) hheld' (Or.inr trivial)
  · exact inv_of_call .running (hplain .running) hcalls (hfaulted.trans hs.faulted)
      (hlost.trans hs.lost) hheld' (Or.inr trivial)

theorem Inv.retiring (hs : Inv producer s) {pc : FinishPc P}
    (hcall : s.calls[call]? = some (.finish pc)) (hpc : ∀ joined, ¬Plain joined (.finish pc)) :
    s.slot = .joining ∧ s.holder = none ∧ RetiringHeld producer s pc ∧
      ∀ other pc, s.calls[other]? = some pc → (Stage.retiring call).owner ≠ some other →
        Plain none pc := by
  obtain ⟨-, -, stage, hheld, hothers⟩ := hs
  have howner : stage.owner = some call :=
    not_not.mp fun hne => hpc _ (hothers call _ hcall hne)
  cases stage with
  | unstarted | running | joined => cases howner
  | starting owner =>
    cases howner
    obtain ⟨-, own, hown, -⟩ := hheld
    rw [hcall] at hown
    cases hown
  | retiring owner =>
    cases howner
    obtain ⟨hslot, hholder, own, hown, hretiring⟩ := hheld
    rw [hcall] at hown
    cases hown
    exact ⟨hslot, hholder, hretiring, hothers⟩

variable (producer) in
/-- What the slot tells about the rest while nobody has the lock. -/
def SlotOk (s : Source P) : Worker P → Prop
  | .unstarted own => own = producer ∧ s.permits = 0 ∧ Fresh s ∧
    ∀ (call : Nat) (pc : CallPc P), s.calls[call]? = some pc → Plain none pc
  | .running handle => handle = 0 ∧ s.permits = 1 ∧ (∃ cell, Threaded producer s cell 0) ∧
    ∀ (call : Nat) (pc : CallPc P), s.calls[call]? = some pc → Plain none pc
  | .joining => True
  | .joined result => Ended producer s ∧ ∀ stage, Held producer s stage → stage = .joined result

theorem Inv.slotOk (hs : Inv producer s) (hholder : s.holder = none) :
    SlotOk producer s s.slot := by
  obtain ⟨-, -, stage, hheld, hothers⟩ := hs
  cases stage with
  | starting owner =>
    rw [hheld.1] at hholder
    cases hholder
  | unstarted | running =>
    obtain ⟨hslot, -, hpermits, hown⟩ := hheld
    rw [hslot]
    exact ⟨rfl, hpermits, hown, fun call pc hpc => hothers call pc hpc nofun⟩
  | retiring owner =>
    rw [hheld.1]
    trivial
  | joined result =>
    obtain ⟨hslot, -, -, hended⟩ := hheld
    rw [hslot]
    refine ⟨hended, fun other hother => ?_⟩
    cases other with
    | starting owner =>
      rw [hother.1] at hholder
      cases hholder
    | unstarted | running | retiring =>
      have hslot' := hother.1
      rw [hslot] at hslot'
      cases hslot'
    | joined other =>
      have hslot' := hother.1
      rw [hslot] at hslot'
      cases hslot'
      rfl

/-- **A start** keeps the job in one place. -/
theorem Inv.start (hs : Inv producer s) (hcall : s.calls[call]? = some (.start pc))
    (h : s.stepStart call outcome pc = some s') : Inv producer s' := by
  have hplain {pc' : StartPc P} (hpc : Plain none (.start pc))
      (hpc' : Plain none (.start pc')) : Inv producer (s.goto call (.start pc')) :=
    hs.goto_plain hcall hpc _ (fun _ _ => hpc'.mono _) s.closed
  cases pc with
  | entered =>
    cases h
    exact hplain trivial (by split <;> trivial)
  | warm =>
    cases h
    exact hplain trivial trivial
  | cold =>
    unfold Source.stepStart at h
    dsimp only at h
    split at h
    next => cases h
    next hfree =>
      have hholder : s.holder = none := not_not.mp hfree
      have hslot := hs.slotOk hholder
      split at h
      next =>
        cases h
        exact hplain trivial trivial
      next =>
        cases hworker : s.slot with
        | unstarted own =>
          rw [hworker] at h hslot
          obtain ⟨rfl, hpermits, hfresh, hothers⟩ := hslot
          cases h
          exact inv_of_owner hs hcall (fun other pc hpc _ => hothers other pc hpc) rfl rfl rfl
            (.starting call) rfl fun hnext => ⟨rfl, _, hnext, rfl, rfl, hpermits, hfresh⟩
        | running handle | joining | joined result =>
          rw [hworker] at h
          cases h
          exact hplain trivial trivial
  | returned result => cases h
  | unstarted owner | reserved owner | registered owner | captured owner
  | spawning owner run handle | started owner | installed | failed owner | stopping =>
    exact hs.start_held hcall (fun _ hpc => hpc.elim) h

/-- **A shutdown** joins the thread or destroys the job. -/
theorem Inv.finish (hs : Inv producer s) {pc : FinishPc P}
    (hcall : s.calls[call]? = some (.finish pc)) (h : s.stepFinish call panicked pc = some s') :
    Inv producer s' := by
  cases pc with
  | entered =>
    cases h
    exact hs.goto_plain hcall trivial (.finish .waiting) (fun _ _ => trivial) true
  | waiting =>
    unfold Source.stepFinish at h
    dsimp only at h
    split at h
    next => cases h
    next hfree =>
      have hholder : s.holder = none := not_not.mp hfree
      have hslot := hs.slotOk hholder
      cases hworker : s.slot with
      | unstarted own | running handle =>
        rw [hworker] at h hslot
        obtain ⟨rfl, hpermits, hown, hothers⟩ := hslot
        cases h
        exact inv_of_owner hs hcall (fun other pc hpc _ => hothers other pc hpc) rfl rfl rfl
          (.retiring call) rfl fun hnext => ⟨rfl, hholder, _, hnext, rfl, hpermits, hown⟩
      | joining =>
        rw [hworker] at h
        cases h
      | joined result =>
        rw [hworker] at h hslot
        cases h
        refine hs.goto_plain hcall trivial (.finish (.returned result)) ?_ s.closed
        intro stage hheld
        rw [hslot.2 stage hheld]
        rfl
  | retiring worker =>
    obtain ⟨hslot, hholder, hheld, hothers⟩ := hs.retiring hcall (fun _ hpc => hpc)
    cases worker with
    | unstarted own =>
      obtain ⟨rfl, hpermits, hfresh⟩ := hheld
      cases h
      exact inv_of_owner hs hcall hothers rfl rfl rfl (.retiring call) rfl
        fun hnext => ⟨hslot, hholder, _, hnext, hpermits,
          Or.inl ⟨hfresh.1, hfresh.2.1, congrArg (· ++ [own]) hfresh.2.2⟩⟩
    | running handle =>
      obtain ⟨rfl, hpermits, cell, ⟨thread, hthreads, hok⟩, hdestroyed⟩ := hheld
      have hthread : s.threads[0]? = some thread := by
        rw [hthreads]
        rfl
      unfold Source.stepFinish at h
      dsimp only at h
      rw [hthread] at h
      cases thread with
      | exited result =>
        cases h
        exact inv_of_owner hs hcall hothers rfl rfl rfl (.retiring call) rfl
          fun hnext => ⟨hslot, hholder, _, hnext, congrArg (· - 1) hpermits,
            Or.inr ⟨⟨result, hthreads⟩, hok.2, hdestroyed⟩⟩
      | created | running | completing => cases h
  | finishing result =>
    obtain ⟨hslot, hholder, ⟨hpermits, hended⟩, hothers⟩ := hs.retiring hcall (fun _ hpc => hpc)
    have hplain := plain_others (.retiring call) hothers rfl (Or.inl rfl)
      (.joined result)
    unfold Source.stepFinish at h
    dsimp only at h
    rw [if_neg (not_not.mpr hholder)] at h
    cases h
    exact inv_of_call (.joined result) hplain rfl hs.faulted hs.lost
      ⟨rfl, hholder, hpermits, hended⟩ (Or.inr rfl)
  | returned result => cases h

-- ---- Runs.

theorem Inv.called (hs : Inv producer s) (pc : CallPc P) (hpc : Plain none pc) :
    Inv producer { s with calls := s.calls ++ [pc] } := by
  obtain ⟨hfaulted, hlost, stage, hheld, hothers⟩ := hs
  have hkept {call : Nat} {own : CallPc P} (hown : s.calls[call]? = some own) :
      (s.calls ++ [pc])[call]? = some own := by
    rw [List.getElem?_append_left (List.getElem_of_getElem? hown).1]
    exact hown
  refine ⟨hfaulted, hlost, stage, ?_, ?_⟩
  · cases stage with
    | unstarted | running | joined => exact hheld
    | starting owner =>
      obtain ⟨hholder, own, hown, hstart⟩ := hheld
      exact ⟨hholder, own, hkept hown, hstart⟩
    | retiring owner =>
      obtain ⟨hslot, hholder, own, hown, hretiring⟩ := hheld
      exact ⟨hslot, hholder, own, hkept hown, hretiring⟩
  · intro call other hcall howner
    rcases getElem?_append.symm.trans hcall with h
    by_cases hlt : call < s.calls.length
    · rw [if_pos hlt] at h
      exact hothers call other h howner
    · rw [if_neg hlt] at h
      have hother : other = pc := mem_singleton.mp (mem_of_getElem? h)
      rw [hother]
      exact hpc.mono _

theorem Inv.step {action : Action} (hs : Inv producer s) (h : s.step action = some s') :
    Inv producer s' := by
  unfold Source.step at h
  rw [if_neg (Bool.not_eq_true _ ▸ hs.faulted)] at h
  cases action with
  | subscribe =>
    cases h
    exact hs.called (.start .entered) trivial
  | shutdown =>
    cases h
    exact hs.called (.finish .entered) trivial
  | requestStop =>
    cases h
    obtain ⟨hfaulted, hlost, stage, hheld, hothers⟩ := hs
    refine ⟨hfaulted, hlost, stage, ?_, hothers⟩
    cases stage <;> exact hheld
  | start call outcome =>
    dsimp only at h
    split at h
    next pc hcall => exact hs.start hcall h
    next => cases h
  | finish call panicked =>
    dsimp only at h
    split at h
    next pc hcall => exact hs.finish hcall h
    next => cases h
  | thread handle panicked =>
    obtain ⟨thread, hthread, hstep⟩ := Option.bind_eq_some_iff.mp h
    exact hs.thread hthread hstep

theorem inv_of_reachable (hs : Reachable Source.step (Source.new producer) s) : Inv producer s := by
  refine hs.invariant (fun _ _ _ hI h => hI.step h) ?_
  exact ⟨rfl, rfl, .unstarted, ⟨rfl, rfl, rfl, rfl, rfl, rfl⟩, by rintro call pc ⟨⟩⟩

-- ---- The job.

variable (producer) in
/-- The job was called or destroyed once at most, and there is one thread at most. -/
def Once (s : Source P) : Prop :=
  (s.ran ++ s.destroyed = [] ∨ s.ran ++ s.destroyed = [producer]) ∧ s.threads.length ≤ 1


theorem Fresh.once (h : Fresh s) (producer : P) : Once producer s := by
  unfold Once
  rw [h.1, h.2.1, h.2.2]
  exact ⟨Or.inl rfl, Nat.zero_le 1⟩

theorem Threaded.once {shared : Nat} (h : Threaded producer s cell shared) : Once producer s := by
  obtain ⟨⟨thread, hthreads, hok⟩, hdestroyed⟩ := h
  unfold Once
  rw [hdestroyed, hthreads, append_nil]
  refine ⟨?_, Nat.le_refl 1⟩
  cases thread with
  | created own => exact Or.inl hok.2.2
  | running own job | completing own => exact Or.inr hok.2.2
  | exited result => exact Or.inr hok.2

theorem Ended.once (h : Ended producer s) : Once producer s := by
  unfold Once
  rcases h with ⟨hthreads, hran, hdestroyed⟩ | ⟨⟨result, hthreads⟩, hran, hdestroyed⟩
  · rw [hthreads, hran, hdestroyed]
    exact ⟨Or.inr rfl, Nat.zero_le 1⟩
  · rw [hthreads, hran, hdestroyed]
    exact ⟨Or.inr rfl, Nat.le_refl 1⟩

theorem StartHeld.once (h : StartHeld producer s pc) : Once producer s := by
  cases pc with
  | unstarted owner | reserved owner | registered owner | failed owner =>
    exact h.2.2.2.once producer
  | captured owner =>
    obtain ⟨cell, -, -, -, -, hfresh⟩ := h
    exact hfresh.once producer
  | spawning owner run handle =>
    cases handle with
    | none => exact h.2.2.2.2.once producer
    | some handle => exact h.2.2.2.2.once
  | started owner =>
    obtain ⟨-, -, -, cell, hthreaded⟩ := h
    exact hthreaded.once
  | installed =>
    obtain ⟨-, -, cell, hthreaded⟩ := h
    exact hthreaded.once
  | stopping => exact h.2.2.once producer
  | entered | warm | cold | returned => exact h.elim

theorem RetiringHeld.once {pc : FinishPc P} (h : RetiringHeld producer s pc) : Once producer s := by
  cases pc with
  | retiring worker =>
    cases worker with
    | unstarted own => exact h.2.2.once producer
    | running handle =>
      obtain ⟨-, -, cell, hthreaded⟩ := h
      exact hthreaded.once
  | finishing result => exact h.2.once
  | entered | waiting | returned => exact h.elim

theorem Inv.once (hs : Inv producer s) : Once producer s := by
  obtain ⟨-, -, stage, hheld, -⟩ := hs
  cases stage with
  | unstarted => exact hheld.2.2.2.once producer
  | starting owner =>
    obtain ⟨-, pc, -, hstart⟩ := hheld
    exact hstart.once
  | running =>
    obtain ⟨-, -, -, cell, hthreaded⟩ := hheld
    exact hthreaded.once
  | retiring owner =>
    obtain ⟨-, -, pc, -, hretiring⟩ := hheld
    exact hretiring.once
  | joined result => exact hheld.2.2.2.once

theorem Inv.unstarted {own : P} (hs : Inv producer s) (hslot : s.slot = .unstarted own) :
    own = producer ∧ Fresh s := by
  obtain ⟨-, -, stage, hheld, -⟩ := hs
  have hne {worker : Worker P} (h : s.slot = worker) (hother : worker ≠ .unstarted own) : False :=
    hother (h.symm.trans hslot)
  cases stage with
  | unstarted =>
    have hown := hheld.1.symm.trans hslot
    cases hown
    exact ⟨rfl, hheld.2.2.2⟩
  | starting owner =>
    obtain ⟨-, pc, -, hstart⟩ := hheld
    cases pc with
    | unstarted owner | reserved owner | registered owner | failed owner | started owner =>
      exact (hne hstart.2.1 nofun).elim
    | captured owner =>
      obtain ⟨cell, -, -, hjoining, -⟩ := hstart
      exact (hne hjoining nofun).elim
    | spawning owner run handle =>
      cases handle with
      | none | some handle => exact (hne hstart.2.2.1 nofun).elim
    | installed => exact (hne hstart.1 nofun).elim
    | stopping =>
      have hown := hstart.1.symm.trans hslot
      cases hown
      exact ⟨rfl, hstart.2.2⟩
    | entered | warm | cold | returned => exact hstart.elim
  | running | retiring owner | joined result => exact (hne hheld.1 nofun).elim

theorem Inv.returned (hs : Inv producer s) {result : ShutdownResult}
    (hcall : s.calls[call]? = some (.finish (.returned result))) :
    s.slot = .joined result ∧ Ended producer s := by
  obtain ⟨-, -, stage, hheld, hothers⟩ := hs
  have howner : stage.owner ≠ some call :=
    hheld.owner_ne hcall (show Plain (some result) _ from rfl)
  have hresult : stage.result = some result := hothers call _ hcall howner
  cases stage with
  | unstarted | starting | running | retiring => cases hresult
  | joined other =>
    cases hresult
    exact ⟨hheld.1, hheld.2.2.2⟩

theorem Inv.of_holder (hs : Inv producer s) (hholder : s.holder = some call) :
    ∃ pc, s.calls[call]? = some (.start pc) ∧ StartHeld producer s pc := by
  obtain ⟨-, -, stage, hheld, -⟩ := hs
  cases stage with
  | unstarted | running | retiring | joined =>
    rw [hheld.2.1] at hholder
    cases hholder
  | starting owner =>
    obtain ⟨howner, pc, hpc, hstart⟩ := hheld
    rw [howner] at hholder
    cases hholder
    exact ⟨pc, hpc, hstart⟩

/-- **One job, one owner.** In every interleaving of subscriptions, stops and shutdowns the job is
called once at most and no `expect` fails; once a shutdown returned, the job was called by the one
thread, which was joined, or destroyed by a shutdown, once; all shutdowns return the same; and a
start that returns before there is a thread failed and left the same job in the slot. -/
theorem worker_ownership_exact (hs : Reachable Source.step (Source.new producer) s) :
    s.faulted = false ∧ s.lost = [] ∧
    (s.ran ++ s.destroyed = [] ∨ s.ran ++ s.destroyed = [producer]) ∧ s.threads.length ≤ 1 ∧
    (∀ own, s.slot = .unstarted own →
      own = producer ∧ s.threads = [] ∧ s.ran = [] ∧ s.destroyed = []) ∧
    (∀ (call : Nat) (result : ShutdownResult),
      s.calls[call]? = some (.finish (.returned result)) → s.slot = .joined result ∧
      ((s.threads = [] ∧ s.ran = [] ∧ s.destroyed = [producer]) ∨
        ((∃ panicked, s.threads = [.exited panicked]) ∧ s.ran = [producer] ∧ s.destroyed = []))) ∧
    (∀ (call call' : Nat) (result result' : ShutdownResult),
      s.calls[call]? = some (.finish (.returned result)) →
      s.calls[call']? = some (.finish (.returned result')) → result = result') ∧
    ∀ (call : Nat) (outcome : Outcome) (s' : Source P) (result : StartResult),
      s.holder = some call → s.step (.start call outcome) = some s' →
      s'.calls[call]? = some (.start (.returned result)) →
      (s'.threads = [] → result ≠ .ok ∧ s'.slot = .unstarted producer) ∧
      (result = .ok → s'.slot = .running 0) := by
  have hI := inv_of_reachable hs
  refine ⟨hI.faulted, hI.lost, hI.once.1, hI.once.2, fun own => hI.unstarted,
    fun call result => hI.returned, ?_, ?_⟩
  · intro call call' result result' hcall hcall'
    have hslot := (hI.returned hcall).1.symm.trans (hI.returned hcall').1
    cases hslot
    rfl
  · intro call outcome s' result hholder hstep hresult
    obtain ⟨pc, hpc, hstart⟩ := hI.of_holder hholder
    unfold Source.step at hstep
    rw [if_neg (Bool.not_eq_true _ ▸ hI.faulted)] at hstep
    dsimp only at hstep
    rw [hpc] at hstep
    obtain ⟨next, hcalls, -, -, hplace⟩ := hstart.step hholder hstep
    have hnext : next = .returned result := by
      rw [hcalls, getElem?_set_self'] at hresult
      rw [hpc] at hresult
      cases hresult
      rfl
    subst hnext
    rcases hplace with ⟨-, hheld⟩ | ⟨result', hresult', ⟨hheld, hne⟩ | hheld⟩
    · exact hheld.elim
    · cases hresult'
      exact ⟨fun _ => ⟨hne, hheld.1⟩, fun h => absurd h hne⟩
    · obtain ⟨hslot, -, -, cell, ⟨thread, hthreads, -⟩, -⟩ := hheld
      refine ⟨fun hnone => ?_, fun _ => hslot⟩
      rw [hthreads] at hnone
      cases hnone

/-- The first subscription starts the worker and is about to return. -/
def startedRun : List Action := .subscribe :: .replicate 9 (.start 0 .ok)

/-- The job runs to its end, and a shutdown joins the thread. -/
def joinedRun : List Action :=
  startedRun ++ .start 0 .ok :: .replicate 3 (.thread 0 false) ++ .shutdown ::
    .replicate 4 (.finish 1 false)

theorem worker_ownership_exact_joinedRun :
    ∃ s s' t : Source Nat, run Source.step (Source.new 7) startedRun = some s ∧
      s.step (.start 0 .ok) = some s' ∧ s'.slot = .running 0 ∧
      run Source.step (Source.new 7) joinedRun = some t ∧ t.slot = .joined .ok ∧
      ((t.threads = [] ∧ t.ran = [] ∧ t.destroyed = [7]) ∨
        ((∃ panicked, t.threads = [.exited panicked]) ∧ t.ran = [7] ∧ t.destroyed = [])) ∧
      t.lost = [] := by
  have hstarted : ((run Source.step (Source.new 7) startedRun).bind fun s =>
      (s.step (.start 0 .ok)).map fun s' => (s.holder, s'.calls[0]?)) =
      some (some 0, some (.start (.returned .ok))) := by
    decide +kernel
  have hjoined : ((run Source.step (Source.new 7) joinedRun).bind fun t => t.calls[1]?) =
      some (.finish (.returned .ok)) := by
    decide +kernel
  obtain ⟨s, hs, hsval⟩ := Option.bind_eq_some_iff.mp hstarted
  obtain ⟨s', hs', hval⟩ := Option.map_eq_some_iff.mp hsval
  obtain ⟨t, ht, htval⟩ := Option.bind_eq_some_iff.mp hjoined
  simp only [Prod.mk.injEq] at hval
  have hstart := (worker_ownership_exact ⟨_, hs⟩).2.2.2.2.2.2.2 0 .ok s' .ok hval.1 hs' hval.2
  have hfinish := worker_ownership_exact ⟨_, ht⟩
  obtain ⟨hslot, hended⟩ := hfinish.2.2.2.2.2.1 1 .ok htval
  exact ⟨s, s', t, hs, hs', hstart.2 rfl, ht, hslot, hended, hfinish.2.1⟩

end SourceWorker

end Xlfn.Subscription
