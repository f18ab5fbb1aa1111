import Mathlib.Data.List.Count
import Mathlib.Algebra.GroupWithZero.Nat
import Xlfn.Lib.Machine

/-!
# Xlfn — deferred destruction

`deferred_drop.rs` keeps the batches of a thread whose destruction has to wait until the
thread runs no cache operation and no initializer. The guards of `cache.rs` flush this queue
when the last of them leaves.

The frames of a thread are the guards it holds and the flushes, loops and destructors it is
in. User code runs outside of all frames, below a guard or inside a destructor: it opens and
leaves scopes and hands batches over as it likes. A scope is left in the same way by a return
and by a panic, and the panic of a destructor ends with that destructor.

* A batch is known by the number of its call of `defer`, which is not in the source.
* `Inv` — a flush, a loop or a destructor starts only where no guard is held, so guards
  are above all other frames.
-/

namespace Xlfn.Cache

open Lib List

namespace Deferred

-- ---- The queue and its thread.

/-- Which `reclaim` destroys a batch: that of retired nodes or that of retired keys. -/
inductive Kind where
  | nodes
  | keys
deriving DecidableEq

structure DeferredDrop (α : Type) where
  id      : Nat
  kind    : Kind
  entries : List α

inductive Frame (α : Type) where
  /-- `CacheOperationGuard`. -/
  | operation
  /-- `ActiveCacheGuard`. -/
  | initialization
  /-- `flush` after it has cleared the flag. -/
  | flushing
  /-- `flush` drops the batches it has taken. -/
  | dropping (pending : List (DeferredDrop α))
  /-- The loop over the entries of a batch. -/
  | reclaiming (entries : List α)
  /-- The destructor of an entry, which contains its panic. -/
  | destructor

structure Thread (α : Type) where
  initializationDepth : Nat
  operationDepth      : Nat
  pending             : List (DeferredDrop α)
  hasPending          : Bool
  stack               : List (Frame α)
  deferred            : Nat
  destroyed           : List Nat
  given               : List α
  dropped             : List α
  failStop            : Bool

variable {α : Type}

/-- The largest depth of operations, a `u32`. -/
def maxDepth : Nat := 0xFFFFFFFF

namespace Thread

def new : Thread α where
  initializationDepth := 0
  operationDepth      := 0
  pending             := []
  hasPending          := false
  stack               := []
  deferred            := 0
  destroyed           := []
  given               := []
  dropped             := []
  failStop            := false

section

variable (t : Thread α)

def destructionDeferred : Bool :=
  t.initializationDepth != 0 || t.operationDepth != 0

def defer (kind : Kind) (entries : List α) : Thread α :=
  { t with
    pending    := t.pending ++ [⟨t.deferred, kind, entries⟩]
    hasPending := true
    deferred   := t.deferred + 1 }

/-- `flush` up to the clearing of the flag. -/
def flush : Thread α :=
  if t.hasPending then { t with hasPending := false, stack := .flushing :: t.stack } else t

/-- The loop of both `reclaim`s. -/
def reclaimEach : List α → Thread α
  | [] => t
  | entries => { t with stack := .reclaiming entries :: t.stack }

/-- `reclaim_cache_entries`, and `reclaim` of `key_retirement.rs`. -/
def reclaim (kind : Kind) (entries : List α) : Thread α :=
  if t.destructionDeferred && !entries.isEmpty then t.defer kind entries
  else t.reclaimEach entries

/-- The drop of a `DeferredDrop`. That of keys calls the function that deferred them. -/
def destroy (batch : DeferredDrop α) : Thread α :=
  match batch.kind with
  | .nodes => t.reclaimEach batch.entries
  | .keys => t.reclaim .keys batch.entries

/-- `CacheOperationGuard::enter`. -/
def enterOperation : Thread α :=
  if t.operationDepth + 1 ≤ maxDepth then
    { t with operationDepth := t.operationDepth + 1, stack := .operation :: t.stack }
  else
    { t with failStop := true }

/-- `ActiveCacheGuard::enter`. Where an initializer is active, it is an error. -/
def enterInitialization : Thread α :=
  if t.initializationDepth ≠ 0 then t
  else { t with initializationDepth := 1, stack := .initialization :: t.stack }

/-- The innermost scope or destructor ends. -/
def leave : Option (Thread α) :=
  match t.stack with
  | .operation :: stack =>
    if t.operationDepth = 0 then
      some { t with failStop := true }
    else
      let t := { t with operationDepth := t.operationDepth - 1, stack }
      some (if t.operationDepth = 0 ∧ t.initializationDepth = 0 then t.flush else t)
  | .initialization :: stack =>
    let t := { t with initializationDepth := 0, stack }
    some (if t.operationDepth = 0 then t.flush else t)
  | .destructor :: stack => some { t with stack }
  | _ => none

/-- A flush or a loop goes on. -/
def proceed : Option (Thread α) :=
  match t.stack with
  | .flushing :: stack => some { t with pending := [], stack := .dropping t.pending :: stack }
  | .dropping (batch :: pending) :: stack =>
    some ({ t with
      destroyed := t.destroyed ++ [batch.id], stack := .dropping pending :: stack }.destroy batch)
  | .reclaiming (entry :: entries) :: stack =>
    some { t with
      dropped := t.dropped ++ [entry]
      stack   := .destructor :: .reclaiming entries :: stack }
  | .dropping [] :: stack | .reclaiming [] :: stack => some { t with stack }
  | _ => none

/-- It is user code's turn. -/
def userCode : Bool :=
  match t.stack with
  | .flushing :: _ | .dropping _ :: _ | .reclaiming _ :: _ => false
  | _ => true

/-- What user code calls. -/
inductive Call (α : Type) where
  | enterOperation
  | enterInitialization
  /-- Entries past their grace period are to be destroyed. -/
  | reclaim (kind : Kind) (entries : List α)
  | defer (kind : Kind) (entries : List α)
  /-- `flush`, which the guards call outside of all scopes only. -/
  | flush

def perform : Call α → Thread α
  | .enterOperation => t.enterOperation
  | .enterInitialization => t.enterInitialization
  | .reclaim kind entries => { t.reclaim kind entries with given := t.given ++ entries }
  | .defer kind entries => { t.defer kind entries with given := t.given ++ entries }
  | .flush => if t.destructionDeferred then t else t.flush

inductive Action (α : Type) where
  | leave
  | proceed
  | call (call : Call α)

def step (action : Action α) : Option (Thread α) :=
  if t.failStop then none else
  match action with
  | .leave => t.leave
  | .proceed => t.proceed
  | .call call => if t.userCode then some (t.perform call) else none

end

end Thread

-- ---- What a thread still holds.

def Frame.isOperation : Frame α → Bool
  | .operation => true
  | _ => false

def Frame.isInitialization : Frame α → Bool
  | .initialization => true
  | _ => false

def Frame.isGuard (frame : Frame α) : Bool := frame.isOperation || frame.isInitialization

/-- The batches of a flush that are still to be destroyed. -/
def Frame.batches : Frame α → List (DeferredDrop α)
  | .dropping pending => pending
  | _ => []

def Frame.entries : Frame α → List α
  | .dropping pending => pending.flatMap DeferredDrop.entries
  | .reclaiming entries => entries
  | _ => []

/-- The steps that a batch takes, with those of its loop. -/
def DeferredDrop.work (batch : DeferredDrop α) : Nat := 2 * batch.entries.length + 2

/-- The steps that a frame takes, with those of the flush that a guard may start. -/
def Frame.work : Frame α → Nat
  | .operation | .initialization => 3
  | .flushing => 2
  | .dropping pending => (pending.map DeferredDrop.work).sum + 1
  | .reclaiming entries => 2 * entries.length + 1
  | .destructor => 1

theorem Frame.empty_of_guard {frame : Frame α} (h : frame.isGuard = true) :
    frame.batches = [] ∧ frame.entries = [] := by
  cases frame <;> first | exact ⟨rfl, rfl⟩ | cases h

namespace Thread

/-- The batches in the queue and in flushes. -/
def batches (t : Thread α) : List (DeferredDrop α) := t.stack.flatMap Frame.batches ++ t.pending

/-- The entries of these batches and of loops. -/
def entries (t : Thread α) : List α :=
  t.stack.flatMap Frame.entries ++ t.pending.flatMap DeferredDrop.entries

def work (t : Thread α) : Nat :=
  (t.stack.map Frame.work).sum + (t.pending.map DeferredDrop.work).sum

/-- A flush has cleared the flag and has yet to take the queue. -/
def isFlushing (t : Thread α) : Prop := ∃ stack, t.stack = .flushing :: stack

variable [DecidableEq α] {t t' : Thread α} {stack : List (Frame α)} {frame : Frame α}

structure Inv (t : Thread α) : Prop where
  operations     : t.operationDepth = t.stack.countP Frame.isOperation
  initialization : t.initializationDepth = t.stack.countP Frame.isInitialization
  guards         : t.stack.Pairwise fun above below => below.isGuard → above.isGuard
  queue          : t.hasPending = false → t.pending = [] ∨ t.isFlushing
  once           : ∀ id, t.destroyed.count id + (t.batches.map DeferredDrop.id).count id =
    (range t.deferred).count id
  kept           : ∀ entry, t.dropped.count entry + t.entries.count entry = t.given.count entry
  bounded        : t.initializationDepth ≤ 1 ∧ t.operationDepth ≤ maxDepth
  stopped        : t.failStop = true → t.operationDepth = maxDepth

theorem Inv.new : Inv (new : Thread α) := by
  constructor <;> simp [Thread.new, batches, entries, maxDepth]

/-- Where a thread is in a flush, a loop or a destructor, it holds no guard. -/
theorem Inv.unguarded (h : Inv t) (hstack : t.stack = frame :: stack)
    (hframe : frame.isGuard = false) : t.operationDepth = 0 ∧ t.initializationDepth = 0 := by
  have hguards := h.guards
  rw [hstack, pairwise_cons] at hguards
  have hnone : ∀ f ∈ t.stack, f.isGuard = false := by
    intro f hf
    rw [hstack] at hf
    rcases mem_cons.mp hf with rfl | hf
    · exact hframe
    · have := hguards.1 f hf
      simp_all
  rw [h.operations, h.initialization, countP_eq_zero, countP_eq_zero]
  simp only [Frame.isGuard, Bool.or_eq_false_iff] at hnone
  constructor
  · intro f hf
    simp [(hnone f hf).1]
  · intro f hf
    simp [(hnone f hf).2]

theorem Inv.free (h : Inv t) (hdeferred : t.destructionDeferred = false) :
    ∀ frame ∈ t.stack, frame.isGuard = false := by
  simp only [destructionDeferred, Bool.or_eq_false_iff, bne_eq_false_iff_eq, h.operations,
    h.initialization, countP_eq_zero] at hdeferred
  intro frame hframe
  rw [Frame.isGuard, Bool.or_eq_false_iff]
  exact ⟨by simpa using hdeferred.2 frame hframe, by simpa using hdeferred.1 frame hframe⟩

-- ---- One lemma for each function.

theorem Inv.flush (h : Inv t) (hdeferred : t.destructionDeferred = false) : Inv t.flush := by
  have hfree := h.free hdeferred
  obtain ⟨hoperations, hinitialization, hguards, hqueue, honce, hkept, hbounded, hstopped⟩ := h
  unfold Thread.flush
  split
  · refine ⟨by simpa [Frame.isOperation], by simpa [Frame.isInitialization],
      pairwise_cons.mpr ⟨fun f hf => ?_, hguards⟩, fun _ => .inr ⟨_, rfl⟩, ?_, ?_, hbounded,
      hstopped⟩
    -- The flush is no guard, and below it there is none.
    · simp [hfree f hf]
    · simpa [batches, Frame.batches] using honce
    · simpa [entries, Frame.entries] using hkept
  · exact ⟨hoperations, hinitialization, hguards, hqueue, honce, hkept, hbounded, hstopped⟩

theorem Inv.defer (h : Inv t) (kind : Kind) (given : List α) :
    Inv { t.defer kind given with given := t.given ++ given } := by
  obtain ⟨hoperations, hinitialization, hguards, hqueue, honce, hkept, hbounded, hstopped⟩ := h
  refine ⟨hoperations, hinitialization, hguards, nofun, fun id => ?_, fun entry => ?_, hbounded,
    hstopped⟩
  · have := honce id
    simp only [batches, Thread.defer, map_append, count_append, map_cons,
      map_nil, range_succ] at this ⊢
    omega
  · have := hkept entry
    simp only [entries, Thread.defer, flatMap_append, count_append, flatMap_cons,
      flatMap_nil, append_nil] at this ⊢
    omega

theorem Inv.idle (h : Inv t) (huser : t.userCode = true) (hflag : t.hasPending = false) :
    t.pending = [] := by
  obtain hempty | ⟨stack, hstack⟩ := h.queue hflag
  · exact hempty
  · simp [userCode, hstack] at huser

theorem Inv.reclaim (h : Inv t) (kind : Kind) (given : List α) (huser : t.userCode = true) :
    Inv { t.reclaim kind given with given := t.given ++ given } := by
  unfold Thread.reclaim
  split
  · exact h.defer kind given
  · rename_i hdeferred
    cases given with
    | nil => simpa [reclaimEach] using h
    | cons entry given =>
      -- The loop starts at once, since no scope is open.
      have hfree := h.free (by simpa using hdeferred)
      have hqueue := h.idle huser
      obtain ⟨hoperations, hinitialization, hguards, -, honce, hkept, hbounded, hstopped⟩ := h
      refine ⟨by simpa [reclaimEach, Frame.isOperation],
        by simpa [reclaimEach, Frame.isInitialization],
        pairwise_cons.mpr ⟨fun f hf => by simp [hfree f hf], hguards⟩,
        fun hflag => .inl (hqueue hflag), ?_, fun e => ?_, hbounded, hstopped⟩
      · simpa [batches, reclaimEach, Frame.batches] using honce
      · have := hkept e
        simp only [entries, reclaimEach, flatMap_cons, Frame.entries, count_append] at this ⊢
        omega

theorem Inv.enterOperation (h : Inv t) (huser : t.userCode = true) (hrun : t.failStop = false) :
    Inv t.enterOperation := by
  have hqueue := h.idle huser
  obtain ⟨hoperations, hinitialization, hguards, -, honce, hkept, hbounded, -⟩ := h
  unfold Thread.enterOperation
  split
  · refine ⟨by simpa [countP_cons, Frame.isOperation], by simpa [Frame.isInitialization],
      pairwise_cons.mpr ⟨fun f _ _ => rfl, hguards⟩, fun hflag => .inl (hqueue hflag), ?_, ?_,
      ⟨hbounded.1, ‹_›⟩, by simp [hrun]⟩
    · simpa [batches, Frame.batches] using honce
    · simpa [entries, Frame.entries] using hkept
  · exact ⟨hoperations, hinitialization, hguards, fun hflag => .inl (hqueue hflag), honce, hkept,
      hbounded, fun _ => by dsimp only; omega⟩

theorem Inv.enterInitialization (h : Inv t) (huser : t.userCode = true) :
    Inv t.enterInitialization := by
  unfold Thread.enterInitialization
  split
  · exact h
  · have hqueue := h.idle huser
    obtain ⟨hoperations, hinitialization, hguards, -, honce, hkept, hbounded, hstopped⟩ := h
    refine ⟨by simpa [Frame.isOperation], ?_,
      pairwise_cons.mpr ⟨fun f _ _ => rfl, hguards⟩, fun hflag => .inl (hqueue hflag), ?_, ?_,
      ⟨Nat.le_refl 1, hbounded.2⟩, hstopped⟩
    · simp only [countP_cons, Frame.isInitialization, if_true]
      omega
    · simpa [batches, Frame.batches] using honce
    · simpa [entries, Frame.entries] using hkept

/-- A guard is left. -/
theorem Inv.pop (h : Inv t) (hstack : t.stack = frame :: stack) (hframe : frame.isGuard = true)
    (hrun : t.failStop = false) {operations initialization : Nat}
    (ho : operations = stack.countP Frame.isOperation)
    (hi : initialization = stack.countP Frame.isInitialization) :
    Inv { t with operationDepth := operations, initializationDepth := initialization, stack } := by
  obtain ⟨hoperations, hinitialization, hguards, hqueue, honce, hkept, hbounded, -⟩ := h
  rw [hstack] at hguards
  rw [hoperations, hinitialization, hstack, countP_cons, countP_cons] at hbounded
  simp only [batches, entries, hstack] at honce hkept
  obtain ⟨hbatches, hentries⟩ := Frame.empty_of_guard hframe
  refine ⟨ho, hi, hguards.of_cons, fun hflag => ?_, ?_, ?_, by dsimp only; omega,
    by simp [hrun]⟩
  · obtain hempty | ⟨rest, hrest⟩ := hqueue hflag
    · exact .inl hempty
    · rw [hstack] at hrest
      cases hrest
      cases hframe
  · simpa [batches, hbatches] using honce
  · simpa [entries, hentries] using hkept

/-- A flush, a loop or a destructor goes on with other frames. -/
theorem Inv.replace (h : Inv t) (hstack : t.stack = frame :: stack)
    (hframe : frame.isGuard = false) (frames : List (Frame α))
    (hframes : (frames.any Frame.isGuard) = false) {pending : List (DeferredDrop α)}
    {destroyed : List Nat} {dropped : List α}
    (hqueue : pending = [] ∨ pending = t.pending ∧ ¬t.isFlushing)
    (honce : ∀ id, destroyed.count id + ((frames.flatMap Frame.batches).map DeferredDrop.id).count id
      + (pending.map DeferredDrop.id).count id = t.destroyed.count id +
        (frame.batches.map DeferredDrop.id).count id + (t.pending.map DeferredDrop.id).count id)
    (hkept : ∀ entry, dropped.count entry + (frames.flatMap Frame.entries).count entry +
      (pending.flatMap DeferredDrop.entries).count entry = t.dropped.count entry +
        frame.entries.count entry + (t.pending.flatMap DeferredDrop.entries).count entry) :
    Inv { t with pending, destroyed, dropped, stack := frames ++ stack } := by
  rw [any_eq_false] at hframes
  have hnone (p : Frame α → Bool) (hp : ∀ f, p f = true → f.isGuard = true) :
      (frames ++ stack).countP p = t.stack.countP p := by
    have hzero : frames.countP p = 0 := countP_eq_zero.mpr fun f hf hpf =>
      hframes f hf (hp f hpf)
    have hnot : ¬p frame = true := fun hpf => absurd (hp frame hpf) (by simp [hframe])
    rw [countP_append, hzero, hstack, countP_cons_of_neg hnot, Nat.zero_add]
  have hguards := h.guards
  rw [hstack, pairwise_cons] at hguards
  refine ⟨?_, ?_, ?_, fun hflag => ?_, fun id => ?_, fun entry => ?_, h.bounded, h.stopped⟩
  · exact h.operations.trans (hnone _ (by simp +contextual [Frame.isGuard])).symm
  · exact h.initialization.trans (hnone _ (by simp +contextual [Frame.isGuard])).symm
  · refine pairwise_append.mpr ⟨?_, hguards.2, fun f _ g hg hguard => ?_⟩
    · exact pairwise_of_forall_mem_list fun f _ g hg hguard => absurd hguard (hframes g hg)
    · exact absurd (hguards.1 g hg hguard) (by simp [hframe])
  · obtain rfl | ⟨rfl, hflushing⟩ := hqueue
    · exact .inl rfl
    · exact .inl ((h.queue hflag).resolve_right hflushing)
  · have := h.once id
    have := honce id
    simp only [batches, hstack, flatMap_cons, flatMap_append, map_append, count_append] at *
    omega
  · have := h.kept entry
    have := hkept entry
    simp only [entries, hstack, flatMap_cons, flatMap_append, count_append] at *
    omega

theorem Inv.leave (h : Inv t) (hrun : t.failStop = false) (hleave : t.leave = some t') :
    Inv t' := by
  unfold Thread.leave at hleave
  split at hleave
  · rename_i stack hstack
    have hdepth := h.operations
    rw [hstack, countP_cons_of_pos rfl] at hdepth
    rw [if_neg (by omega)] at hleave
    cases hleave
    have hinitialization : t.initializationDepth = stack.countP Frame.isInitialization := by
      rw [h.initialization, hstack, countP_cons_of_neg Bool.false_ne_true]
    have hpop := h.pop hstack rfl hrun (Nat.sub_eq_of_eq_add hdepth) hinitialization
    split
    -- The last operation flushes, unless an initializer is active.
    · rename_i hzero
      exact hpop.flush (by simpa [destructionDeferred] using ⟨hzero.2, hzero.1⟩)
    · exact hpop
  · rename_i stack hstack
    cases hleave
    -- At most one initializer is active, so none is left.
    have hone := h.bounded.1
    rw [h.initialization, hstack, countP_cons_of_pos rfl] at hone
    have hoperations : t.operationDepth = stack.countP Frame.isOperation := by
      rw [h.operations, hstack, countP_cons_of_neg Bool.false_ne_true]
    have hinitialization : 0 = stack.countP Frame.isInitialization := by omega
    have hpop := h.pop hstack rfl hrun hoperations hinitialization
    split
    · rename_i hzero
      exact hpop.flush (by simpa [destructionDeferred] using hzero)
    · exact hpop
  · rename_i stack hstack
    cases hleave
    exact h.replace hstack rfl [] rfl (.inr ⟨rfl, by simp [isFlushing, hstack]⟩)
      (fun id => rfl) (fun entry => rfl)
  · cases hleave

omit [DecidableEq α] in
/-- Outside of all scopes a batch is destroyed where it is, also by the function that defers
keys. -/
theorem destroy_eq (hfree : t.destructionDeferred = false) (batch : DeferredDrop α) :
    t.destroy batch = t.reclaimEach batch.entries := by
  unfold destroy
  split
  · rfl
  · simp [reclaim, hfree]

theorem Inv.proceed (h : Inv t) (hproceed : t.proceed = some t') : Inv t' := by
  unfold Thread.proceed at hproceed
  split at hproceed
  · rename_i stack hstack
    cases hproceed
    exact h.replace hstack rfl [.dropping t.pending] rfl (.inl rfl)
      (fun id => by simp [Frame.batches]) (fun entry => by simp [Frame.entries])
  · rename_i batch pending stack hstack
    -- A flush runs outside of all scopes, so even keys are destroyed at once.
    obtain ⟨hoperations, hinitialization⟩ := h.unguarded hstack rfl
    rw [destroy_eq (by simp [destructionDeferred, hoperations, hinitialization])] at hproceed
    cases hproceed
    have hqueue : ¬t.isFlushing := by simp [isFlushing, hstack]
    cases hentries : batch.entries with
    | nil =>
      refine h.replace hstack rfl [.dropping pending] rfl (.inr ⟨rfl, hqueue⟩) (fun id => ?_)
        fun entry => by simp [Frame.entries, hentries]
      simp [Frame.batches, count_cons]
      omega
    | cons entry entries =>
      refine h.replace hstack rfl [.reclaiming (entry :: entries), .dropping pending] rfl
        (.inr ⟨rfl, hqueue⟩) (fun id => ?_) fun entry => ?_
      · simp [Frame.batches, count_cons]
        omega
      · simp [Frame.entries, hentries]
  · rename_i entry entries stack hstack
    -- The destructor runs above the rest of the loop, so what it opens is left before the next.
    cases hproceed
    refine h.replace hstack rfl [.destructor, .reclaiming entries] rfl
      (.inr ⟨rfl, by simp [isFlushing, hstack]⟩) (fun id => by simp [Frame.batches]) fun entry => ?_
    simp [Frame.entries, count_cons]
    omega
  · rename_i stack hstack
    cases hproceed
    exact h.replace hstack rfl [] rfl (.inr ⟨rfl, by simp [isFlushing, hstack]⟩) (fun id => rfl)
      fun entry => rfl
  · rename_i stack hstack
    cases hproceed
    exact h.replace hstack rfl [] rfl (.inr ⟨rfl, by simp [isFlushing, hstack]⟩) (fun id => rfl)
      fun entry => rfl
  · cases hproceed

theorem Inv.perform (h : Inv t) (huser : t.userCode = true) (hrun : t.failStop = false)
    (call : Call α) : Inv (t.perform call) := by
  cases call with
  | enterOperation => exact h.enterOperation huser hrun
  | enterInitialization => exact h.enterInitialization huser
  | reclaim kind entries => exact h.reclaim kind entries huser
  | defer kind entries => exact h.defer kind entries
  | flush =>
    rw [Thread.perform]
    split
    · exact h
    · exact h.flush (Bool.eq_false_iff.mpr ‹_›)

omit [DecidableEq α] in
theorem step_cases {action : Action α} (hs : step t action = some t') :
    t.failStop = false ∧ (t.leave = some t' ∨ t.proceed = some t' ∨
      ∃ call, action = .call call ∧ t.userCode = true ∧ t' = t.perform call) := by
  obtain ⟨hrun, hs⟩ := Option.ite_none_left_eq_some.mp hs
  refine ⟨by simpa using hrun, ?_⟩
  cases action with
  | leave => exact .inl hs
  | proceed => exact .inr (.inl hs)
  | call call =>
    obtain ⟨huser, ⟨⟩⟩ := Option.ite_none_right_eq_some.mp hs
    exact .inr (.inr ⟨call, rfl, huser, rfl⟩)

theorem Inv.step (h : Inv t) {action : Action α} (hs : step t action = some t') : Inv t' := by
  obtain ⟨hrun, hleave | hproceed | ⟨call, -, huser, rfl⟩⟩ := step_cases hs
  · exact h.leave hrun hleave
  · exact h.proceed hproceed
  · exact h.perform huser hrun call

-- ---- What no function of a scope does.

omit [DecidableEq α]

theorem flush_destroyed (t : Thread α) :
    t.flush.destroyed = t.destroyed ∧ t.flush.dropped = t.dropped := by
  unfold flush
  split <;> exact ⟨rfl, rfl⟩

theorem reclaim_destroyed (t : Thread α) (kind : Kind) (entries : List α) :
    (t.reclaim kind entries).destroyed = t.destroyed ∧
      (t.reclaim kind entries).dropped = t.dropped := by
  unfold reclaim
  split
  · exact ⟨rfl, rfl⟩
  · cases entries <;> exact ⟨rfl, rfl⟩

theorem leave_destroyed (h : t.leave = some t') :
    t'.destroyed = t.destroyed ∧ t'.dropped = t.dropped := by
  unfold leave at h
  split at h
  · split at h <;> cases h
    · exact ⟨rfl, rfl⟩
    · split
      · exact flush_destroyed _
      · exact ⟨rfl, rfl⟩
  · cases h
    split
    · exact flush_destroyed _
    · exact ⟨rfl, rfl⟩
  all_goals
    cases h
    try exact ⟨rfl, rfl⟩

theorem perform_destroyed (t : Thread α) (call : Call α) :
    (t.perform call).destroyed = t.destroyed ∧ (t.perform call).dropped = t.dropped := by
  cases call with
  | enterOperation =>
    rw [perform, Thread.enterOperation]
    split <;> exact ⟨rfl, rfl⟩
  | enterInitialization =>
    rw [perform, Thread.enterInitialization]
    split <;> exact ⟨rfl, rfl⟩
  | reclaim kind entries => exact reclaim_destroyed t kind entries
  | defer kind entries => exact ⟨rfl, rfl⟩
  | flush =>
    rw [perform]
    split
    · exact ⟨rfl, rfl⟩
    · exact flush_destroyed t

/-- A batch or an entry is destroyed in a step of a flush or of a loop only. -/
theorem step_destroyed {action : Action α} (hs : step t action = some t') :
    (t'.destroyed = t.destroyed ∧ t'.dropped = t.dropped) ∨
      ∃ frame stack, t.stack = frame :: stack ∧ frame.isGuard = false := by
  obtain ⟨-, hleave | hproceed | ⟨call, -, -, rfl⟩⟩ := step_cases hs
  · exact .inl (leave_destroyed hleave)
  · unfold proceed at hproceed
    split at hproceed
    all_goals first | exact .inr ⟨_, _, ‹_›, rfl⟩ | cases hproceed
  · exact .inl (perform_destroyed t call)

/-- `reclaim` defers under a scope only, and so do its callers. -/
def Scoped (t : Thread α) : Action α → Prop
  | .call (.defer _ _) => t.destructionDeferred = true
  | _ => True

/-- Batches wait for the end of a scope. -/
def Settled (t : Thread α) : Prop := t.hasPending = true → t.destructionDeferred = true

theorem flush_settled (t : Thread α) : t.flush.Settled := by
  unfold flush
  split
  · exact nofun
  · exact fun hflag => absurd hflag ‹_›

theorem reclaim_settled (h : t.Settled) (kind : Kind) (entries : List α) :
    (t.reclaim kind entries).Settled := by
  unfold reclaim
  split
  · exact fun _ => (Bool.and_eq_true_iff.mp ‹_›).1
  · cases entries <;> exact h

theorem leave_settled (h : t.Settled) (hleave : t.leave = some t') : t'.Settled := by
  unfold leave at hleave
  split at hleave
  · split at hleave <;> cases hleave
    · exact h
    · split
      · exact flush_settled _
      · intro _
        simp only [destructionDeferred, Bool.or_eq_true, bne_iff_ne]
        -- Where it does not flush, one of the depths is not zero.
        by_contra hnone
        simp_all
  · cases hleave
    split
    · exact flush_settled _
    · intro _
      simpa [destructionDeferred] using ‹¬_›
  · cases hleave
    exact h
  · cases hleave

theorem destroy_settled (h : t.Settled) (batch : DeferredDrop α) : (t.destroy batch).Settled := by
  unfold destroy
  split
  · cases batch.entries <;> exact h
  · exact reclaim_settled h .keys batch.entries

theorem perform_settled (h : t.Settled) {call : Call α} (hok : t.Scoped (.call call)) :
    (t.perform call).Settled := by
  cases call with
  | enterOperation =>
    rw [perform, Thread.enterOperation]
    split
    · simp [Settled, destructionDeferred]
    · exact h
  | enterInitialization =>
    rw [perform, Thread.enterInitialization]
    split
    · exact h
    · simp [Settled, destructionDeferred]
  | reclaim kind entries => exact reclaim_settled h kind entries
  | defer kind entries => exact fun _ => hok
  | flush =>
    rw [perform]
    split
    · exact h
    · exact flush_settled t

theorem step_settled {action : Action α} (h : t.Settled) (hok : t.Scoped action)
    (hs : step t action = some t') : t'.Settled := by
  obtain ⟨-, hleave | hproceed | ⟨call, rfl, -, rfl⟩⟩ := step_cases hs
  · exact leave_settled h hleave
  · unfold proceed at hproceed
    split at hproceed
    all_goals cases hproceed
    all_goals first | exact h | exact destroy_settled (by exact h) _
  · exact perform_settled h hok

-- ---- Runs without calls.

theorem flush_work (t : Thread α) : t.flush.work ≤ t.work + 2 ∧ t.flush.failStop = t.failStop := by
  unfold flush
  split
  · refine ⟨?_, rfl⟩
    simp only [work, map_cons, sum_cons, Frame.work]
    omega
  · exact ⟨Nat.le_add_right _ _, rfl⟩

theorem reclaimEach_work (t : Thread α) (entries : List α) :
    (t.reclaimEach entries).work ≤ t.work + (2 * entries.length + 1) ∧
      (t.reclaimEach entries).failStop = t.failStop := by
  cases entries with
  | nil => exact ⟨Nat.le_add_right _ _, rfl⟩
  | cons entry entries =>
    refine ⟨?_, rfl⟩
    simp only [work, reclaimEach, map_cons, sum_cons, Frame.work]
    omega

/-- Leaving a scope leaves less to do, with the flush it may start. -/
theorem Inv.leave_work [DecidableEq α] (h : Inv t) (hrun : t.failStop = false)
    (hleave : t.leave = some t') : t'.work < t.work ∧ t'.failStop = false := by
  have hdepth := h.operations
  unfold Thread.leave at hleave
  split at hleave
  next stack hstack =>
    rw [hstack, countP_cons_of_pos rfl] at hdepth
    rw [if_neg (by omega)] at hleave
    cases hleave
    obtain ⟨hflush, hstop⟩ := flush_work { t with operationDepth := t.operationDepth - 1, stack }
    simp only [work, hstack, map_cons, sum_cons, Frame.work] at hflush ⊢
    split
    · exact ⟨by omega, hstop.trans hrun⟩
    · exact ⟨by dsimp only; omega, hrun⟩
  next stack hstack =>
    cases hleave
    obtain ⟨hflush, hstop⟩ := flush_work { t with initializationDepth := 0, stack }
    simp only [work, hstack, map_cons, sum_cons, Frame.work] at hflush ⊢
    split
    · exact ⟨by omega, hstop.trans hrun⟩
    · exact ⟨by dsimp only; omega, hrun⟩
  next stack hstack =>
    cases hleave
    refine ⟨?_, hrun⟩
    simp only [work, hstack, map_cons, sum_cons, Frame.work]
    omega
  next => cases hleave

theorem Inv.proceed_work [DecidableEq α] (h : Inv t) (hrun : t.failStop = false)
    (hproceed : t.proceed = some t') : t'.work < t.work ∧ t'.failStop = false := by
  unfold Thread.proceed at hproceed
  split at hproceed
  case h_2 batch pending stack hstack =>
    obtain ⟨hoperations, hinitialization⟩ := h.unguarded hstack rfl
    rw [destroy_eq (by simp [destructionDeferred, hoperations, hinitialization])] at hproceed
    cases hproceed
    obtain ⟨hloop, hstop⟩ := reclaimEach_work { t with
      destroyed := t.destroyed ++ [batch.id], stack := .dropping pending :: stack } batch.entries
    refine ⟨Nat.lt_of_le_of_lt hloop ?_, hstop.trans hrun⟩
    simp only [work, hstack, map_cons, sum_cons, Frame.work, DeferredDrop.work]
    omega
  case h_6 => cases hproceed
  all_goals
    rename_i hstack
    cases hproceed
    refine ⟨?_, hrun⟩
    simp only [work, hstack, map_cons, sum_cons, Frame.work, map_nil, sum_nil, length_cons]
    omega

/-- The innermost frame can always go on. -/
theorem exists_step (hrun : t.failStop = false) (hstack : t.stack ≠ []) :
    (step t .leave).isSome = true ∨ (step t .proceed).isSome = true := by
  simp only [step, hrun, Bool.false_eq_true, if_false]
  obtain ⟨frame, stack, hstack⟩ := exists_cons_of_ne_nil hstack
  rw [leave, proceed, hstack]
  cases frame with
  | operation =>
    left
    dsimp only
    split <;> rfl
  | initialization | destructor => exact .inl rfl
  | flushing => exact .inr rfl
  | dropping list | reclaiming list =>
    right
    cases list <;> rfl

-- ---- Every run.

/-- **Deferred batches are destroyed once, outside of all scopes.** However a thread nests
operations, initializers and destructors, and whatever it hands over and flushes there,
every batch that was deferred is in one place: in the queue, in a flush that has taken it, or
destroyed; and so is every entry. A step that destroys a batch or an entry starts where both
depths are zero. Where the flag is clear, the queue is empty, except in a flush between the
two. Where besides no flush goes on, every batch has been destroyed; and a thread whose
batches are deferred under scopes is there whenever it has left all of them. It stops only
where the depth of operations is exhausted. -/
theorem deferred_drop_exact [DecidableEq α] {actions : List (Action α)} {t : Thread α}
    (h : run step new actions = some t) :
    (t.destroyed ++ t.batches.map DeferredDrop.id).Perm (range t.deferred) ∧
      (t.dropped ++ t.entries).Perm t.given ∧
      (∀ action t', step t action = some t' → t'.destroyed ≠ t.destroyed ∨ t'.dropped ≠ t.dropped →
          t.operationDepth = 0 ∧ t.initializationDepth = 0) ∧
      (t.hasPending = false → t.pending = [] ∨ t.isFlushing) ∧
      (t.stack = [] → t.hasPending = false ∨ Meets step Scoped new actions →
        t.destroyed.Perm (range t.deferred) ∧ t.dropped.Perm t.given) ∧
      (t.failStop = true → t.operationDepth = maxDepth) := by
  have hinv : Inv t := run_invariant (fun _ _ _ hI hs => hI.step hs) Inv.new h
  have hids : (t.destroyed ++ t.batches.map DeferredDrop.id).Perm (range t.deferred) :=
    perm_iff_count.mpr fun id => by rw [count_append, hinv.once id]
  have hentries : (t.dropped ++ t.entries).Perm t.given :=
    perm_iff_count.mpr fun entry => by rw [count_append, hinv.kept entry]
  refine ⟨hids, hentries, fun action t' hs hchange => ?_, hinv.queue, fun hstack hsettled => ?_,
    hinv.stopped⟩
  · obtain ⟨hdestroyed, hdropped⟩ | ⟨frame, stack, hstack, hframe⟩ := step_destroyed hs
    · exact (hchange.elim (· hdestroyed) (· hdropped)).elim
    · exact hinv.unguarded hstack hframe
  · have hflag : t.hasPending = false := by
      refine hsettled.elim id fun hmeets => ?_
      have := run_invariant_of_meets (I := Settled) (fun _ _ _ hI hok hs => step_settled hI hok hs)
        actions new t nofun hmeets h
      simpa [Settled, destructionDeferred, hinv.operations, hinv.initialization, hstack] using this
    have hempty : t.pending = [] := (hinv.queue hflag).resolve_right (by simp [isFlushing, hstack])
    simpa [batches, entries, hstack, hempty] using And.intro hids hentries

/-- **A thread that calls nothing more leaves all its frames.** However deep they are nested, their
own steps end after `work` of them, and there is one as long as there is a frame. -/
theorem leaves_all_frames [DecidableEq α] {actions rest : List (Action α)}
    (h : run step new actions = some t) (hgo : t.failStop = false)
    (hrest : ∀ action ∈ rest, action = .leave ∨ action = .proceed)
    (hrun : run step t rest = some t') : rest.length + t'.work ≤ t.work ∧ (t'.stack ≠ [] →
      (step t' .leave).isSome = true ∨ (step t' .proceed).isSome = true) := by
  have hinv : Inv t := run_invariant (fun _ _ _ hI hs => hI.step hs) Inv.new h
  clear h
  induction rest generalizing t with
  | nil =>
    cases hrun
    exact ⟨Nat.le_of_eq (Nat.zero_add _), exists_step hgo⟩
  | cons action rest ih =>
    obtain ⟨u, hu, hrun⟩ := Option.bind_eq_some_iff.mp hrun
    obtain ⟨hwork, hstop⟩ : u.work < t.work ∧ u.failStop = false := by
      obtain ⟨-, hleave | hproceed | ⟨call, rfl, -⟩⟩ := step_cases hu
      · exact hinv.leave_work hgo hleave
      · exact hinv.proceed_work hgo hproceed
      · rcases hrest _ mem_cons_self with hcall | hcall <;> cases hcall
    obtain ⟨hlength, hnext⟩ :=
      ih hstop (fun a ha => hrest a (mem_cons_of_mem _ ha)) hrun (hinv.step hu)
    refine ⟨?_, hnext⟩
    rw [length_cons]
    omega

/-- A destructor opens a scope in which another cache is used while an initializer retires a
key. -/
def nested : List (Action Nat) :=
  [.call .enterOperation, .call (.reclaim .nodes [1, 2]), .leave, .proceed, .proceed, .proceed,
    .call .enterOperation, .call .enterInitialization, .call (.reclaim .keys [3]), .leave, .leave,
    .proceed, .proceed, .proceed, .leave, .proceed, .proceed, .leave, .proceed, .leave, .proceed,
    .proceed]

theorem deferred_drop_exact_nested : ∃ t : Thread Nat, run step new nested = some t ∧
    t.stack = [] ∧ t.dropped = [1, 3, 2] ∧ t.destroyed.Perm (range 2) := by
  have hrun : run step (new : Thread Nat) nested = some _ := rfl
  exact ⟨_, hrun, rfl, rfl, ((deferred_drop_exact hrun).2.2.2.2.1 rfl (.inl rfl)).1⟩

theorem leaves_all_frames_nested : ∃ t t' : Thread Nat, run step new (nested.take 2) = some t ∧
    run step t [.leave, .proceed] = some t' ∧ 2 + t'.work ≤ t.work := by
  obtain ⟨t, ht, hgo, t', hrun⟩ : ∃ t : Thread Nat, run step new (nested.take 2) = some t ∧
      t.failStop = false ∧ ∃ t', run step t [.leave, .proceed] = some t' := ⟨_, rfl, rfl, _, rfl⟩
  exact ⟨t, t', ht, hrun, (leaves_all_frames ht hgo (by simp) hrun).1⟩

end Thread

end Deferred

end Xlfn.Cache
