import Mathlib.Algebra.Order.BigOperators.Group.List
import Mathlib.Algebra.Order.Group.Nat
import Xlfn.Kernel.Quota
import Xlfn.Kernel.ReadDomain
import Xlfn.Lib.Table

/-!
# Xlfn — the weight that waits for reclamation

A retired node waits in one of the two queues of its domain until its grace period has ended. The
domain counts the waiting nodes and sums their weights, in cells of their own: enqueueing writes
them under the lock of a queue, accounting for a detached batch under no lock, and a sum that
leaves `u64` only sets a flag until an observer with both locks finds nothing pending.

* `partyStep`, `step` — one access of one call.
* `Inv`               — what the cells say about queues, batches and calls in flight.
-/

namespace Xlfn.Cache.Pending

open Lib Kernel List

-- ---- The cells and the calls.

/-- The cells of `CacheLookupDomain` that count what is pending. Queues hold the weights of their
entries. -/
structure Domain where
  queues        : GenerationIndex → List Nat
  locks         : GenerationIndex → Bool
  pendingNodes  : Nat
  pendingWeight : Nat
  saturated     : Bool

def Domain.setQueue (d : Domain) (queue : GenerationIndex) (entries : List Nat) : Domain :=
  { d with queues := Function.update d.queues queue entries }

def Domain.setLock (d : Domain) (queue : GenerationIndex) (held : Bool) : Domain :=
  { d with locks := Function.update d.locks queue held }

@[simp] theorem Domain.setQueue_self (d : Domain) (queue : GenerationIndex) (entries : List Nat) :
    (d.setQueue queue entries).queues queue = entries := Function.update_self ..

variable {queue : GenerationIndex}

theorem Domain.setQueue_ne (d : Domain) {own : GenerationIndex} (entries : List Nat)
    (h : own ≠ queue) : (d.setQueue queue entries).queues own = d.queues own :=
  Function.update_of_ne h ..

@[simp] theorem Domain.setLock_self (d : Domain) (queue : GenerationIndex) (held : Bool) :
    (d.setLock queue held).locks queue = held := Function.update_self ..

theorem Domain.setLock_ne (d : Domain) {own : GenerationIndex} (held : Bool) (h : own ≠ queue) :
    (d.setLock queue held).locks own = d.locks own :=
  Function.update_of_ne h ..

/-- `pending_weight`. -/
def Domain.reportedWeight (d : Domain) : Nat := if d.saturated then u64Max else d.pendingWeight

/-- The closure of `enqueue`, under the lock of its queue, with `add_pending_weight`. -/
inductive Enqueue where
  | lock
  | append
  | count
  | load
  /-- The closure of `update` reads the flag. -/
  | test (current : Nat)
  /-- The sum has left `u64`. -/
  | saturate (current : Nat)
  | exchange (current next : Nat)
  | answer (previous : Nat)
  | unlock (answer : Nat)

/-- `ReclaimEntries::account`. -/
inductive Account where
  | test
  | subtract
  | uncount

/-- `clear_saturated_weight_if_empty`. -/
inductive Clear where
  | test
  | lockFirst
  | lockSecond
  | lengths
  | nodes
  | zero
  | reset
  | unlockSecond
  | unlockFirst

/-- A call in progress. -/
inductive Party where
  | enqueue (queue : GenerationIndex) (weight : Nat) (at_ : Enqueue)
  | account (entries : List Nat) (at_ : Account)
  | clear (at_ : Clear)
  | finished

/-- The `fail_stop` branches. -/
inductive Abort where
  | overflow
  | underflow
deriving DecidableEq

structure State where
  domain  : Domain
  parties : List Party
  aborted : Option Abort

/-- What one access of a call leads to. -/
inductive Outcome where
  | moved (domain : Domain) (party : Party)
  | failStop (why : Abort)
  /-- The lock is not free. -/
  | blocked

-- ---- The accesses.

/-- `enqueue`; an exchange may fail without a reason. -/
def enqueueStep (usizeMax : Nat) (d : Domain) (queue : GenerationIndex) (weight : Nat)
    (spurious : Bool) : Enqueue → Outcome
  | .lock =>
    if d.locks queue then .blocked
    else .moved (d.setLock queue true) (.enqueue queue weight .append)
  | .append =>
    .moved (d.setQueue queue (d.queues queue ++ [weight])) (.enqueue queue weight .count)
  | .count =>
    if d.pendingNodes < usizeMax then
      .moved { d with pendingNodes := d.pendingNodes + 1 } (.enqueue queue weight .load)
    else .failStop .overflow
  | .load => .moved d (.enqueue queue weight (.test d.pendingWeight))
  | .test current =>
    if d.saturated then .moved d (.enqueue queue weight (.exchange current current))
    else if current + weight ≤ u64Max then
      .moved d (.enqueue queue weight (.exchange current (current + weight)))
    else .moved d (.enqueue queue weight (.saturate current))
  | .saturate current =>
    .moved { d with saturated := true } (.enqueue queue weight (.exchange current u64Max))
  | .exchange current next =>
    if d.pendingWeight = current ∧ spurious = false then
      .moved { d with pendingWeight := next } (.enqueue queue weight (.answer current))
    else .moved d (.enqueue queue weight (.test d.pendingWeight))
  | .answer previous =>
    .moved d (.enqueue queue weight
      (.unlock (if d.saturated then u64Max else min (previous + weight) u64Max)))
  | .unlock _ => .moved (d.setLock queue false) .finished

/-- `sum.saturating_add(entry.weight)` over a batch. -/
def batchWeight (entries : List Nat) : Nat :=
  entries.foldl (fun sum weight => min (sum + weight) u64Max) 0

/-- `account`, on entries that are detached. -/
def accountStep (d : Domain) (entries : List Nat) : Account → Outcome
  | .test =>
    if d.saturated then .moved d (.account entries .uncount)
    else .moved d (.account entries .subtract)
  | .subtract =>
    match checkedSubOrAbort d.pendingWeight (batchWeight entries) with
    | some weight => .moved { d with pendingWeight := weight } (.account entries .uncount)
    | none => .failStop .underflow
  | .uncount =>
    match checkedSubOrAbort d.pendingNodes entries.length with
    | some nodes => .moved { d with pendingNodes := nodes } .finished
    | none => .failStop .underflow

/-- `clear_saturated_weight_if_empty`, in `try_observe_queue_lengths`. -/
def clearStep (d : Domain) : Clear → Outcome
  | .test => .moved d (if d.saturated then .clear .lockFirst else .finished)
  | .lockFirst =>
    if d.locks false then .moved d .finished
    else .moved (d.setLock false true) (.clear .lockSecond)
  | .lockSecond =>
    if d.locks true then .moved d (.clear .unlockFirst)
    else .moved (d.setLock true true) (.clear .lengths)
  | .lengths =>
    .moved d (.clear (if (d.queues false).length = 0 ∧ (d.queues true).length = 0 then .nodes
        else .unlockSecond))
  | .nodes => .moved d (.clear (if d.pendingNodes = 0 then .zero else .unlockSecond))
  | .zero => .moved { d with pendingWeight := 0 } (.clear .reset)
  | .reset => .moved { d with saturated := false } (.clear .unlockSecond)
  | .unlockSecond => .moved (d.setLock true false) (.clear .unlockFirst)
  | .unlockFirst => .moved (d.setLock false false) .finished

def partyStep (usizeMax : Nat) (d : Domain) (spurious : Bool) : Party → Outcome
  | .enqueue queue weight at_ => enqueueStep usizeMax d queue weight spurious at_
  | .account entries at_ => accountStep d entries at_
  | .clear at_ => clearStep d at_
  | .finished => .blocked

inductive Action where
  /-- A node of weight `weight` is retired; the domain selects `queue`. -/
  | enqueue (queue : GenerationIndex) (weight : Nat)
  /-- A call that will account for a batch; the batch is empty at first. -/
  | account
  /-- The kernel hands all entries of a queue to such a call. -/
  | detach (party : Nat) (queue : GenerationIndex)
  | clear
  /-- The next access of one call. -/
  | party (party : Nat) (spurious : Bool)

def State.add (s : State) (p : Party) : State := { s with parties := s.parties ++ [p] }

def State.move (s : State) (party : Nat) (d : Domain) (p : Party) : State :=
  { s with domain := d, parties := s.parties.set party p }

def step (usizeMax : Nat) (s : State) (action : Action) : Option State :=
  if s.aborted.isSome then none
  else match action with
  | .enqueue queue weight =>
    if weight ≤ u64Max then some (s.add (.enqueue queue weight .lock)) else none
  | .account => some (s.add (.account [] .test))
  | .detach party queue =>
    match s.parties[party]? with
    | some (.account entries .test) =>
      if s.domain.locks queue then none
      else some (s.move party (s.domain.setQueue queue [])
        (.account (entries ++ s.domain.queues queue) .test))
    | _ => none
  | .clear => some (s.add (.clear .test))
  | .party party spurious =>
    match s.parties[party]? with
    | none => none
    | some p =>
      match partyStep usizeMax s.domain spurious p with
      | .moved d p => some (s.move party d p)
      | .failStop why => some { s with aborted := some why }
      | .blocked => none

def Domain.new : Domain where
  queues        := fun _ => []
  locks         := fun _ => false
  pendingNodes  := 0
  pendingWeight := 0
  saturated     := false

def State.new : State where
  domain  := .new
  parties := []
  aborted := none

-- ---- What a call contributes.

namespace Party

/-- This call has the lock of `queue`. -/
def holds (queue : GenerationIndex) : Party → Bool
  | enqueue own _ at_ =>
    match at_ with
    | .lock => false
    | _ => own == queue
  | clear at_ =>
    match at_ with
    | .test => false
    | .lockFirst => false
    | .lockSecond => !queue
    | .unlockFirst => !queue
    | _ => true
  | _ => false

/-- The weight this call has put into `queue` and not yet added. -/
def unrecorded (queue : GenerationIndex) : Party → Nat
  | enqueue own weight at_ =>
    match at_ with
    | .lock => 0
    | .append => 0
    | .answer _ => 0
    | .unlock _ => 0
    | _ => if own == queue then weight else 0
  | _ => 0

/-- The node this call has put into `queue` and not yet counted. -/
def uncounted (queue : GenerationIndex) : Party → Nat
  | enqueue own _ .count => if own == queue then 1 else 0
  | _ => 0

/-- The weight this call has taken from the queues and not yet accounted for. -/
def detached : Party → Nat
  | account _ .uncount => 0
  | account entries _ => entries.sum
  | _ => 0

/-- The weight this call is about to subtract. -/
def subtracting : Party → Nat
  | account entries .subtract => entries.sum
  | _ => 0

/-- The nodes this call has taken from the queues and not yet uncounted. -/
def detachedNodes : Party → Nat
  | account entries _ => entries.length
  | _ => 0

end Party

/-- What a call knows. -/
def PartyOk (d : Domain) : Party → Prop
  | .enqueue _ weight at_ => weight ≤ u64Max ∧
    match at_ with
    | .test current => current ≤ u64Max
    | .saturate current => current ≤ u64Max
    | .exchange current next =>
      (d.saturated = true ∧ current ≤ next ∧ (next = current ∨ next = u64Max)) ∨
        (next = current + weight ∧ next ≤ u64Max)
    | _ => True
  | .clear at_ =>
    match at_ with
    | .nodes => d.queues false = [] ∧ d.queues true = []
    | .zero => d.queues false = [] ∧ d.queues true = [] ∧ d.pendingNodes = 0
    | .reset =>
      d.queues false = [] ∧ d.queues true = [] ∧ d.pendingNodes = 0 ∧ d.pendingWeight = 0
    | _ => True
  | _ => True

-- ---- The invariant.

namespace State

section

variable (s : State)

def unrecorded (queue : GenerationIndex) : Nat :=
  (s.parties.map (·.unrecorded queue)).sum

def uncounted (queue : GenerationIndex) : Nat :=
  (s.parties.map (·.uncounted queue)).sum

def detached : Nat := (s.parties.map (·.detached)).sum

def subtracting : Nat := (s.parties.map (·.subtracting)).sum

def detachedNodes : Nat := (s.parties.map (·.detachedNodes)).sum

/-- The weight of the entries in the queues. -/
def queued : Nat := (s.domain.queues false).sum + (s.domain.queues true).sum

def queuedNodes : Nat :=
  (s.domain.queues false).length + (s.domain.queues true).length

end

end State

/-- **The invariant of the pending cells.** -/
structure Inv (s : State) : Prop where
  locks      : ∀ queue, s.parties.countP (·.holds queue) = if s.domain.locks queue then 1 else 0
  unrecorded : ∀ queue, s.unrecorded queue ≤ (s.domain.queues queue).sum
  uncounted  : ∀ queue, s.uncounted queue ≤ (s.domain.queues queue).length
  nodes      : s.domain.pendingNodes + (s.uncounted false + s.uncounted true) =
    s.queuedNodes + s.detachedNodes
  /-- While nothing has left `u64` the sum is exact. -/
  exact      : s.domain.saturated = false →
    s.domain.pendingWeight + (s.unrecorded false + s.unrecorded true) = s.queued + s.detached
  /-- What is about to be subtracted is there. -/
  covered    : s.subtracting ≤ s.domain.pendingWeight
  bounded    : s.domain.pendingWeight ≤ u64Max
  parties    : ∀ p ∈ s.parties, PartyOk s.domain p
  aborted    : s.aborted ≠ some .underflow

-- ---- One call moves.

variable {s s' : State} {i : Nat} {p p' : Party} {d d' : Domain}

/-- What a move means for the locks, the queues and the counted nodes, and for what every call
knows. -/
structure Move (d : Domain) (p : Party) (d' : Domain) (p' : Party) : Prop where
  locks      : ∀ queue, (if p'.holds queue then 1 else 0) + (if d.locks queue then 1 else 0) =
    (if p.holds queue then 1 else 0) + if d'.locks queue then 1 else 0
  unrecorded : ∀ queue, p'.unrecorded queue + (d.queues queue).sum ≤
    p.unrecorded queue + (d'.queues queue).sum
  uncounted  : ∀ queue, p'.uncounted queue + (d.queues queue).length ≤
    p.uncounted queue + (d'.queues queue).length
  nodes      : d'.pendingNodes + (p'.uncounted false + p'.uncounted true) +
      ((d.queues false).length + (d.queues true).length + p.detachedNodes) =
    d.pendingNodes + (p.uncounted false + p.uncounted true) +
      ((d'.queues false).length + (d'.queues true).length + p'.detachedNodes)
  bounded    : d'.pendingWeight ≤ u64Max
  ok         : PartyOk d' p'
  frame      : ∀ r, (∀ queue, r.holds queue = true → p.holds queue = false) → PartyOk d r →
    PartyOk d' r

/-- What it means for the weights, where nothing is reset. -/
structure Weighs (d : Domain) (p : Party) (d' : Domain) (p' : Party) : Prop where
  exact   : d'.saturated = false → d.saturated = false ∧
    d'.pendingWeight + (p'.unrecorded false + p'.unrecorded true) +
        ((d.queues false).sum + (d.queues true).sum + p.detached) =
      d.pendingWeight + (p.unrecorded false + p.unrecorded true) +
        ((d'.queues false).sum + (d'.queues true).sum + p'.detached)
  covered : d.pendingWeight + p'.subtracting ≤ d'.pendingWeight + p.subtracting

theorem sum_move (f : Party → Nat) (hp : s.parties[i]? = some p) (d' : Domain) (p' : Party) :
    ((s.move i d' p').parties.map f).sum + f p = (s.parties.map f).sum + f p' :=
  sum_map_set_add f p' hp

/-- **The invariant, after a move.** -/
theorem Inv.of_move (hinv : Inv s) (hp : s.parties[i]? = some p) (h : Move s.domain p d' p')
    (hexact : d'.saturated = false → d'.pendingWeight +
      ((s.move i d' p').unrecorded false + (s.move i d' p').unrecorded true) =
        (s.move i d' p').queued + (s.move i d' p').detached)
    (hcovered : (s.move i d' p').subtracting ≤ d'.pendingWeight) : Inv (s.move i d' p') where
  locks queue := by
    have hset := countP_set_add (·.holds queue) p' hp
    have hold := hinv.locks queue
    have hlock := h.locks queue
    show (s.parties.set i p').countP _ = if d'.locks queue then 1 else 0
    omega
  unrecorded queue := by
    have hset := sum_move (·.unrecorded queue) hp d' p'
    have hold := hinv.unrecorded queue
    have hlocal := h.unrecorded queue
    unfold State.unrecorded at hold ⊢
    show _ ≤ (d'.queues queue).sum
    omega
  uncounted queue := by
    have hset := sum_move (·.uncounted queue) hp d' p'
    have hold := hinv.uncounted queue
    have hlocal := h.uncounted queue
    unfold State.uncounted at hold ⊢
    show _ ≤ (d'.queues queue).length
    omega
  nodes := by
    have hfirst := sum_move (·.uncounted false) hp d' p'
    have hsecond := sum_move (·.uncounted true) hp d' p'
    have hdetached := sum_move (·.detachedNodes) hp d' p'
    have hold := hinv.nodes
    have hlocal := h.nodes
    unfold State.uncounted State.queuedNodes State.detachedNodes at hold ⊢
    show d'.pendingNodes + _ = (d'.queues false).length + (d'.queues true).length + _
    omega
  exact := hexact
  covered := hcovered
  bounded := h.bounded
  parties r hr := by
    obtain ⟨j, hj⟩ := mem_iff_getElem?.mp hr
    rcases getElem?_set_cases hp hj with ⟨-, rfl⟩ | ⟨hne, hj⟩
    · exact h.ok
    · refine h.frame r (fun queue hholds => ?_) (hinv.parties r (mem_of_getElem? hj))
      by_contra hboth
      have hone : s.parties.countP (·.holds queue) ≤ 1 := by
        rw [hinv.locks]
        split <;> omega
      have heq := eq_of_countP_le_one (·.holds queue) hone hj hp hholds
        (Bool.eq_true_of_not_eq_false hboth)
      exact hne heq
  aborted := hinv.aborted

theorem Inv.held (hinv : Inv s) (hp : s.parties[i]? = some p) (hholds : p.holds queue = true) :
    s.domain.locks queue = true := by
  have hcount := hinv.locks queue
  have hpos : 0 < s.parties.countP (·.holds queue) :=
    countP_pos_iff.mpr ⟨_, mem_of_getElem? hp, hholds⟩
  by_contra hfree
  rw [if_neg hfree] at hcount
  omega

theorem Inv.of_weighs (hinv : Inv s) (hp : s.parties[i]? = some p) (h : Move s.domain p d' p')
    (hweighs : Weighs s.domain p d' p') : Inv (s.move i d' p') := by
  refine hinv.of_move hp h (fun hopen => ?_) ?_
  · obtain ⟨hbefore, hlocal⟩ := hweighs.exact hopen
    have hfirst := sum_move (·.unrecorded false) hp d' p'
    have hsecond := sum_move (·.unrecorded true) hp d' p'
    have hdetached := sum_move (·.detached) hp d' p'
    have hold := hinv.exact hbefore
    unfold State.unrecorded State.queued State.detached at hold ⊢
    show _ = (d'.queues false).sum + (d'.queues true).sum + _
    omega
  · have hset := sum_move (·.subtracting) hp d' p'
    have hold := hinv.covered
    have hlocal := hweighs.covered
    unfold State.subtracting at hold ⊢
    omega

-- ---- Enqueueing.

variable {r : Party} {spurious : Bool}

section

variable {weight : Nat}

theorem Move.quiet (hbounded : d.pendingWeight ≤ u64Max) (hok : PartyOk d p')
    (hholds : ∀ queue, p'.holds queue = p.holds queue)
    (hunrecorded : ∀ queue, p'.unrecorded queue = p.unrecorded queue)
    (huncounted : ∀ queue, p'.uncounted queue = p.uncounted queue)
    (hnodes : p'.detachedNodes = p.detachedNodes) : Move d p d p' where
  locks queue := by rw [hholds]
  unrecorded queue := by rw [hunrecorded]
  uncounted queue := by rw [huncounted]
  nodes := by rw [huncounted, huncounted, hnodes]
  bounded := hbounded
  ok := hok
  frame _ _ hr := hr

theorem Weighs.quiet (hunrecorded : ∀ queue, p'.unrecorded queue = p.unrecorded queue)
    (hdetached : p'.detached = p.detached) (hsubtracting : p'.subtracting = p.subtracting) :
    Weighs d p d p' where
  exact h := ⟨h, by rw [hunrecorded, hunrecorded, hdetached]⟩
  covered := by rw [hsubtracting]

/-- While a call has the lock of a queue, the knowledge of the others about both queues is void. -/
theorem frame_locked (queue : Bool) (p : Party) (hp : p.holds queue = true)
    (hr : ∀ queue, r.holds queue = true → p.holds queue = false) (hok : PartyOk d r)
    (hsaturated : d.saturated = true → d'.saturated = true) : PartyOk d' r := by
  cases r with
  | enqueue own weight at_ =>
    cases at_ with
    | exchange current next =>
      exact ⟨hok.1, hok.2.imp_left fun h => ⟨hsaturated h.1, h.2⟩⟩
    | _ => exact hok
  | clear at_ =>
    have hboth : (Party.clear at_).holds queue = true → False := by
      intro hholds
      rw [hr queue hholds] at hp
      cases hp
    cases at_ with
    | nodes | zero | reset => exact (hboth rfl).elim
    | _ => exact trivial
  | _ => exact trivial

theorem PartyOk.of_le (h : PartyOk d r) (hqueues : d'.queues = d.queues)
    (hnodes : d'.pendingNodes ≤ d.pendingNodes) (hweight : d'.pendingWeight ≤ d.pendingWeight)
    (hsaturated : d'.saturated = d.saturated) : PartyOk d' r := by
  cases r with
  | enqueue own weight at_ =>
    cases at_ with
    | exchange current next =>
      exact ⟨h.1, h.2.imp_left fun hs => ⟨hsaturated.trans hs.1, hs.2⟩⟩
    | _ => exact h
  | clear at_ =>
    cases at_ with
    | nodes =>
      rw [PartyOk, hqueues]
      exact h
    | zero =>
      obtain ⟨hfirst, hsecond, hzero⟩ := h
      rw [PartyOk, hqueues]
      exact ⟨hfirst, hsecond, by omega⟩
    | reset =>
      obtain ⟨hfirst, hsecond, hzero, hnothing⟩ := h
      rw [PartyOk, hqueues]
      exact ⟨hfirst, hsecond, by omega, by omega⟩
    | _ => exact trivial
  | _ => exact trivial

theorem setQueue_length_sum (d : Domain) (queue own : GenerationIndex) (weight : Nat) :
    ((d.setQueue queue (d.queues queue ++ [weight])).queues own).length =
        (d.queues own).length + (if queue == own then 1 else 0) ∧
      ((d.setQueue queue (d.queues queue ++ [weight])).queues own).sum =
        (d.queues own).sum + if queue == own then weight else 0 := by
  by_cases h : own = queue
  · subst h
    rw [Domain.setQueue_self, beq_self_eq_true, length_append, sum_append, sum_singleton]
    exact ⟨rfl, rfl⟩
  · rw [Domain.setQueue_ne d _ h, beq_eq_false_iff_ne.mpr fun heq => h heq.symm]
    exact ⟨rfl, rfl⟩

theorem setLock_ite (d : Domain) (queue own : GenerationIndex) (held : Bool) :
    (if (d.setLock queue held).locks own then 1 else 0) =
      if queue == own then (if held then 1 else 0) else if d.locks own then 1 else 0 := by
  by_cases h : own = queue
  · subst h
    rw [Domain.setLock_self, beq_self_eq_true, if_pos rfl]
  · rw [Domain.setLock_ne d _ h, beq_eq_false_iff_ne.mpr fun heq => h heq.symm,
      if_neg Bool.false_ne_true]

/-- **Enqueueing keeps the invariant.** -/
theorem Inv.enqueue (hinv : Inv s) {usizeMax : Nat} {at_ : Enqueue}
    (hp : s.parties[i]? = some (.enqueue queue weight at_))
    (hstep : enqueueStep usizeMax s.domain queue weight spurious at_ = .moved d' p') :
    Inv (s.move i d' p') := by
  have hok := hinv.parties _ (mem_of_getElem? hp)
  cases at_ with
  | lock =>
    simp only [enqueueStep] at hstep
    split at hstep
    · cases hstep
    · next hfree =>
      cases hstep
      refine hinv.of_weighs hp ⟨fun own => ?_, fun _ => Nat.le_refl _, fun _ => Nat.le_refl _, rfl,
        hinv.bounded, ⟨hok.1, trivial⟩, fun r _ hr => hr.of_le rfl (Nat.le_refl _) (Nat.le_refl _) rfl⟩
        ⟨fun h => ⟨h, rfl⟩, Nat.le_refl _⟩
      rw [setLock_ite]
      show (if queue == own then 1 else 0) + _ = (if false then 1 else 0) + _
      by_cases h : own = queue
      · subst h
        rw [beq_self_eq_true, if_pos rfl, if_neg hfree]
        rfl
      · rw [beq_eq_false_iff_ne.mpr fun heq => h heq.symm]
        rfl
  | append =>
    cases hstep
    have hsize := setQueue_length_sum s.domain queue
    refine hinv.of_weighs hp ⟨fun _ => rfl, fun own => ?_, fun own => ?_, ?_, hinv.bounded,
      ⟨hok.1, trivial⟩, fun r hr hro =>
        frame_locked queue (.enqueue queue weight .append) ?_ hr hro id⟩
      ⟨fun h => ⟨h, ?_⟩, Nat.le_refl _⟩
    · rw [(hsize own weight).2]
      show (if queue == own then weight else 0) + _ ≤ 0 + _
      omega
    · rw [(hsize own weight).1]
      show (if queue == own then 1 else 0) + _ ≤ 0 + _
      omega
    · rw [(hsize false weight).1, (hsize true weight).1]
      show s.domain.pendingNodes + ((if queue == false then 1 else 0) +
        if queue == true then 1 else 0) + (_ + 0) = s.domain.pendingNodes + (0 + 0) + (_ + 0)
      omega
    · exact beq_self_eq_true queue
    · rw [(hsize false weight).2, (hsize true weight).2]
      show s.domain.pendingWeight + ((if queue == false then weight else 0) +
        if queue == true then weight else 0) + (_ + 0) = s.domain.pendingWeight + (0 + 0) + (_ + 0)
      omega
  | count =>
    simp only [enqueueStep] at hstep
    split at hstep
    · cases hstep
      refine hinv.of_weighs hp ⟨fun _ => rfl, fun _ => Nat.le_refl _, fun own => ?_, ?_,
        hinv.bounded, ⟨hok.1, trivial⟩, fun r hr hro =>
          frame_locked queue (.enqueue queue weight .count) ?_ hr hro id⟩
        ⟨fun h => ⟨h, rfl⟩, Nat.le_refl _⟩
      · exact Nat.add_le_add_right (Nat.zero_le _) _
      · show s.domain.pendingNodes + 1 + (0 + 0) + _ = s.domain.pendingNodes +
          ((if queue == false then 1 else 0) + if queue == true then 1 else 0) + _
        cases queue <;> rfl
      · exact beq_self_eq_true queue
    · cases hstep
  | load =>
    cases hstep
    exact hinv.of_weighs hp (.quiet hinv.bounded ⟨hok.1, hinv.bounded⟩ (fun _ => rfl)
      (fun _ => rfl) (fun _ => rfl) rfl) (.quiet (fun _ => rfl) rfl rfl)
  | test current =>
    obtain ⟨hweight, hcurrent⟩ : weight ≤ u64Max ∧ current ≤ u64Max := hok
    simp only [enqueueStep] at hstep
    split at hstep
    · next hsaturated =>
      cases hstep
      exact hinv.of_weighs hp (.quiet hinv.bounded
        ⟨hweight, .inl ⟨hsaturated, Nat.le_refl _, .inl rfl⟩⟩ (fun _ => rfl)
        (fun _ => rfl) (fun _ => rfl) rfl) (.quiet (fun _ => rfl) rfl rfl)
    · split at hstep
      · next hfits =>
        cases hstep
        exact hinv.of_weighs hp (.quiet hinv.bounded ⟨hweight, .inr ⟨rfl, hfits⟩⟩ (fun _ => rfl)
          (fun _ => rfl) (fun _ => rfl) rfl) (.quiet (fun _ => rfl) rfl rfl)
      · cases hstep
        exact hinv.of_weighs hp (.quiet hinv.bounded ⟨hweight, hcurrent⟩ (fun _ => rfl)
          (fun _ => rfl) (fun _ => rfl) rfl) (.quiet (fun _ => rfl) rfl rfl)
  | saturate current =>
    obtain ⟨hweight, hcurrent⟩ : weight ≤ u64Max ∧ current ≤ u64Max := hok
    cases hstep
    refine hinv.of_weighs hp ⟨fun _ => rfl, fun _ => Nat.le_refl _, fun _ => Nat.le_refl _, rfl,
      hinv.bounded, ⟨hweight, .inl ⟨rfl, hcurrent, .inr rfl⟩⟩, fun r hr hro =>
        frame_locked queue (.enqueue queue weight (.saturate current)) ?_ hr hro fun _ => rfl⟩
      ⟨nofun, Nat.le_refl _⟩
    exact beq_self_eq_true queue
  | exchange current next =>
    obtain ⟨hweight, hnext⟩ : weight ≤ u64Max ∧ _ := hok
    simp only [enqueueStep] at hstep
    split at hstep
    · next hsame =>
      cases hstep
      have hcurrent : s.domain.pendingWeight = current := hsame.1
      have hbounded := hinv.bounded
      refine hinv.of_weighs hp ⟨fun _ => rfl, fun own => ?_, fun _ => Nat.le_refl _, rfl, ?_,
        ⟨hweight, trivial⟩, fun r hr hro =>
          frame_locked queue (.enqueue queue weight (.exchange current next)) ?_ hr hro id⟩
        ⟨fun hopen => ⟨hopen, ?_⟩, ?_⟩
      · exact Nat.add_le_add_right (Nat.zero_le _) _
      · show next ≤ u64Max
        rcases hnext with ⟨-, -, rfl | rfl⟩ | ⟨-, hfits⟩
        · omega
        · exact Nat.le_refl _
        · exact hfits
      · exact beq_self_eq_true queue
      · have hopen : s.domain.saturated = false := hopen
        rcases hnext with ⟨hsaturated, -⟩ | ⟨rfl, -⟩
        · rw [hopen] at hsaturated
          cases hsaturated
        · show current + weight + (0 + 0) + _ = s.domain.pendingWeight +
            ((if queue == false then weight else 0) + if queue == true then weight else 0) + _
          rw [hcurrent]
          cases queue
          · rfl
          · exact congrArg (· + _) (congrArg (current + ·) (Nat.zero_add weight).symm)
      · show s.domain.pendingWeight + 0 ≤ next + 0
        rw [hcurrent]
        rcases hnext with ⟨-, hle, -⟩ | ⟨rfl, -⟩
        · omega
        · omega
    · cases hstep
      exact hinv.of_weighs hp (.quiet hinv.bounded ⟨hweight, hinv.bounded⟩ (fun _ => rfl)
        (fun _ => rfl) (fun _ => rfl) rfl) (.quiet (fun _ => rfl) rfl rfl)
  | answer previous =>
    cases hstep
    exact hinv.of_weighs hp (.quiet hinv.bounded ⟨hok.1, trivial⟩ (fun _ => rfl) (fun _ => rfl)
      (fun _ => rfl) rfl) (.quiet (fun _ => rfl) rfl rfl)
  | unlock answer =>
    cases hstep
    have hheld := hinv.held hp (beq_self_eq_true queue)
    refine hinv.of_weighs hp ⟨fun own => ?_, fun _ => Nat.le_refl _, fun _ => Nat.le_refl _, rfl,
      hinv.bounded, trivial, fun r _ hr => hr.of_le rfl (Nat.le_refl _) (Nat.le_refl _) rfl⟩
      ⟨fun h => ⟨h, rfl⟩, Nat.le_refl _⟩
    rw [setLock_ite]
    show (if false then 1 else 0) + _ = (if queue == own then 1 else 0) + _
    by_cases h : own = queue
    · subst h
      rw [beq_self_eq_true, if_pos rfl, hheld]
      rfl
    · rw [beq_eq_false_iff_ne.mpr fun heq => h heq.symm]
      rfl

end

-- ---- Accounting.

theorem Party.subtracting_le (p : Party) : p.subtracting ≤ p.detached := by
  cases p with
  | account entries at_ =>
    cases at_ with
    | test => exact Nat.zero_le _
    | subtract => exact Nat.le_refl _
    | uncount => exact Nat.le_refl _
  | _ => exact Nat.le_refl _

theorem Party.detached_eq_zero (h : p.detachedNodes = 0) : p.detached = 0 := by
  cases p with
  | account entries at_ =>
    have hnil : entries = [] := eq_nil_of_length_eq_zero h
    cases at_ <;> rw [hnil] <;> rfl
  | _ => rfl

theorem subtracting_le_detached (s : State) : s.subtracting ≤ s.detached :=
  sum_le_sum fun p _ => p.subtracting_le

theorem Inv.detached_le (hinv : Inv s) (hopen : s.domain.saturated = false) :
    s.detached ≤ s.domain.pendingWeight := by
  have hexact := hinv.exact hopen
  have hfirst := hinv.unrecorded false
  have hsecond := hinv.unrecorded true
  unfold State.queued at hexact
  omega

theorem Inv.detachedNodes_le (hinv : Inv s) : s.detachedNodes ≤ s.domain.pendingNodes := by
  have hnodes := hinv.nodes
  have hfirst := hinv.uncounted false
  have hsecond := hinv.uncounted true
  unfold State.queuedNodes at hnodes
  omega

theorem foldl_batchWeight (entries : List Nat) (sum : Nat) (h : sum + entries.sum ≤ u64Max) :
    entries.foldl (fun sum weight => min (sum + weight) u64Max) sum = sum + entries.sum := by
  induction entries generalizing sum with
  | nil => rfl
  | cons weight entries ih =>
    rw [sum_cons] at h
    rw [foldl_cons, Nat.min_eq_left (by omega), ih _ (by omega), sum_cons, Nat.add_assoc]

variable {entries : List Nat} {usizeMax : Nat}

/-- **A batch that is about to be subtracted** weighs its sum, and that is there. -/
theorem Inv.batchWeight_eq (hinv : Inv s) (hp : s.parties[i]? = some (.account entries .subtract)) :
    batchWeight entries = entries.sum ∧ entries.sum ≤ s.domain.pendingWeight := by
  have hle : entries.sum ≤ s.subtracting :=
    le_sum_of_mem (mem_map.mpr ⟨_, mem_of_getElem? hp, rfl⟩)
  have hcovered := hinv.covered
  have hbounded := hinv.bounded
  have hfold := foldl_batchWeight entries 0 (by omega)
  rw [Nat.zero_add] at hfold
  exact ⟨hfold, by omega⟩

theorem Inv.length_le (hinv : Inv s) {at_ : Account}
    (hp : s.parties[i]? = some (.account entries at_)) :
    entries.length ≤ s.domain.pendingNodes := by
  have hle : entries.length ≤ s.detachedNodes :=
    le_sum_of_mem (mem_map.mpr ⟨_, mem_of_getElem? hp, rfl⟩)
  exact Nat.le_trans hle hinv.detachedNodes_le

/-- **Accounting keeps the invariant**, and never underflows. -/
theorem Inv.account (hinv : Inv s) {at_ : Account}
    (hp : s.parties[i]? = some (.account entries at_)) :
    ∃ d' p', accountStep s.domain entries at_ = .moved d' p' ∧ Inv (s.move i d' p') := by
  cases at_ with
  | test =>
    have hquiet : ∀ at_, Move s.domain (.account entries .test) s.domain (.account entries at_) :=
      fun _ => .quiet hinv.bounded trivial (fun _ => rfl) (fun _ => rfl) (fun _ => rfl) rfl
    cases hsaturated : s.domain.saturated with
    | true =>
      refine ⟨_, _, if_pos hsaturated, hinv.of_weighs hp (hquiet _) ⟨fun hopen => ?_, ?_⟩⟩
      · rw [hsaturated] at hopen
        cases hopen
      · exact Nat.le_refl _
    | false =>
      have hstep : accountStep s.domain entries .test =
          .moved s.domain (.account entries .subtract) :=
        if_neg (by rw [hsaturated]; exact Bool.false_ne_true)
      have hsame : (s.move i s.domain (.account entries .subtract)).detached = s.detached := by
        have hset := sum_move (·.detached) hp s.domain (.account entries .subtract)
        exact Nat.add_right_cancel hset
      have hunrecorded : ∀ queue,
          (s.move i s.domain (.account entries .subtract)).unrecorded queue =
            s.unrecorded queue := by
        intro queue
        have hset := sum_move (·.unrecorded queue) hp s.domain (.account entries .subtract)
        exact Nat.add_right_cancel hset
      refine ⟨_, _, hstep, hinv.of_move hp (hquiet _) (fun hopen => ?_) ?_⟩
      · rw [hunrecorded, hunrecorded, hsame]
        exact hinv.exact hopen
      · have hle := subtracting_le_detached (s.move i s.domain (.account entries .subtract))
        rw [hsame] at hle
        exact Nat.le_trans hle (hinv.detached_le hsaturated)
  | subtract =>
    obtain ⟨hweight, hle⟩ := hinv.batchWeight_eq hp
    have hbounded := hinv.bounded
    have hstep : accountStep s.domain entries .subtract =
        .moved { s.domain with pendingWeight := s.domain.pendingWeight - entries.sum }
          (.account entries .uncount) := by
      rw [accountStep, hweight, checkedSubOrAbort_of_le hle]
    refine ⟨_, _, hstep, hinv.of_weighs hp ⟨fun _ => rfl, fun _ => Nat.le_refl _,
      fun _ => Nat.le_refl _, rfl, ?_, trivial, fun r _ hr =>
        hr.of_le rfl (Nat.le_refl _) (Nat.sub_le _ _) rfl⟩ ⟨fun hopen => ⟨hopen, ?_⟩, ?_⟩⟩
    · exact Nat.le_trans (Nat.sub_le _ _) hbounded
    · show s.domain.pendingWeight - entries.sum + (0 + 0) +
          ((s.domain.queues false).sum + (s.domain.queues true).sum + entries.sum) =
        s.domain.pendingWeight + (0 + 0) +
          ((s.domain.queues false).sum + (s.domain.queues true).sum + 0)
      omega
    · show s.domain.pendingWeight + 0 ≤ s.domain.pendingWeight - entries.sum + entries.sum
      omega
  | uncount =>
    have hle := hinv.length_le hp
    have hstep : accountStep s.domain entries .uncount =
        .moved { s.domain with pendingNodes := s.domain.pendingNodes - entries.length }
          .finished := by
      rw [accountStep, checkedSubOrAbort_of_le hle]
    refine ⟨_, _, hstep, hinv.of_weighs hp ⟨fun _ => rfl, fun _ => Nat.le_refl _,
      fun _ => Nat.le_refl _, ?_, hinv.bounded, trivial, fun r _ hr =>
        hr.of_le rfl (Nat.sub_le _ _) (Nat.le_refl _) rfl⟩ ⟨fun hopen => ⟨hopen, rfl⟩,
          Nat.le_refl _⟩⟩
    show s.domain.pendingNodes - entries.length + (0 + 0) +
        ((s.domain.queues false).length + (s.domain.queues true).length + entries.length) =
      s.domain.pendingNodes + (0 + 0) +
        ((s.domain.queues false).length + (s.domain.queues true).length + 0)
    omega

-- ---- Clearing the flag.

/-- Nothing waits, neither in a queue nor in a batch. -/
structure Nothing (s : State) : Prop where
  queued      : s.queued = 0
  unrecorded  : ∀ queue, s.unrecorded queue = 0
  detached    : s.detached = 0
  subtracting : s.subtracting = 0

/-- **Empty queues and no counted node**: nothing waits. -/
theorem Inv.nothing (hinv : Inv s) (hfirst : s.domain.queues false = [])
    (hsecond : s.domain.queues true = []) (hnodes : s.domain.pendingNodes = 0) : Nothing s := by
  have hunrecorded : ∀ queue, s.unrecorded queue = 0 := by
    intro queue
    have hle := hinv.unrecorded queue
    cases queue with
    | false =>
      rw [hfirst] at hle
      exact Nat.le_zero.mp hle
    | true =>
      rw [hsecond] at hle
      exact Nat.le_zero.mp hle
  have hzero : s.detachedNodes = 0 := by
    have hle := hinv.detachedNodes_le
    omega
  have hdetached : s.detached = 0 := by
    refine List.sum_eq_zero_iff_forall_eq_nat.mpr fun weight hweight => ?_
    obtain ⟨p, hp, rfl⟩ := List.mem_map.mp hweight
    exact Party.detached_eq_zero
      (List.sum_eq_zero_iff_forall_eq_nat.mp hzero _ (List.mem_map_of_mem hp))
  refine ⟨?_, hunrecorded, hdetached, ?_⟩
  · rw [State.queued, hfirst, hsecond]
    rfl
  · have hle := subtracting_le_detached s
    omega

theorem frame_reset (hr : ∀ queue, r.holds queue = true → False) (hok : PartyOk d r) :
    PartyOk { d with saturated := false } r := by
  cases r with
  | enqueue own weight at_ =>
    cases at_ with
    | exchange current next => exact (hr own (beq_self_eq_true own)).elim
    | _ => exact hok
  | clear at_ => exact hok
  | _ => exact trivial

variable {at_ : Clear}

theorem sum_move_clear (f : Party → Nat) (hclear : ∀ at_, f (.clear at_) = 0)
    (hp : s.parties[i]? = some (.clear at_)) (d' : Domain) (next : Clear) :
    ((s.move i d' (.clear next)).parties.map f).sum = (s.parties.map f).sum := by
  have hset := sum_move f hp d' (.clear next)
  rw [hclear, hclear] at hset
  exact hset

theorem Nothing.move {next : Clear} (h : Nothing s) (hp : s.parties[i]? = some (.clear at_))
    (hqueues : d'.queues = s.domain.queues) : Nothing (s.move i d' (.clear next)) := by
  refine ⟨?_, fun queue => ?_, ?_, ?_⟩
  · show (d'.queues false).sum + (d'.queues true).sum = 0
    rw [hqueues]
    exact h.queued
  · exact (sum_move_clear _ (fun _ => rfl) hp d' next).trans (h.unrecorded queue)
  · exact (sum_move_clear _ (fun _ => rfl) hp d' next).trans h.detached
  · exact (sum_move_clear _ (fun _ => rfl) hp d' next).trans h.subtracting

/-- A clearing goes on and leaves the domain as it is. -/
theorem Inv.clear_stays (hinv : Inv s) {next : Clear} (hp : s.parties[i]? = some (.clear at_))
    (hholds : ∀ queue, (Party.clear next).holds queue = (Party.clear at_).holds queue)
    (hok : PartyOk s.domain (.clear next)) : Inv (s.move i s.domain (.clear next)) :=
  hinv.of_weighs hp (.quiet hinv.bounded hok hholds (fun _ => rfl) (fun _ => rfl) rfl)
    (.quiet (fun _ => rfl) rfl rfl)

/-- **Clearing keeps the invariant.** -/
theorem Inv.clear (hinv : Inv s) (hp : s.parties[i]? = some (.clear at_)) :
    ∃ d' p', clearStep s.domain at_ = .moved d' p' ∧ Inv (s.move i d' p') := by
  have hok := hinv.parties _ (mem_of_getElem? hp)
  cases at_ with
  | test =>
    refine ⟨_, _, rfl, ?_⟩
    split
    · exact hinv.clear_stays hp (fun _ => rfl) trivial
    · exact hinv.of_weighs hp (.quiet hinv.bounded trivial (fun _ => rfl) (fun _ => rfl)
        (fun _ => rfl) rfl) (.quiet (fun _ => rfl) rfl rfl)
  | lockFirst =>
    cases hheld : s.domain.locks false with
    | true =>
      refine ⟨_, _, if_pos hheld, ?_⟩
      exact hinv.of_weighs hp (.quiet hinv.bounded trivial (fun _ => rfl) (fun _ => rfl)
        (fun _ => rfl) rfl) (.quiet (fun _ => rfl) rfl rfl)
    | false =>
      refine ⟨_, _, if_neg (by rw [hheld]; exact Bool.false_ne_true), ?_⟩
      refine hinv.of_weighs hp ⟨fun own => ?_, fun _ => Nat.le_refl _, fun _ => Nat.le_refl _, rfl,
        hinv.bounded, trivial, fun r _ hr => hr.of_le rfl (Nat.le_refl _) (Nat.le_refl _) rfl⟩
        ⟨fun h => ⟨h, rfl⟩, Nat.le_refl _⟩
      rw [setLock_ite]
      cases own with
      | false =>
        rw [hheld]
        rfl
      | true => rfl
  | lockSecond =>
    cases hheld : s.domain.locks true with
    | true =>
      refine ⟨_, _, if_pos hheld, ?_⟩
      exact hinv.clear_stays hp (fun _ => rfl) trivial
    | false =>
      refine ⟨_, _, if_neg (by rw [hheld]; exact Bool.false_ne_true), ?_⟩
      refine hinv.of_weighs hp ⟨fun own => ?_, fun _ => Nat.le_refl _, fun _ => Nat.le_refl _, rfl,
        hinv.bounded, trivial, fun r _ hr => hr.of_le rfl (Nat.le_refl _) (Nat.le_refl _) rfl⟩
        ⟨fun h => ⟨h, rfl⟩, Nat.le_refl _⟩
      rw [setLock_ite]
      cases own with
      | false => rfl
      | true =>
        rw [hheld]
        rfl
  | lengths =>
    refine ⟨_, _, rfl, ?_⟩
    split
    · next hempty =>
      exact hinv.clear_stays hp (fun _ => rfl)
        ⟨eq_nil_of_length_eq_zero hempty.1, eq_nil_of_length_eq_zero hempty.2⟩
    · exact hinv.clear_stays hp (fun _ => rfl) trivial
  | nodes =>
    refine ⟨_, _, rfl, ?_⟩
    split
    · next hzero => exact hinv.clear_stays hp (fun _ => rfl) ⟨hok.1, hok.2, hzero⟩
    · exact hinv.clear_stays hp (fun _ => rfl) trivial
  | zero =>
    obtain ⟨hfirst, hsecond, hnodes⟩ := hok
    have hmoved : Nothing (s.move i { s.domain with pendingWeight := 0 } (.clear .reset)) :=
      (hinv.nothing hfirst hsecond hnodes).move hp rfl
    refine ⟨_, _, rfl, hinv.of_move hp ⟨fun _ => rfl, fun _ => Nat.le_refl _,
      fun _ => Nat.le_refl _, rfl, Nat.zero_le _, ⟨hfirst, hsecond, hnodes, rfl⟩, fun r _ hr =>
        hr.of_le rfl (Nat.le_refl _) (Nat.zero_le _) rfl⟩ (fun _ => ?_) ?_⟩
    · rw [hmoved.unrecorded, hmoved.unrecorded, hmoved.queued, hmoved.detached]
    · exact Nat.le_of_eq hmoved.subtracting
  | reset =>
    obtain ⟨hfirst, hsecond, hnodes, hweight⟩ := hok
    have hmoved :
        Nothing (s.move i { s.domain with saturated := false } (.clear .unlockSecond)) :=
      (hinv.nothing hfirst hsecond hnodes).move hp rfl
    refine ⟨_, _, rfl, hinv.of_move hp ⟨fun _ => rfl, fun _ => Nat.le_refl _,
      fun _ => Nat.le_refl _, rfl, hinv.bounded, trivial, fun r hr hro => ?_⟩ (fun _ => ?_) ?_⟩
    · exact frame_reset (fun queue hholds => Bool.false_ne_true (hr queue hholds).symm) hro
    · rw [hmoved.unrecorded, hmoved.unrecorded, hmoved.queued, hmoved.detached]
      exact hweight
    · exact Nat.le_trans (Nat.le_of_eq hmoved.subtracting) (Nat.zero_le _)
  | unlockSecond =>
    have hheld : s.domain.locks true = true := hinv.held hp rfl
    refine ⟨_, _, rfl, hinv.of_weighs hp ⟨fun own => ?_, fun _ => Nat.le_refl _,
      fun _ => Nat.le_refl _, rfl, hinv.bounded, trivial, fun r _ hr =>
        hr.of_le rfl (Nat.le_refl _) (Nat.le_refl _) rfl⟩ ⟨fun h => ⟨h, rfl⟩, Nat.le_refl _⟩⟩
    rw [setLock_ite]
    cases own with
    | false => rfl
    | true =>
      rw [hheld]
      rfl
  | unlockFirst =>
    have hheld : s.domain.locks false = true := hinv.held hp rfl
    refine ⟨_, _, rfl, hinv.of_weighs hp ⟨fun own => ?_, fun _ => Nat.le_refl _,
      fun _ => Nat.le_refl _, rfl, hinv.bounded, trivial, fun r _ hr =>
        hr.of_le rfl (Nat.le_refl _) (Nat.le_refl _) rfl⟩ ⟨fun h => ⟨h, rfl⟩, Nat.le_refl _⟩⟩
    rw [setLock_ite]
    cases own with
    | false =>
      rw [hheld]
      rfl
    | true => rfl

-- ---- Detaching.

theorem Party.unrecorded_of_not_holds (h : p.holds queue = false) :
    p.unrecorded queue = 0 ∧ p.uncounted queue = 0 := by
  cases p with
  | enqueue own weight at_ =>
    cases at_ with
    | lock | append | answer previous | unlock answer => exact ⟨rfl, rfl⟩
    | count =>
      have hother : (own == queue) = false := h
      refine ⟨?_, ?_⟩
      · show (if own == queue then weight else 0) = 0
        rw [hother, if_neg Bool.false_ne_true]
      · show (if own == queue then 1 else 0) = 0
        rw [hother, if_neg Bool.false_ne_true]
    | _ =>
      have hother : (own == queue) = false := h
      refine ⟨?_, rfl⟩
      show (if own == queue then weight else 0) = 0
      rw [hother, if_neg Bool.false_ne_true]
  | _ => exact ⟨rfl, rfl⟩

theorem Inv.settled (hinv : Inv s) (hfree : s.domain.locks queue = false) :
    s.unrecorded queue = 0 ∧ s.uncounted queue = 0 := by
  have hcount := hinv.locks queue
  rw [hfree, if_neg Bool.false_ne_true] at hcount
  have hnone : ∀ p ∈ s.parties, p.holds queue = false := by
    intro p hp
    by_contra hholds
    have hpos : 0 < s.parties.countP (·.holds queue) :=
      countP_pos_iff.mpr ⟨p, hp, Bool.eq_true_of_not_eq_false hholds⟩
    omega
  constructor
  · refine List.sum_eq_zero_iff_forall_eq_nat.mpr fun weight hweight => ?_
    obtain ⟨p, hp, rfl⟩ := List.mem_map.mp hweight
    exact (Party.unrecorded_of_not_holds (hnone p hp)).1
  · refine List.sum_eq_zero_iff_forall_eq_nat.mpr fun nodes hnodes => ?_
    obtain ⟨p, hp, rfl⟩ := List.mem_map.mp hnodes
    exact (Party.unrecorded_of_not_holds (hnone p hp)).2

theorem frame_detach (queue : GenerationIndex) (hok : PartyOk d r) :
    PartyOk (d.setQueue queue []) r := by
  have hempty : ∀ own, d.queues own = [] → (d.setQueue queue []).queues own = [] := by
    intro own hown
    by_cases h : own = queue
    · rw [h, Domain.setQueue_self]
    · rw [Domain.setQueue_ne d [] h, hown]
  cases r with
  | enqueue own weight at_ => exact hok
  | clear at_ =>
    cases at_ with
    | nodes => exact ⟨hempty _ hok.1, hempty _ hok.2⟩
    | zero | reset => exact ⟨hempty _ hok.1, hempty _ hok.2.1, hok.2.2⟩
    | _ => exact trivial
  | _ => exact trivial

/-- **Detaching a queue keeps the invariant**: its entries move to the batch. -/
theorem Inv.detach (hinv : Inv s) (hp : s.parties[i]? = some (.account entries .test))
    (hfree : s.domain.locks queue = false) : Inv (s.move i (s.domain.setQueue queue [])
      (.account (entries ++ s.domain.queues queue) .test)) := by
  have hsettled := hinv.settled hfree
  -- the two queues together lose what the batch wins
  have hqueues : ∀ f : List Nat → Nat, f [] = 0 →
      f ((s.domain.setQueue queue []).queues false) + f ((s.domain.setQueue queue []).queues true) +
        f (s.domain.queues queue) = f (s.domain.queues false) + f (s.domain.queues true) := by
    intro f hnil
    cases queue with
    | false | true =>
      rw [Domain.setQueue_self, Domain.setQueue_ne s.domain [] (by decide), hnil]
      omega
  have hunrecorded := fun own => sum_move (·.unrecorded own) hp (s.domain.setQueue queue [])
    (.account (entries ++ s.domain.queues queue) .test)
  have huncounted := fun own => sum_move (·.uncounted own) hp (s.domain.setQueue queue [])
    (.account (entries ++ s.domain.queues queue) .test)
  have hsum : (entries ++ s.domain.queues queue).sum = entries.sum + (s.domain.queues queue).sum :=
    sum_append
  have hlength : (entries ++ s.domain.queues queue).length =
      entries.length + (s.domain.queues queue).length := length_append
  refine ⟨fun own => ?_, fun own => ?_, fun own => ?_, ?_, fun hopen => ?_, ?_, hinv.bounded,
    fun r hr => ?_, hinv.aborted⟩
  · have hset := countP_set_add (·.holds own)
      (Party.account (entries ++ s.domain.queues queue) .test) hp
    exact (Nat.add_right_cancel hset).trans (hinv.locks own)
  · have hsame := Nat.add_right_cancel (hunrecorded own)
    show ((s.move i _ _).parties.map _).sum ≤ _
    by_cases h : own = queue
    · subst h
      rw [hsame]
      exact Nat.le_trans (Nat.le_of_eq hsettled.1) (Nat.zero_le _)
    · rw [hsame]
      show _ ≤ ((s.domain.setQueue queue []).queues own).sum
      rw [Domain.setQueue_ne s.domain [] h]
      exact hinv.unrecorded own
  · have hsame := Nat.add_right_cancel (huncounted own)
    show ((s.move i _ _).parties.map _).sum ≤ _
    by_cases h : own = queue
    · subst h
      rw [hsame]
      exact Nat.le_trans (Nat.le_of_eq hsettled.2) (Nat.zero_le _)
    · rw [hsame]
      show _ ≤ ((s.domain.setQueue queue []).queues own).length
      rw [Domain.setQueue_ne s.domain [] h]
      exact hinv.uncounted own
  · have hfirst := Nat.add_right_cancel (huncounted false)
    have hsecond := Nat.add_right_cancel (huncounted true)
    have hdetached : ((s.move i (s.domain.setQueue queue [])
        (.account (entries ++ s.domain.queues queue) .test)).parties.map (·.detachedNodes)).sum +
          entries.length =
        (s.parties.map (·.detachedNodes)).sum + (entries ++ s.domain.queues queue).length :=
      sum_move (·.detachedNodes) hp _ _
    have hmoved := hqueues length rfl
    have hold := hinv.nodes
    unfold State.uncounted State.queuedNodes State.detachedNodes at hold ⊢
    rw [hfirst, hsecond]
    rw [hlength] at hdetached
    show s.domain.pendingNodes + _ = ((s.domain.setQueue queue []).queues false).length +
      ((s.domain.setQueue queue []).queues true).length + _
    omega
  · have hfirst := Nat.add_right_cancel (hunrecorded false)
    have hsecond := Nat.add_right_cancel (hunrecorded true)
    have hdetached : ((s.move i (s.domain.setQueue queue [])
        (.account (entries ++ s.domain.queues queue) .test)).parties.map (·.detached)).sum +
          entries.sum =
        (s.parties.map (·.detached)).sum + (entries ++ s.domain.queues queue).sum :=
      sum_move (·.detached) hp _ _
    have hmoved := hqueues sum rfl
    have hold := hinv.exact hopen
    unfold State.unrecorded State.queued State.detached at hold ⊢
    rw [hfirst, hsecond]
    rw [hsum] at hdetached
    show s.domain.pendingWeight + _ = ((s.domain.setQueue queue []).queues false).sum +
      ((s.domain.setQueue queue []).queues true).sum + _
    omega
  · have hset := sum_move (·.subtracting) hp (s.domain.setQueue queue [])
      (.account (entries ++ s.domain.queues queue) .test)
    have hsame := Nat.add_right_cancel hset
    unfold State.subtracting
    rw [hsame]
    exact hinv.covered
  · obtain ⟨j, hj⟩ := mem_iff_getElem?.mp hr
    rcases getElem?_set_cases hp hj with ⟨-, rfl⟩ | ⟨-, hj⟩
    · exact trivial
    · exact frame_detach queue (hinv.parties r (mem_of_getElem? hj))

-- ---- Every step.

theorem Inv.new : Inv State.new where
  locks _ := rfl
  unrecorded _ := Nat.le_refl _
  uncounted _ := Nat.le_refl _
  nodes := rfl
  exact _ := rfl
  covered := Nat.le_refl _
  bounded := Nat.zero_le _
  parties := by rintro p ⟨⟩
  aborted := nofun

theorem Inv.add (hinv : Inv s) (hok : PartyOk s.domain p) (hholds : ∀ queue, p.holds queue = false)
    (hdetached : p.detached = 0) (hnodes : p.detachedNodes = 0) : Inv (s.add p) := by
  have hsum : ∀ f : Party → Nat, f p = 0 →
      ((s.parties ++ [p]).map f).sum = (s.parties.map f).sum := by
    intro f hf
    rw [map_append, sum_append, map_singleton, sum_singleton, hf, Nat.add_zero]
  have hunrecorded : ∀ queue, (s.add p).unrecorded queue = s.unrecorded queue :=
    fun queue => hsum _ (Party.unrecorded_of_not_holds (hholds queue)).1
  have huncounted : ∀ queue, (s.add p).uncounted queue = s.uncounted queue :=
    fun queue => hsum _ (Party.unrecorded_of_not_holds (hholds queue)).2
  have hsame : (s.add p).detached = s.detached := hsum _ hdetached
  have hsubtracting : (s.add p).subtracting = s.subtracting :=
    hsum _ (Nat.le_zero.mp (hdetached ▸ p.subtracting_le))
  have hsameNodes : (s.add p).detachedNodes = s.detachedNodes := hsum _ hnodes
  refine ⟨fun queue => ?_, fun queue => ?_, fun queue => ?_, ?_, fun hopen => ?_, ?_, hinv.bounded,
    fun r hr => ?_, hinv.aborted⟩
  · show (s.parties ++ [p]).countP (·.holds queue) = _
    rw [countP_append, countP_singleton, hholds, if_neg Bool.false_ne_true, Nat.add_zero]
    exact hinv.locks queue
  · rw [hunrecorded]
    exact hinv.unrecorded queue
  · rw [huncounted]
    exact hinv.uncounted queue
  · rw [huncounted, huncounted, hsameNodes]
    exact hinv.nodes
  · rw [hunrecorded, hunrecorded, hsame]
    exact hinv.exact hopen
  · rw [hsubtracting]
    exact hinv.covered
  · rcases mem_append.mp hr with hr | hr
    · exact hinv.parties r hr
    · rw [mem_singleton.mp hr]
      exact hok

theorem enqueueStep_failStop {weight : Nat} {at_ : Enqueue} {why : Abort}
    (h : enqueueStep usizeMax d queue weight spurious at_ = .failStop why) : why = .overflow := by
  cases at_ with
  | lock | exchange current next =>
    simp only [enqueueStep] at h
    split at h <;> cases h
  | count =>
    simp only [enqueueStep] at h
    split at h <;> cases h
    rfl
  | test current =>
    simp only [enqueueStep] at h
    split at h
    · cases h
    · split at h <;> cases h
  | _ => cases h

/-- **The invariant is kept by every step.** -/
theorem Inv.step (hinv : Inv s) {action : Action} (h : step usizeMax s action = some s') :
    Inv s' := by
  unfold Pending.step at h
  split at h
  next => cases h
  next =>
    cases action with
    | enqueue queue weight =>
      simp only [] at h
      split at h
      next hweight =>
        cases h
        exact hinv.add ⟨hweight, trivial⟩ (fun _ => rfl) rfl rfl
      next => cases h
    | account | clear =>
      cases h
      exact hinv.add trivial (fun _ => rfl) rfl rfl
    | detach party queue =>
      simp only [] at h
      split at h
      next entries hp =>
        split at h
        next => cases h
        next hfree =>
          cases h
          exact hinv.detach hp (Bool.eq_false_iff.mpr hfree)
      next => cases h
    | party party spurious =>
      simp only [] at h
      split at h
      next => cases h
      next p hp =>
        cases p with
        | enqueue queue weight at_ =>
          simp only [partyStep] at h
          split at h
          next d' p' hstep =>
            cases h
            exact hinv.enqueue hp hstep
          next why hstep =>
            cases h
            refine ⟨hinv.locks, hinv.unrecorded, hinv.uncounted, hinv.nodes, hinv.exact,
              hinv.covered, hinv.bounded, hinv.parties, ?_⟩
            rw [enqueueStep_failStop hstep]
            rintro ⟨⟩
          next => cases h
        | account entries at_ =>
          obtain ⟨d', p', hstep, hinv'⟩ := hinv.account hp
          simp only [partyStep, hstep] at h
          cases h
          exact hinv'
        | clear at_ =>
          obtain ⟨d', p', hstep, hinv'⟩ := hinv.clear hp
          simp only [partyStep, hstep] at h
          cases h
          exact hinv'
        | finished => cases h

-- ---- The guarantee.

/-- The weight of entries that an enqueueing call has appended and not yet added. -/
def State.beingAdded (s : State) : Nat := s.unrecorded false + s.unrecorded true

/-- The weight of all entries that no accounting has taken away again. -/
def State.unaccounted (s : State) : Nat := s.queued + s.detached

theorem Reachable.inv (h : Reachable (step usizeMax) .new s) : Inv s :=
  Lib.Reachable.invariant (fun _ _ _ hi hs => hi.step hs) Inv.new h

/-- **Only the last store of a clearing call takes the flag down.** -/
theorem saturated_or_reset (h : partyStep usizeMax d spurious p = .moved d' p')
    (hbefore : d.saturated = true) : d'.saturated = true ∨ p = .clear .reset := by
  cases p with
  | enqueue queue weight at_ =>
    left
    cases at_ with
    | lock | count =>
      simp only [partyStep, enqueueStep] at h
      split at h <;> cases h
      exact hbefore
    | test current =>
      simp only [partyStep, enqueueStep, hbefore, if_true] at h
      cases h
      exact hbefore
    | saturate current =>
      cases h
      rfl
    | exchange current next =>
      simp only [partyStep, enqueueStep] at h
      split at h <;> cases h
      · exact hbefore
      · exact hbefore
    | _ =>
      cases h
      exact hbefore
  | account entries at_ =>
    left
    cases at_ with
    | test =>
      simp only [partyStep, accountStep, hbefore, if_true] at h
      cases h
      exact hbefore
    | _ =>
      simp only [partyStep, accountStep] at h
      split at h <;> cases h
      exact hbefore
  | clear at_ =>
    cases at_ with
    | reset => exact .inr rfl
    | lockFirst | lockSecond =>
      left
      simp only [partyStep, clearStep] at h
      split at h <;> cases h
      · exact hbefore
      · exact hbefore
    | _ =>
      left
      cases h
      exact hbefore
  | finished => cases h

/-- **The flag goes down only where nothing is pending.** -/
theorem Inv.reset (hinv : Inv s) {action : Action} (h : Pending.step usizeMax s action = some s')
    (hbefore : s.domain.saturated = true) (hafter : s'.domain.saturated = false) :
    s.domain.pendingNodes = 0 ∧ s.unaccounted = 0 ∧ s.queuedNodes = 0 ∧ s.detachedNodes = 0 := by
  have hsame : s'.domain = s.domain → False := by
    intro heq
    rw [heq, hbefore] at hafter
    cases hafter
  unfold Pending.step at h
  split at h
  next => cases h
  next =>
    cases action with
    | enqueue queue weight =>
      simp only [] at h
      split at h <;> cases h
      exact (hsame rfl).elim
    | account | clear =>
      cases h
      exact (hsame rfl).elim
    | detach party queue =>
      simp only [] at h
      split at h
      next =>
        split at h <;> cases h
        have hflag : s.domain.saturated = false := hafter
        rw [hbefore] at hflag
        cases hflag
      next => cases h
    | party party spurious =>
      simp only [] at h
      split at h
      next => cases h
      next p hp =>
        split at h
        next d' p' hstep =>
          cases h
          rcases saturated_or_reset hstep hbefore with hflag | rfl
          · have hdown : d'.saturated = false := hafter
            rw [hflag] at hdown
            cases hdown
          · obtain ⟨hfirst, hsecond, hnodes, -⟩ := hinv.parties _ (mem_of_getElem? hp)
            have hnothing := hinv.nothing hfirst hsecond hnodes
            have hdetached := hinv.detachedNodes_le
            refine ⟨hnodes, ?_, ?_, by omega⟩
            · rw [State.unaccounted, hnothing.queued, hnothing.detached]
            · rw [State.queuedNodes, hfirst, hsecond]
              rfl
        next =>
          cases h
          exact (hsame rfl).elim
        next => cases h

/-- **Pending weight.** In every interleaving of enqueueing, accounting and clearing no
subtraction underflows. While the sum has not left `u64` it is exact: with what is just being
added it is the weight of all entries not yet accounted for. Once it has, the reported weight is
`u64::MAX`; a report is never below the sum as far as `u64` can say it, and the flag goes down
only where nothing is pending. -/
theorem pending_weight_exact (h : Reachable (step usizeMax) .new s) : s.aborted ≠ some .underflow ∧
    (s.domain.saturated = false → s.domain.reportedWeight = s.domain.pendingWeight ∧
      s.domain.pendingWeight + s.beingAdded = s.unaccounted) ∧
    (s.domain.saturated = true → s.domain.reportedWeight = u64Max) ∧
    min s.unaccounted u64Max ≤ s.domain.reportedWeight + s.beingAdded ∧
    (∀ action s', step usizeMax s action = some s' → s.domain.saturated = true →
      s'.domain.saturated = false →
      s.domain.pendingNodes = 0 ∧ s.unaccounted = 0 ∧ s.queuedNodes = 0 ∧ s.detachedNodes = 0) := by
  have hinv := Reachable.inv h
  refine ⟨hinv.aborted, fun hopen => ⟨?_, hinv.exact hopen⟩, fun hsaturated => ?_, ?_,
    fun action s' hstep hbefore hafter => hinv.reset hstep hbefore hafter⟩
  · rw [Domain.reportedWeight, hopen, if_neg Bool.false_ne_true]
  · exact if_pos hsaturated
  · cases hsaturated : s.domain.saturated with
    | true =>
      rw [Domain.reportedWeight, hsaturated, if_pos rfl]
      exact Nat.le_trans (Nat.min_le_right _ _) (Nat.le_add_right _ _)
    | false =>
      rw [Domain.reportedWeight, hsaturated, if_neg Bool.false_ne_true]
      exact Nat.le_trans (Nat.min_le_left _ _) (Nat.le_of_eq (hinv.exact hsaturated).symm)

/-- Two nodes whose weights leave `u64` together. -/
def saturatingRun : List Action :=
  flatten [[.enqueue false u64Max], .replicate 8 (.party 0 false),
    [.enqueue true u64Max], .replicate 9 (.party 1 false)]

/-- Both are detached and accounted for, and the flag is cleared. -/
def clearingRun : List Action :=
  saturatingRun ++ flatten [[.account, .detach 2 false, .detach 2 true],
    .replicate 2 (.party 2 false), [.clear], .replicate 9 (.party 3 false)]

theorem pending_weight_exact_cleared :
    ∃ s, run (step (2 ^ 64 - 1)) .new clearingRun = some s ∧ s.domain.saturated = false ∧
      s.domain.pendingWeight + s.beingAdded = s.unaccounted ∧ s.aborted ≠ some .underflow := by
  have hvalue : ((run (step (2 ^ 64 - 1)) .new clearingRun).map fun s => s.domain.saturated) =
      some false := by
    decide +kernel
  obtain ⟨s, hrun, hopen⟩ := Option.map_eq_some_iff.mp hvalue
  have hexact := pending_weight_exact ⟨_, hrun⟩
  exact ⟨s, hrun, hopen, (hexact.2.1 hopen).2, hexact.1⟩

theorem saturated_report_below_sum :
    ¬∀ s, Reachable (step (2 ^ 64 - 1)) .new s → s.domain.saturated = true →
      s.unaccounted ≤ s.domain.reportedWeight := by
  intro h
  have hvalue : ((run (step (2 ^ 64 - 1)) .new saturatingRun).map fun s =>
      (s.domain.saturated, decide (s.unaccounted ≤ s.domain.reportedWeight))) =
      some (true, false) := by
    decide +kernel
  obtain ⟨s, hrun, hs⟩ := Option.map_eq_some_iff.mp hvalue
  rw [Prod.mk.injEq, decide_eq_false_iff_not] at hs
  exact hs.2 (h s ⟨_, hrun⟩ hs.1)

end Xlfn.Cache.Pending
