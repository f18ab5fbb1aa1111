import Mathlib.Logic.Function.Basic
import Xlfn.Lib.Machine
import Xlfn.Lib.Table

/-!
# Xlfn — the budgets of RTD channels

`subscription/budget.rs` counts what the channels of a source and of a runtime
hold: subscriptions, buffered values, their bytes, and workers. A channel charges
its queued values to two budgets, its source's and the runtime's, one after the
other, each under its own lock, and gives the first charge back when the second
is refused. A batch that leaves the queue takes its charge along as a permit.

The machine below has any number of sources, channels and permits, and makes one
access to one budget a step. A channel's ledger is behind the channel's state
lock, so it is in at most one operation at a time (`LedgerPhase`).

* `ChannelBudget.acquire`, `acquireBuffered`, `release`, `releaseBuffered` — one
  budget, under its lock.
* `Acquired`, `Released` — what they do to it.
* `BudgetSystem` — the budgets and everybody who holds a part of them.
-/

namespace Xlfn.Subscription

open Xlfn.Lib Option

/-- `usize::MAX`. -/
def usizeMax : Nat := 0xFFFFFFFFFFFFFFFF

/-- `usize::checked_add`. -/
def checkedAdd (a b : Nat) : Option Nat := if a + b ≤ usizeMax then some (a + b) else none

/-- A subtraction that must not underflow; `none` where it does. -/
def checkedSub (a b : Nat) : Option Nat := if b ≤ a then some (a - b) else none

/-- The accounted fields. -/
inductive Resource where
  | subscriptions
  | values
  | bytes
  | workers
deriving DecidableEq

structure Usage where
  subscriptions : Nat
  values        : Nat
  bytes         : Nat
  workers       : Nat
deriving DecidableEq

def Usage.get (usage : Usage) : Resource → Nat
  | .subscriptions => usage.subscriptions
  | .values => usage.values
  | .bytes => usage.bytes
  | .workers => usage.workers

/-- `Usage::default`. -/
def Usage.zero : Usage := ⟨0, 0, 0, 0⟩

/-- The charge of buffered values. -/
def Usage.buffered (values bytes : Nat) : Usage := ⟨0, values, bytes, 0⟩

/-- The limits `configure_source` sets. -/
structure SourceLimits where
  subscriptions : Nat
  values        : Nat
  bytes         : Nat
deriving DecidableEq

/-- The state of a `ChannelBudget`. `configured` is history: how often a limit was
set. -/
structure ChannelBudget where
  limit      : Usage
  used       : Usage
  configured : Nat
deriving DecidableEq

namespace ChannelBudget

/-- `ChannelBudget::new`. -/
def new (limit : Usage) : ChannelBudget := ⟨limit, .zero, 0⟩

/-- `ChannelBudget::source`. -/
def source (limits : SourceLimits) : ChannelBudget :=
  new ⟨limits.subscriptions, limits.values, limits.bytes, usizeMax⟩

/-- `ChannelBudget::runtime`. -/
def runtime (values bytes workers : Nat) : ChannelBudget := new ⟨usizeMax, values, bytes, workers⟩

section

variable (budget : ChannelBudget)

def configureSource (limits : SourceLimits) : ChannelBudget :=
  { budget with
    limit := { budget.limit with
      subscriptions := limits.subscriptions
      values        := limits.values
      bytes         := limits.bytes }
    configured := budget.configured + 1 }

def configureWorkerLimit (limit : Nat) : ChannelBudget :=
  { budget with
    limit      := { budget.limit with workers := limit }
    configured := budget.configured + 1 }

/-- The closure `add` of `acquire`: nothing is checked where nothing is wanted. -/
def add (used amount limit : Nat) : Option Nat :=
  if amount = 0 then some used else (checkedAdd used amount).filter (· ≤ limit)

/-- `none` is `false`, with the budget as it was. -/
def acquire (amount : Usage) : Option ChannelBudget := do
  let subscriptions ← add budget.used.subscriptions amount.subscriptions budget.limit.subscriptions
  let values ← add budget.used.values amount.values budget.limit.values
  let bytes ← add budget.used.bytes amount.bytes budget.limit.bytes
  let workers ← add budget.used.workers amount.workers budget.limit.workers
  some { budget with used := ⟨subscriptions, values, bytes, workers⟩ }

def acquireBuffered (values bytes : Nat) : Option ChannelBudget := do
  let nextValues ← checkedAdd budget.used.values values
  let nextBytes ← checkedAdd budget.used.bytes bytes
  if (values ≠ 0 ∧ nextValues > budget.limit.values) ∨ (bytes ≠ 0 ∧ nextBytes > budget.limit.bytes)
  then none
  else some { budget with used := { budget.used with values := nextValues, bytes := nextBytes } }

/-- `none` is an underflow. -/
def releaseBuffered (values bytes : Nat) : Option ChannelBudget := do
  let nextValues ← checkedSub budget.used.values values
  let nextBytes ← checkedSub budget.used.bytes bytes
  some { budget with used := { budget.used with values := nextValues, bytes := nextBytes } }

/-- `none` is an underflow. -/
def release (amount : Usage) : Option ChannelBudget := do
  let subscriptions ← checkedSub budget.used.subscriptions amount.subscriptions
  let values ← checkedSub budget.used.values amount.values
  let bytes ← checkedSub budget.used.bytes amount.bytes
  let workers ← checkedSub budget.used.workers amount.workers
  some { budget with used := ⟨subscriptions, values, bytes, workers⟩ }

end

-- ---- What the four operations do.

/-- A successful acquisition. -/
structure Acquired (budget : ChannelBudget) (amount : Usage) (budget' : ChannelBudget) : Prop where
  limit      : budget'.limit = budget.limit
  configured : budget'.configured = budget.configured
  used       : ∀ r, budget'.used.get r = budget.used.get r + amount.get r
  bounded    : ∀ r, amount.get r ≠ 0 → budget'.used.get r ≤ budget'.limit.get r

/-- A release. -/
structure Released (budget : ChannelBudget) (amount : Usage) (budget' : ChannelBudget) : Prop where
  limit      : budget'.limit = budget.limit
  configured : budget'.configured = budget.configured
  used       : ∀ r, budget'.used.get r + amount.get r = budget.used.get r

theorem add_eq_some {used amount limit next : Nat} (h : add used amount limit = some next) :
    next = used + amount ∧ (amount ≠ 0 → next ≤ limit) := by
  unfold add at h
  split at h
  next hzero =>
    cases h
    exact ⟨by omega, fun hne => absurd hzero hne⟩
  next =>
    obtain ⟨hadd, hle⟩ := filter_eq_some_iff.mp h
    unfold checkedAdd at hadd
    split at hadd
    next =>
      cases hadd
      exact ⟨rfl, fun _ => by simpa using hle⟩
    next => cases hadd

variable {budget budget' : ChannelBudget} {amount : Usage}

theorem acquired_of_acquire (h : budget.acquire amount = some budget') :
    Acquired budget amount budget' := by
  unfold acquire at h
  obtain ⟨subscriptions, hs, h⟩ := bind_eq_some_iff.mp h
  obtain ⟨values, hv, h⟩ := bind_eq_some_iff.mp h
  obtain ⟨bytes, hb, h⟩ := bind_eq_some_iff.mp h
  obtain ⟨workers, hw, h⟩ := bind_eq_some_iff.mp h
  cases h
  refine ⟨rfl, rfl, fun r => ?_, fun r => ?_⟩
  · cases r with
    | subscriptions => exact (add_eq_some hs).1
    | values => exact (add_eq_some hv).1
    | bytes => exact (add_eq_some hb).1
    | workers => exact (add_eq_some hw).1
  · cases r with
    | subscriptions => exact (add_eq_some hs).2
    | values => exact (add_eq_some hv).2
    | bytes => exact (add_eq_some hb).2
    | workers => exact (add_eq_some hw).2

variable {a b : Nat}

theorem checkedAdd_eq_some {c : Nat} (h : checkedAdd a b = some c) : c = a + b := by
  unfold checkedAdd at h
  split at h
  next =>
    cases h
    rfl
  next => cases h

variable {values bytes : Nat}

theorem acquired_of_acquireBuffered (h : budget.acquireBuffered values bytes = some budget') :
    Acquired budget (.buffered values bytes) budget' := by
  unfold acquireBuffered at h
  obtain ⟨nextValues, hv, h⟩ := bind_eq_some_iff.mp h
  obtain ⟨nextBytes, hb, h⟩ := bind_eq_some_iff.mp h
  obtain rfl := checkedAdd_eq_some hv
  obtain rfl := checkedAdd_eq_some hb
  split at h
  next => cases h
  next hfits =>
    cases h
    push Not at hfits
    refine ⟨rfl, rfl, fun r => ?_, fun r hne => ?_⟩
    · cases r <;> rfl
    · cases r with
      | subscriptions | workers => exact absurd rfl hne
      | values => exact hfits.1 hne
      | bytes => exact hfits.2 hne

theorem checkedSub_of_le (h : b ≤ a) : checkedSub a b = some (a - b) := if_pos h

theorem checkedSub_eq_some {c : Nat} (h : checkedSub a b = some c) : c + b = a := by
  unfold checkedSub at h
  split at h
  next hle =>
    cases h
    exact Nat.sub_add_cancel hle
  next => cases h

theorem released_of_release (h : budget.release amount = some budget') :
    Released budget amount budget' := by
  unfold release at h
  obtain ⟨subscriptions, hs, h⟩ := bind_eq_some_iff.mp h
  obtain ⟨values, hv, h⟩ := bind_eq_some_iff.mp h
  obtain ⟨bytes, hb, h⟩ := bind_eq_some_iff.mp h
  obtain ⟨workers, hw, h⟩ := bind_eq_some_iff.mp h
  cases h
  refine ⟨rfl, rfl, fun r => ?_⟩
  cases r with
  | subscriptions => exact checkedSub_eq_some hs
  | values => exact checkedSub_eq_some hv
  | bytes => exact checkedSub_eq_some hb
  | workers => exact checkedSub_eq_some hw

theorem released_of_releaseBuffered (h : budget.releaseBuffered values bytes = some budget') :
    Released budget (.buffered values bytes) budget' := by
  unfold releaseBuffered at h
  obtain ⟨nextValues, hv, h⟩ := bind_eq_some_iff.mp h
  obtain ⟨nextBytes, hb, h⟩ := bind_eq_some_iff.mp h
  cases h
  refine ⟨rfl, rfl, fun r => ?_⟩
  cases r with
  | subscriptions => rfl
  | values => exact checkedSub_eq_some hv
  | bytes => exact checkedSub_eq_some hb
  | workers => rfl

theorem release_of_le (h : ∀ r, amount.get r ≤ budget.used.get r) :
    ∃ budget', budget.release amount = some budget' := by
  have hs : amount.subscriptions ≤ budget.used.subscriptions := h .subscriptions
  have hv : amount.values ≤ budget.used.values := h .values
  have hb : amount.bytes ≤ budget.used.bytes := h .bytes
  have hw : amount.workers ≤ budget.used.workers := h .workers
  rw [release, checkedSub_of_le hs, checkedSub_of_le hv, checkedSub_of_le hb, checkedSub_of_le hw]
  exact ⟨_, rfl⟩

theorem releaseBuffered_of_le (h : ∀ r, (Usage.buffered values bytes).get r ≤ budget.used.get r) :
    ∃ budget', budget.releaseBuffered values bytes = some budget' := by
  have hv : values ≤ budget.used.values := h .values
  have hb : bytes ≤ budget.used.bytes := h .bytes
  rw [releaseBuffered, checkedSub_of_le hv, checkedSub_of_le hb]
  exact ⟨_, rfl⟩

end ChannelBudget

-- ---- Ledgers and permits.

/-- A budget: the runtime's, or that of one of the sources. -/
inductive BudgetId (ι : Type) where
  | runtime
  | source (i : ι)
deriving DecidableEq

structure BufferLedger where
  values : Nat
  bytes  : Nat
deriving DecidableEq

/-- Where the operation on a ledger is. -/
inductive LedgerPhase where
  | idle
  /-- `BudgetPair::acquire` has the source's part; `since` is how often the source
  had been configured then. -/
  | sourceAcquired (values bytes : Nat) (since : Nat)
  /-- The runtime refused; the source's part is to be given back. -/
  | runtimeRefused (values bytes : Nat)
  /-- `BudgetPair::release` has given the source's part back. -/
  | sourceReleased (bytes : Nat)
deriving DecidableEq

/-- A channel's ledger, with the pair of budgets it charges. -/
structure ChannelLedger (ι : Type) where
  source : ι
  ledger : BufferLedger
  phase  : LedgerPhase
deriving DecidableEq

/-- Everything that gives a charge back when it is dropped. -/
inductive Permit (ι : Type) where
  | subscription (budget : BudgetId ι)
  | worker (budget : BudgetId ι)
  | buffer (source : ι) (values bytes : Nat)
  /-- A `BufferPermit` being dropped: the runtime's part is still to be given back. -/
  | returning (values bytes : Nat)
  | dropped
deriving DecidableEq

structure BudgetSystem (ι : Type) where
  budgets   : BudgetId ι → ChannelBudget
  channels  : List (ChannelLedger ι)
  permits   : List (Permit ι)
  /-- Some release was larger than what was used. -/
  underflow : Bool

namespace BudgetSystem

variable {ι : Type} [DecidableEq ι]

def new (budgets : BudgetId ι → Usage) : BudgetSystem ι where
  budgets b := .new (budgets b)
  channels  := []
  permits   := []
  underflow := false

section

variable (s : BudgetSystem ι)

def setBudget (b : BudgetId ι) (budget : ChannelBudget) : BudgetSystem ι :=
  { s with budgets := Function.update s.budgets b budget }

def setChannel (k : Nat) (c : ChannelLedger ι) : BudgetSystem ι :=
  { s with channels := s.channels.set k c }

def setPermit (p : Nat) (permit : Permit ι) : BudgetSystem ι :=
  { s with permits := s.permits.set p permit }

def addPermit (permit : Permit ι) : BudgetSystem ι :=
  { s with permits := s.permits ++ [permit] }

/-- A release, or the underflow it would be. -/
def releasing (b : BudgetId ι) (released : Option ChannelBudget)
    (next : BudgetSystem ι → BudgetSystem ι) : BudgetSystem ι :=
  match released with
  | some budget => next (s.setBudget b budget)
  | none => { s with underflow := true }

/-- The first half of `BudgetPair::acquire`. -/
def acquireSource (k : Nat) (c : ChannelLedger ι) (values bytes : Nat) : BudgetSystem ι :=
  match (s.budgets (.source c.source)).acquireBuffered values bytes with
  | some budget =>
    (s.setBudget (.source c.source) budget).setChannel k
      { c with phase := .sourceAcquired values bytes budget.configured }
  | none => s

/-- `try_push_batch` up to its first access to a budget. -/
def tryPushBatch (k : Nat) (c : ChannelLedger ι) (values bytes : Nat) : BudgetSystem ι :=
  if values = 0 then s
  else match checkedAdd c.ledger.values values, checkedAdd c.ledger.bytes bytes with
  | some _, some _ => s.acquireSource k c values bytes
  | _, _ => s

/-- `resize` up to its first access to a budget. -/
def resize (k : Nat) (c : ChannelLedger ι) (bytes : Nat) : BudgetSystem ι :=
  if bytes > c.ledger.bytes then s.acquireSource k c 0 (bytes - c.ledger.bytes)
  else if bytes < c.ledger.bytes then
    s.releasing (.source c.source)
      ((s.budgets (.source c.source)).releaseBuffered 0 (c.ledger.bytes - bytes))
      (·.setChannel k { c with phase := .sourceReleased (c.ledger.bytes - bytes) })
  else s

/-- The next access of the operation on a ledger. A finished one installs the new
counts. -/
def proceed (k : Nat) (c : ChannelLedger ι) : Option (BudgetSystem ι) :=
  match c.phase with
  | .idle => none
  | .sourceAcquired values bytes _ =>
    match (s.budgets .runtime).acquireBuffered values bytes with
    | some budget =>
      some ((s.setBudget .runtime budget).setChannel k
        { c with
          ledger := ⟨c.ledger.values + values, c.ledger.bytes + bytes⟩
          phase  := .idle })
    | none => some (s.setChannel k { c with phase := .runtimeRefused values bytes })
  | .runtimeRefused values bytes =>
    some (s.releasing (.source c.source)
      ((s.budgets (.source c.source)).releaseBuffered values bytes)
      (·.setChannel k { c with phase := .idle }))
  | .sourceReleased bytes =>
    some (s.releasing .runtime ((s.budgets .runtime).releaseBuffered 0 bytes) (·.setChannel k
        { c with
          ledger := { c.ledger with bytes := c.ledger.bytes - bytes }
          phase  := .idle }))

/-- `split`; `none` is the failed assertion. -/
def split (k : Nat) (c : ChannelLedger ι) (values bytes : Nat) : Option (BudgetSystem ι) :=
  if values = 0 then some s
  else if values ≤ c.ledger.values ∧ bytes ≤ c.ledger.bytes then
    some ((s.setChannel k
      { c with ledger := ⟨c.ledger.values - values, c.ledger.bytes - bytes⟩ }).addPermit
        (.buffer c.source values bytes))
  else none

/-- `try_subscription` and `try_worker`. -/
def tryPermit (b : BudgetId ι) (amount : Usage) (permit : Permit ι) : BudgetSystem ι :=
  match (s.budgets b).acquire amount with
  | some budget => (s.setBudget b budget).addPermit permit
  | none => s

/-- The next access of dropping a permit. -/
def dropPermit (p : Nat) : Permit ι → Option (BudgetSystem ι)
  | .subscription b =>
    some (s.releasing b ((s.budgets b).release { Usage.zero with subscriptions := 1 })
      (·.setPermit p .dropped))
  | .worker b =>
    some (s.releasing b ((s.budgets b).release { Usage.zero with workers := 1 })
      (·.setPermit p .dropped))
  | .buffer source values bytes =>
    if values ≠ 0 ∨ bytes ≠ 0 then
      some (s.releasing (.source source) ((s.budgets (.source source)).releaseBuffered values bytes)
        (·.setPermit p (.returning values bytes)))
    else some (s.setPermit p .dropped)
  | .returning values bytes =>
    some (s.releasing .runtime ((s.budgets .runtime).releaseBuffered values bytes)
      (·.setPermit p .dropped))
  | .dropped => none

end

inductive Action (ι : Type) where
  /-- A new channel of a source. -/
  | attach (source : ι)
  | push (k values bytes : Nat)
  | resize (k bytes : Nat)
  /-- The next access of the operation on a ledger. -/
  | proceed (k : Nat)
  | split (k values bytes : Nat)
  | takeAll (k : Nat)
  | trySubscription (b : BudgetId ι)
  | tryWorker (b : BudgetId ι)
  /-- The next access of dropping a permit. -/
  | dropPermit (p : Nat)
  | configureSource (b : BudgetId ι) (limits : SourceLimits)
  | configureWorkerLimit (b : BudgetId ι) (limit : Nat)
deriving DecidableEq

/-- The operation of an idle channel. -/
def whenIdle (s : BudgetSystem ι) (k : Nat)
    (op : ChannelLedger ι → Option (BudgetSystem ι)) : Option (BudgetSystem ι) :=
  match s.channels[k]? with
  | some c => if c.phase = .idle then op c else none
  | none => none

def step (s : BudgetSystem ι) (action : Action ι) : Option (BudgetSystem ι) :=
  if s.underflow then none
  else match action with
  | .attach source => some { s with channels := s.channels ++ [⟨source, ⟨0, 0⟩, .idle⟩] }
  | .push k values bytes => s.whenIdle k fun c => some (s.tryPushBatch k c values bytes)
  | .resize k bytes => s.whenIdle k fun c => some (s.resize k c bytes)
  | .proceed k =>
    match s.channels[k]? with
    | some c => s.proceed k c
    | none => none
  | .split k values bytes => s.whenIdle k fun c => s.split k c values bytes
  | .takeAll k => s.whenIdle k fun c => s.split k c c.ledger.values c.ledger.bytes
  | .trySubscription b =>
    some (s.tryPermit b { Usage.zero with subscriptions := 1 } (.subscription b))
  | .tryWorker b => some (s.tryPermit b { Usage.zero with workers := 1 } (.worker b))
  | .dropPermit p =>
    match s.permits[p]? with
    | some permit => s.dropPermit p permit
    | none => none
  | .configureSource b limits => some (s.setBudget b ((s.budgets b).configureSource limits))
  | .configureWorkerLimit b limit =>
    some (s.setBudget b ((s.budgets b).configureWorkerLimit limit))

end BudgetSystem

end Xlfn.Subscription
