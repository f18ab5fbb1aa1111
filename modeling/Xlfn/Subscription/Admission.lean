import Xlfn.Lib.Utf16
import Xlfn.Subscription.Channel

/-!
# Xlfn — the admission of values

What one send does to a channel, its ledger and its two budgets while nobody else takes a step.
A charge is asked of the source's budget and then of the runtime's, and given back to the first
where the second refuses; a latest-value channel charges the growth of a replacement before it
and returns the shrinkage after it. A release of more than is used, a sum that overflows and a
queue that is not as expected have no result; memory is always there.

* `StoredRtdValue` — a value that was validated.
* `BufferLedger.tryPushBatch`, `BufferLedger.resize` — charging both budgets.
* `Admission.trySendPending`, `Admission.trySendPendingBatch` — the two sends.
* `Admission.sendEach` — the values of a batch, one send after the other.
* `Admission.step` — what happens to a channel, one operation at a time.
-/

namespace Xlfn.Subscription

open Xlfn.Lib

-- ---- Values.

/-- `EXCEL_STRING_LIMIT`. -/
def excelStringLimit : Nat := 32767

/-- A converted value; a number is finite, and is kept by its bits here. -/
inductive StoredRtdValue where
  | number (bits : UInt64)
  | boolean (value : Bool)
  | integer (value : Int)
  | string (text : List Char) (valid : Utf16.length text ≤ excelStringLimit)
  | error (code : Nat)
  | empty
deriving DecidableEq

/-- `size_of::<StoredRtdValue>()`. -/
def storedRtdValueSize : Nat := 24

/-- `value_bytes`. -/
def storedBytes (value : StoredRtdValue) : Nat :=
  storedRtdValueSize +
    match value with
    | .string text _ => (Utf16.utf8 text).length
    | _ => 0

/-- `RtdPendingBatch`. -/
structure RtdPendingBatch where
  values  : List StoredRtdValue
  bounded : values.length ≤ 32
deriving DecidableEq

/-- A sum in `usize`. -/
def sumBytes : List StoredRtdValue → Option Nat
  | [] => some 0
  | value :: values => (sumBytes values).bind (checkedAdd (storedBytes value))

-- ---- Two budgets.

structure BudgetPair where
  source  : ChannelBudget
  runtime : ChannelBudget
deriving DecidableEq

namespace BudgetPair

/-- `BudgetPair::acquire`. -/
def acquire (budgets : BudgetPair) (values bytes : Nat) : Option (BudgetPair × Bool) :=
  match budgets.source.acquireBuffered values bytes with
  | none => some (budgets, false)
  | some source =>
    match budgets.runtime.acquireBuffered values bytes with
    | none =>
      (source.releaseBuffered values bytes).map fun source => (⟨source, budgets.runtime⟩, false)
    | some runtime => some (⟨source, runtime⟩, true)

/-- `BudgetPair::release`. -/
def release (budgets : BudgetPair) (values bytes : Nat) : Option BudgetPair := do
  let source ← budgets.source.releaseBuffered values bytes
  let runtime ← budgets.runtime.releaseBuffered values bytes
  some ⟨source, runtime⟩

end BudgetPair

namespace BufferLedger

/-- `try_push_batch`. -/
def tryPushBatch (ledger : BufferLedger) (budgets : BudgetPair) (values bytes : Nat) :
    Option (BufferLedger × BudgetPair × Bool) :=
  if values = 0 then some (ledger, budgets, true)
  else
    match checkedAdd ledger.values values, checkedAdd ledger.bytes bytes with
    | some nextValues, some nextBytes =>
      (budgets.acquire values bytes).map fun (budgets, granted) =>
        (if granted then ⟨nextValues, nextBytes⟩ else ledger, budgets, granted)
    | _, _ => some (ledger, budgets, false)

/-- `try_push`. -/
def tryPush (ledger : BufferLedger) (budgets : BudgetPair) (bytes : Nat) :
    Option (BufferLedger × BudgetPair × Bool) :=
  ledger.tryPushBatch budgets 1 bytes

/-- `resize`, with `resize_charge`. -/
def resize (ledger : BufferLedger) (budgets : BudgetPair) (bytes : Nat) :
    Option (BufferLedger × BudgetPair × Bool) :=
  if ledger.bytes < bytes then
    (budgets.acquire 0 (bytes - ledger.bytes)).map fun (budgets, granted) =>
      (if granted then { ledger with bytes := bytes } else ledger, budgets, granted)
  else if bytes < ledger.bytes then
    (budgets.release 0 (ledger.bytes - bytes)).map fun budgets =>
      ({ ledger with bytes := bytes }, budgets, true)
  else some ({ ledger with bytes := bytes }, budgets, true)

end BufferLedger

-- ---- The sends.

/-- A channel with its budgets. `accepting` is the atomic copy of the flag, `attached` that there
is a publisher queue, and `ready` the entries of the channel in it. -/
structure Admission (E : Type) where
  channel   : ChannelState StoredRtdValue E
  budgets   : BudgetPair
  accepting : Bool
  attached  : Bool
  ready     : Nat
deriving DecidableEq

/-- What a send returns; a refused payload comes back. -/
inductive SendOutcome (P : Type) where
  | ok
  | full (payload : P)
  | closed (payload : P)
deriving DecidableEq

/-- The same outcome for another payload. -/
def SendOutcome.withPayload {P Q : Type} (payload : Q) : SendOutcome P → SendOutcome Q
  | .ok => .ok
  | .full _ => .full payload
  | .closed _ => .closed payload

namespace Admission

variable {E : Type}

section

variable (s : Admission E)

/-- An operation on the ledger. -/
def charge (operation : BufferLedger → BudgetPair → Option (BufferLedger × BudgetPair × Bool)) :
    Option (Admission E × Bool) :=
  (operation s.channel.buffered s.budgets).map fun (buffered, budgets, granted) =>
    ({ s with channel := { s.channel with buffered := buffered }, budgets := budgets }, granted)

/-- The queue after the charge. -/
def withValues (values : List StoredRtdValue) : Admission E :=
  { s with channel := { s.channel with values := values } }

/-- `reserve_schedule` and `enqueue_reserved`. -/
def schedule : Admission E :=
  if s.attached then
    match s.channel.reserveSchedule with
    | (channel, true) => { s with channel := channel, ready := s.ready + 1 }
    | (_, false) => s
  else s

/-- The replacement of the value of a latest-value channel, if the growth is granted. -/
def replaceLatest (value : StoredRtdValue) : Option (Admission E × Bool) := do
  let bytes := storedBytes value
  let previousBytes := s.channel.buffered.bytes
  let (s, granted) ← if previousBytes < bytes then s.charge (·.resize · bytes) else some (s, true)
  if !granted then some (s, false)
  else
    let s := s.withValues (s.channel.values.dropLast ++ [value])
    let (s, _) ← if bytes < previousBytes then s.charge (·.resize · bytes) else some (s, true)
    some (s, true)

/-- The value is charged, pushed, and announced where the queue was empty. -/
def pushPending (value : StoredRtdValue) : Option (Admission E × SendOutcome StoredRtdValue) := do
  let (charged, granted) ← s.charge (·.tryPush · (storedBytes value))
  if !granted then some (charged, .full value)
  else
    let pushed := charged.withValues (s.channel.values ++ [value])
    some (if s.channel.values.isEmpty then pushed.schedule else pushed, .ok)

/-- `try_send_pending`. -/
def trySendPending (delivery : RtdDelivery) (value : StoredRtdValue) :
    Option (Admission E × SendOutcome StoredRtdValue) :=
  if !s.accepting then some (s, .closed value)
  else if !s.channel.accepting then some (s, .closed value)
  else if delivery = .latest ∧ s.channel.values ≠ [] then do
    let (s, granted) ← s.replaceLatest value
    some (s, if granted then .ok else .full value)
  else
    match delivery with
    | .fifo capacity =>
      if capacity.get ≤ s.channel.values.length then some (s, .full value) else s.pushPending value
    | .latest => s.pushPending value

/-- `try_send_pending_batch`. -/
def trySendPendingBatch (delivery : RtdDelivery) (batch : RtdPendingBatch) :
    Option (Admission E × SendOutcome RtdPendingBatch) :=
  if batch.values = [] then some (s, .ok)
  else if !s.accepting then some (s, .closed batch)
  else if !s.channel.accepting then some (s, .closed batch)
  else
    let wasEmpty := s.channel.values.isEmpty
    let announce (s : Admission E) : Admission E := if wasEmpty then s.schedule else s
    match delivery with
    | .latest => do
      let value ← batch.values.getLast?
      if s.channel.values ≠ [] then
        let (s, granted) ← s.replaceLatest value
        if !granted then some (s, .full batch) else some (announce s, .ok)
      else
        let (charged, granted) ← s.charge (·.tryPush · (storedBytes value))
        if !granted then some (charged, .full batch)
        else some (announce (charged.withValues [value]), .ok)
    | .fifo capacity =>
      if capacity.get < min usizeMax (s.channel.values.length + batch.values.length) then
        some (s, .full batch)
      else do
        let bytes ← sumBytes batch.values
        let (charged, granted) ← s.charge (·.tryPushBatch · batch.values.length bytes)
        if !granted then some (charged, .full batch)
        else some (announce (charged.withValues (s.channel.values ++ batch.values)), .ok)

end

/-- The values one by one, with what each send returns. -/
def sendEach (s : Admission E) (delivery : RtdDelivery) :
    List StoredRtdValue → Option (Admission E × List (SendOutcome StoredRtdValue))
  | [] => some (s, [])
  | value :: values => do
    let (s, outcome) ← s.trySendPending delivery value
    let (s, outcomes) ← s.sendEach delivery values
    some (s, outcome :: outcomes)

-- ---- A channel that is in no operation.

/-- The ledger counts the queue, both budgets hold the charge, and a latest-value channel has
room for one value. -/
structure Settled (s : Admission E) (delivery : RtdDelivery) : Prop where
  slot    : delivery = .latest → s.channel.values.length ≤ 1
  values  : s.channel.buffered.values = s.channel.values.length
  bytes   : s.channel.buffered.bytes = (s.channel.values.map storedBytes).sum
  source  : s.channel.buffered.values ≤ s.budgets.source.used.values ∧
    s.channel.buffered.bytes ≤ s.budgets.source.used.bytes
  runtime : s.channel.buffered.values ≤ s.budgets.runtime.used.values ∧
    s.channel.buffered.bytes ≤ s.budgets.runtime.used.bytes

-- ---- What happens to a channel.

/-- A new channel, whose budgets others use too. -/
def new (budgets : BudgetPair) (attached : Bool) : Admission E where
  channel   := .new
  budgets   := budgets
  accepting := true
  attached  := attached
  ready     := 0

/-- The publisher takes the oldest values; their charge is returned once they are destroyed. -/
def take (s : Admission E) (count : Nat) : Option (Admission E) :=
  let taken := s.channel.values.take count
  let bytes := (taken.map storedBytes).sum
  (s.budgets.release taken.length bytes).map fun budgets =>
    { s with
      channel := { s.channel with
        values   := s.channel.values.drop count
        buffered := ⟨s.channel.buffered.values - taken.length, s.channel.buffered.bytes - bytes⟩ }
      budgets := budgets }

/-- What happens to a channel: a send, a turn of the publisher, a change of its flags, or what
others charge to its budgets and return to them. -/
inductive Action (E : Type) where
  | send (value : StoredRtdValue)
  | sendBatch (batch : RtdPendingBatch)
  | take (count : Nat)
  | mark (accepting channelAccepting stopping scheduled : Bool) (terminalError : Option E)
      (ready : Nat)
  | others (budgets : BudgetPair)
deriving DecidableEq

/-- Others return only what they charged. -/
def step (delivery : RtdDelivery) (s : Admission E) : Action E → Option (Admission E)
  | .send value => (s.trySendPending delivery value).map Prod.fst
  | .sendBatch batch => (s.trySendPendingBatch delivery batch).map Prod.fst
  | .take count => s.take count
  | .mark accepting channelAccepting stopping scheduled terminalError ready =>
    some { s with
      channel := { s.channel with
        accepting     := channelAccepting
        stopping      := stopping
        scheduled     := scheduled
        terminalError := terminalError }
      accepting := accepting
      ready     := ready }
  | .others budgets =>
    if (s.channel.buffered.values ≤ budgets.source.used.values ∧
        s.channel.buffered.bytes ≤ budgets.source.used.bytes) ∧
      s.channel.buffered.values ≤ budgets.runtime.used.values ∧
        s.channel.buffered.bytes ≤ budgets.runtime.used.bytes then
      some { s with budgets := budgets }
    else none

end Admission

end Xlfn.Subscription
