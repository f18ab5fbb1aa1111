import Xlfn.Subscription.Admission

/-!
# Xlfn — batches and single sends

Charging two budgets is one condition on both of them (`Fits`), and conditions for parts of a
batch add up to the condition for the batch. So a batch is admitted exactly if its values are, one
by one, and a latest-value batch exactly if its last value is.
-/

namespace Xlfn.Subscription

open Xlfn.Lib List Option ChannelBudget

-- ---- One budget and two.

variable {restValues restBytes : Nat}

namespace ChannelBudget

/-- The budget has room for more. -/
structure Room (budget : ChannelBudget) (values bytes : Nat) : Prop where
  values : budget.used.values + values ≤ usizeMax ∧
    (values ≠ 0 → budget.used.values + values ≤ budget.limit.values)
  bytes  : budget.used.bytes + bytes ≤ usizeMax ∧
    (bytes ≠ 0 → budget.used.bytes + bytes ≤ budget.limit.bytes)

instance (budget : ChannelBudget) (values bytes : Nat) : Decidable (budget.Room values bytes) :=
  decidable_of_iff
    ((budget.used.values + values ≤ usizeMax ∧
      (values ≠ 0 → budget.used.values + values ≤ budget.limit.values)) ∧
     (budget.used.bytes + bytes ≤ usizeMax ∧
      (bytes ≠ 0 → budget.used.bytes + bytes ≤ budget.limit.bytes)))
    ⟨fun h => ⟨h.1, h.2⟩, fun h => ⟨h.values, h.bytes⟩⟩

def charged (budget : ChannelBudget) (values bytes : Nat) : ChannelBudget :=
  { budget with
    used := { budget.used with
      values := budget.used.values + values
      bytes  := budget.used.bytes + bytes } }

theorem acquireBuffered_eq (budget : ChannelBudget) (values bytes : Nat) :
    budget.acquireBuffered values bytes =
      if budget.Room values bytes then some (budget.charged values bytes) else none := by
  unfold acquireBuffered checkedAdd
  by_cases hvalues : budget.used.values + values ≤ usizeMax
  · by_cases hbytes : budget.used.bytes + bytes ≤ usizeMax
    · rw [if_pos hvalues, if_pos hbytes]
      simp only [bind_eq_bind, bind_some]
      by_cases hroom : budget.Room values bytes
      · rw [if_pos hroom, if_neg]
        · rfl
        · rintro (⟨hne, hgt⟩ | ⟨hne, hgt⟩)
          · exact absurd (hroom.values.2 hne) (Nat.not_le.mpr hgt)
          · exact absurd (hroom.bytes.2 hne) (Nat.not_le.mpr hgt)
      · rw [if_neg hroom, if_pos]
        by_contra hfits
        push Not at hfits
        exact hroom ⟨⟨hvalues, hfits.1⟩, hbytes, hfits.2⟩
    · have hroom : ¬budget.Room values bytes := fun h => hbytes h.bytes.1
      rw [if_pos hvalues, if_neg hbytes, if_neg hroom]
      rfl
  · have hroom : ¬budget.Room values bytes := fun h => hvalues h.values.1
    rw [if_neg hvalues, if_neg hroom]
    rfl

theorem releaseBuffered_charged (budget : ChannelBudget) (values bytes : Nat) :
    (budget.charged values bytes).releaseBuffered values bytes = some budget := by
  unfold releaseBuffered charged
  rw [checkedSub_of_le (Nat.le_add_left _ _), checkedSub_of_le (Nat.le_add_left _ _)]
  simp only [bind_eq_bind, bind_some, Nat.add_sub_cancel]

theorem room_cons {budget : ChannelBudget} {bytes : Nat} :
    budget.Room (1 + restValues) (bytes + restBytes) ↔
      budget.Room 1 bytes ∧ (budget.charged 1 bytes).Room restValues restBytes := by
  unfold charged
  constructor
  · rintro ⟨⟨hv, hlimitV⟩, hb, hlimitB⟩
    have hlimitV := hlimitV (by omega)
    refine ⟨⟨⟨by omega, fun _ => by omega⟩, by omega, fun hne => ?_⟩,
      ⟨⟨by dsimp only; omega, fun _ => by dsimp only; omega⟩, by dsimp only; omega,
        fun hne => ?_⟩⟩
    · have := hlimitB (by omega)
      omega
    · have := hlimitB (by omega)
      dsimp only
      omega
  · rintro ⟨⟨⟨hv, hlimitV⟩, hb, hlimitB⟩, ⟨hv', hlimitV'⟩, hb', hlimitB'⟩
    dsimp only at hv' hlimitV' hb' hlimitB'
    have hlimitV := hlimitV (by omega)
    refine ⟨⟨by omega, fun _ => ?_⟩, by omega, fun hne => ?_⟩
    · by_cases hrest : restValues = 0
      · omega
      · have := hlimitV' hrest
        omega
    · by_cases hrest : restBytes = 0
      · have := hlimitB (by omega)
        omega
      · have := hlimitB' hrest
        omega

end ChannelBudget

theorem BudgetPair.acquire_eq (budgets : BudgetPair) (values bytes : Nat) :
    budgets.acquire values bytes =
      some (if budgets.source.Room values bytes ∧ budgets.runtime.Room values bytes then
        (⟨budgets.source.charged values bytes, budgets.runtime.charged values bytes⟩, true)
      else (budgets, false)) := by
  unfold BudgetPair.acquire
  rw [acquireBuffered_eq, acquireBuffered_eq]
  by_cases hsource : budgets.source.Room values bytes
  · by_cases hruntime : budgets.runtime.Room values bytes
    · rw [if_pos hsource, if_pos hruntime, if_pos ⟨hsource, hruntime⟩]
    · rw [if_pos hsource, if_neg hruntime, if_neg (mt And.right hruntime)]
      dsimp only
      rw [releaseBuffered_charged]
      rfl
  · rw [if_neg hsource, if_neg (mt And.left hsource)]

variable {budgets : BudgetPair}

theorem BudgetPair.release_of_le {bytes : Nat} (hsource : bytes ≤ budgets.source.used.bytes)
    (hruntime : bytes ≤ budgets.runtime.used.bytes) :
    ∃ released, budgets.release 0 bytes = some released ∧
      released.source.used.values = budgets.source.used.values ∧
      released.source.used.bytes = budgets.source.used.bytes - bytes ∧
      released.runtime.used.values = budgets.runtime.used.values ∧
      released.runtime.used.bytes = budgets.runtime.used.bytes - bytes := by
  unfold BudgetPair.release releaseBuffered
  rw [checkedSub_of_le (Nat.zero_le _), checkedSub_of_le hsource,
    checkedSub_of_le (Nat.zero_le _), checkedSub_of_le hruntime]
  exact ⟨_, rfl, rfl, rfl, rfl, rfl⟩

-- ---- Bytes.

theorem storedBytes_le (value : StoredRtdValue) : storedBytes value ≤ 2 ^ 17 := by
  unfold storedBytes storedRtdValueSize
  cases value with
  | string text valid =>
    have hdecode := Utf16.length_utf8_of_decode (Utf16.decode_encode text)
    have hunits : (Utf16.encode text).length ≤ 32767 := valid
    have hplanned := Utf16.plannedBytes_le (Utf16.encode text)
    dsimp only
    omega
  | number | boolean | integer | error | empty =>
    dsimp only
    omega

theorem sumBytes_eq {values : List StoredRtdValue} (h : values.length ≤ 32) :
    sumBytes values = some (values.map storedBytes).sum ∧
      (values.map storedBytes).sum ≤ values.length * 2 ^ 17 := by
  induction values with
  | nil => exact ⟨rfl, Nat.zero_le _⟩
  | cons value values ih =>
    rw [List.length_cons] at h
    obtain ⟨hsum, hbound⟩ := ih (by omega)
    have hvalue := storedBytes_le value
    have hnext : storedBytes value + (values.map storedBytes).sum ≤
        (values.length + 1) * 2 ^ 17 := by
      omega
    rw [map_cons, sum_cons, List.length_cons]
    refine ⟨?_, hnext⟩
    rw [sumBytes, hsum, bind_some, checkedAdd, if_pos]
    rw [usizeMax]
    omega

namespace Admission

variable {E : Type}

-- ---- A charge.

/-- Room in the ledger and in both budgets. -/
structure Fits (s : Admission E) (values bytes : Nat) : Prop where
  ledger  : s.channel.buffered.values + values ≤ usizeMax ∧
    s.channel.buffered.bytes + bytes ≤ usizeMax
  source  : s.budgets.source.Room values bytes
  runtime : s.budgets.runtime.Room values bytes

instance (s : Admission E) (values bytes : Nat) : Decidable (s.Fits values bytes) :=
  decidable_of_iff
    ((s.channel.buffered.values + values ≤ usizeMax ∧ s.channel.buffered.bytes + bytes ≤ usizeMax) ∧
      s.budgets.source.Room values bytes ∧ s.budgets.runtime.Room values bytes)
    ⟨fun h => ⟨h.1, h.2.1, h.2.2⟩, fun h => ⟨h.ledger, h.source, h.runtime⟩⟩

def charged (s : Admission E) (values bytes : Nat) : Admission E :=
  { s with
    channel := { s.channel with
      buffered := ⟨s.channel.buffered.values + values, s.channel.buffered.bytes + bytes⟩ }
    budgets := ⟨s.budgets.source.charged values bytes, s.budgets.runtime.charged values bytes⟩ }

/-- **A charge is granted as a whole**, or leaves everything as it was. -/
theorem charge_tryPushBatch (s : Admission E) {values : Nat} (hvalues : values ≠ 0) (bytes : Nat) :
    s.charge (·.tryPushBatch · values bytes) =
      some (if s.Fits values bytes then (s.charged values bytes, true) else (s, false)) := by
  unfold charge BufferLedger.tryPushBatch
  dsimp only
  rw [if_neg hvalues]
  by_cases hv : s.channel.buffered.values + values ≤ usizeMax
  · by_cases hb : s.channel.buffered.bytes + bytes ≤ usizeMax
    · simp only [checkedAdd, if_pos hv, if_pos hb]
      rw [BudgetPair.acquire_eq]
      by_cases hroom : s.budgets.source.Room values bytes ∧ s.budgets.runtime.Room values bytes
      · rw [if_pos hroom, if_pos ⟨⟨hv, hb⟩, hroom.1, hroom.2⟩]
        rfl
      · rw [if_neg hroom, if_neg fun h => hroom ⟨h.source, h.runtime⟩]
        rfl
    · simp only [checkedAdd, if_pos hv, if_neg hb]
      rw [if_neg fun h => hb h.ledger.2]
      rfl
  · simp only [checkedAdd, if_neg hv]
    rw [if_neg fun h => hv h.ledger.1]
    rfl

/-- The values are charged, appended, and announced where the queue was empty. -/
def enqueue (s : Admission E) (values : List StoredRtdValue) (bytes : Nat) : Admission E :=
  let pushed := (s.charged values.length bytes).withValues (s.channel.values ++ values)
  if s.channel.values.isEmpty then pushed.schedule else pushed

theorem pushPending_eq (s : Admission E) (value : StoredRtdValue) : s.pushPending value =
      some (if s.Fits 1 (storedBytes value) then (s.enqueue [value] (storedBytes value), .ok)
        else (s, .full value)) := by
  unfold pushPending
  have hcharge := s.charge_tryPushBatch Nat.one_ne_zero (storedBytes value)
  unfold BufferLedger.tryPush
  rw [hcharge]
  simp only [bind_eq_bind, bind_some]
  by_cases hfits : s.Fits 1 (storedBytes value)
  · rw [if_pos hfits, if_pos hfits]
    rfl
  · rw [if_neg hfits, if_neg hfits]
    rfl

-- ---- Scheduling.

/-- A channel that is not empty is scheduled. -/
def scheduled (s : Admission E) : Admission E :=
  if s.attached && !s.channel.stopping && !s.channel.scheduled then
    { s with channel := { s.channel with scheduled := true }, ready := s.ready + 1 }
  else s

variable {values : List StoredRtdValue} {s s' : Admission E} {value : StoredRtdValue}
  {bytes : Nat} {capacity : NonZeroUsize} {batch : RtdPendingBatch} {delivery : RtdDelivery}

theorem schedule_eq (h : s.channel.values ≠ []) : s.schedule = s.scheduled := by
  have hempty : s.channel.values.isEmpty = false := by
    rw [Bool.eq_false_iff, Ne, List.isEmpty_iff]
    exact h
  have hidle : (s.channel.values.isEmpty && s.channel.terminalError.isNone) = false := by
    rw [hempty, Bool.false_and]
  obtain ⟨⟨values, buffered, terminalError, _, stopping, isScheduled⟩, _, _, attached, _⟩ := s
  unfold schedule scheduled ChannelState.reserveSchedule
  rw [hidle]
  cases attached with
  | false => rfl
  | true =>
    cases stopping with
    | true => rfl
    | false =>
      cases isScheduled with
      | true => rfl
      | false => rfl

@[simp] theorem scheduled_values (s : Admission E) :
    s.scheduled.channel.values = s.channel.values := by
  unfold scheduled
  split <;> rfl

@[simp] theorem scheduled_buffered (s : Admission E) :
    s.scheduled.channel.buffered = s.channel.buffered := by
  unfold scheduled
  split <;> rfl

@[simp] theorem scheduled_budgets (s : Admission E) : s.scheduled.budgets = s.budgets := by
  unfold scheduled
  split <;> rfl

@[simp] theorem scheduled_accepting (s : Admission E) :
    s.scheduled.accepting = s.accepting ∧ s.scheduled.channel.accepting = s.channel.accepting := by
  unfold scheduled
  split <;> exact ⟨rfl, rfl⟩

theorem scheduled_charged (s : Admission E) (values bytes : Nat) (queue : List StoredRtdValue) :
    (s.scheduled.charged values bytes).withValues queue =
      ((s.charged values bytes).withValues queue).scheduled := by
  unfold scheduled
  by_cases h : (s.attached && !s.channel.stopping && !s.channel.scheduled) = true
  · rw [if_pos h, if_pos (show (((s.charged values bytes).withValues queue).attached &&
      !((s.charged values bytes).withValues queue).channel.stopping &&
      !((s.charged values bytes).withValues queue).channel.scheduled) = true from h)]
    rfl
  · rw [if_neg h, if_neg (show ¬(((s.charged values bytes).withValues queue).attached &&
      !((s.charged values bytes).withValues queue).channel.stopping &&
      !((s.charged values bytes).withValues queue).channel.scheduled) = true from h)]

theorem enqueue_eq (s : Admission E) (hvalues : values ≠ []) (bytes : Nat) :
    s.enqueue values bytes =
      if s.channel.values = [] then ((s.charged values.length bytes).withValues values).scheduled
      else (s.charged values.length bytes).withValues (s.channel.values ++ values) := by
  unfold enqueue
  cases hqueue : s.channel.values with
  | nil =>
    rw [if_pos rfl, nil_append]
    exact schedule_eq hvalues
  | cons first rest =>
    rw [if_neg (cons_ne_nil _ _)]
    rfl

theorem enqueue_nonempty (h : s.channel.values ≠ []) (values : List StoredRtdValue) (bytes : Nat) :
    s.enqueue values bytes =
      (s.charged values.length bytes).withValues (s.channel.values ++ values) := by
  unfold enqueue
  rw [if_neg (by rwa [List.isEmpty_iff])]

theorem enqueue_fields (s : Admission E) (hvalues : values ≠ []) (bytes : Nat) :
    (s.enqueue values bytes).channel.values = s.channel.values ++ values ∧
    (s.enqueue values bytes).channel.buffered =
      ⟨s.channel.buffered.values + values.length, s.channel.buffered.bytes + bytes⟩ ∧
    (s.enqueue values bytes).budgets =
      ⟨s.budgets.source.charged values.length bytes,
        s.budgets.runtime.charged values.length bytes⟩ ∧
    (s.enqueue values bytes).accepting = s.accepting ∧
    (s.enqueue values bytes).channel.accepting = s.channel.accepting := by
  rw [enqueue_eq s hvalues]
  cases hqueue : s.channel.values with
  | nil =>
    rw [if_pos rfl, scheduled_values, scheduled_buffered, scheduled_budgets,
      (scheduled_accepting _).1, (scheduled_accepting _).2]
    exact ⟨rfl, rfl, rfl, rfl, rfl⟩
  | cons first rest =>
    rw [if_neg (cons_ne_nil _ _)]
    exact ⟨rfl, rfl, rfl, rfl, rfl⟩

/-- **One append after the other** is one append. -/
theorem enqueue_enqueue (s : Admission E) (value : StoredRtdValue) (bytes : Nat)
    (values : List StoredRtdValue) (restBytes : Nat) :
    (s.enqueue [value] bytes).enqueue values restBytes =
      s.enqueue (value :: values) (bytes + restBytes) := by
  have hcharged (t : List StoredRtdValue) (queue : List StoredRtdValue) :
      ((((s.charged 1 bytes).withValues t).charged values.length restBytes).withValues queue) =
        (s.charged (value :: values).length (bytes + restBytes)).withValues queue := by
    unfold charged withValues ChannelBudget.charged
    simp only [List.length_cons, Nat.add_assoc, Nat.add_comm 1]
  have hnonempty : (s.enqueue [value] bytes).channel.values ≠ [] := by
    rw [(enqueue_fields s (cons_ne_nil value []) bytes).1]
    exact append_ne_nil_of_right_ne_nil _ (cons_ne_nil _ _)
  rw [enqueue_nonempty hnonempty, (enqueue_fields s (cons_ne_nil value []) bytes).1,
    enqueue_eq s (cons_ne_nil value []), enqueue_eq s (cons_ne_nil value values)]
  by_cases hqueue : s.channel.values = []
  · rw [if_pos hqueue, if_pos hqueue, scheduled_charged, hqueue]
    exact congrArg scheduled (hcharged _ _)
  · rw [if_neg hqueue, if_neg hqueue, append_assoc, singleton_append]
    exact hcharged _ _

/-- **The first value and the rest** fit exactly if all of them do. -/
theorem fits_cons : s.Fits (1 + restValues) (bytes + restBytes) ↔
      s.Fits 1 bytes ∧ (s.enqueue [value] bytes).Fits restValues restBytes := by
  obtain ⟨-, hbuffered, hbudgets, -, -⟩ := enqueue_fields s (cons_ne_nil value []) bytes
  constructor
  · rintro ⟨⟨hv, hb⟩, hsource, hruntime⟩
    obtain ⟨hsource, hsource'⟩ := room_cons.mp hsource
    obtain ⟨hruntime, hruntime'⟩ := room_cons.mp hruntime
    refine ⟨⟨⟨by omega, by omega⟩, hsource, hruntime⟩, ?_⟩
    refine ⟨?_, ?_, ?_⟩
    · rw [hbuffered, length_singleton]
      exact ⟨by dsimp only; omega, by dsimp only; omega⟩
    · rw [hbudgets]
      exact hsource'
    · rw [hbudgets]
      exact hruntime'
  · rintro ⟨hfirst, ⟨hledger, hsource, hruntime⟩⟩
    rw [hbuffered, length_singleton] at hledger
    rw [hbudgets] at hsource hruntime
    dsimp only at hledger
    exact ⟨⟨by omega, by omega⟩, room_cons.mpr ⟨hfirst.source, hsource⟩,
      room_cons.mpr ⟨hfirst.runtime, hruntime⟩⟩

-- ---- The FIFO sends.

/-- The result of a refusal: the state before, and the payload. -/
def Refused {P : Type} (s : Admission E) (payload : P)
    (result : Option (Admission E × SendOutcome P)) : Prop :=
  result = some (s, .full payload) ∨ result = some (s, .closed payload)

/-- What a FIFO channel needs to accept values. -/
structure Admits (s : Admission E) (capacity : NonZeroUsize) (values bytes : Nat) : Prop where
  accepting : s.accepting = true ∧ s.channel.accepting = true
  room      : s.channel.values.length + values ≤ capacity.get
  fits      : s.Fits values bytes

theorem trySendPending_fifo_of_admits (h : s.Admits capacity 1 (storedBytes value)) :
    s.trySendPending (.fifo capacity) value =
      some (s.enqueue [value] (storedBytes value), .ok) := by
  have hroom := h.room
  unfold trySendPending
  rw [h.accepting.1, h.accepting.2, if_neg (by decide), if_neg (by decide),
    if_neg (by rintro ⟨⟨⟩, -⟩)]
  dsimp only
  rw [if_neg (by omega), pushPending_eq, if_pos h.fits]

theorem trySendPending_fifo_of_not (h : ¬s.Admits capacity 1 (storedBytes value)) :
    s.Refused value (s.trySendPending (.fifo capacity) value) := by
  unfold trySendPending
  cases haccepting : s.accepting with
  | false => exact Or.inr rfl
  | true =>
    cases hopen : s.channel.accepting with
    | false => exact Or.inr rfl
    | true =>
      left
      rw [if_neg (by decide), if_neg (by decide), if_neg (by rintro ⟨⟨⟩, -⟩)]
      dsimp only
      by_cases hfull : capacity.get ≤ s.channel.values.length
      · rw [if_pos hfull]
      · rw [if_neg hfull, pushPending_eq, if_neg]
        exact fun hfits => h ⟨⟨haccepting, hopen⟩, by omega, hfits⟩

theorem admits_cons : s.Admits capacity (1 + restValues) (bytes + restBytes) ↔
      s.Admits capacity 1 bytes ∧
        (s.enqueue [value] bytes).Admits capacity restValues restBytes := by
  obtain ⟨hvalues, -, -, haccepting, hopen⟩ := enqueue_fields s (cons_ne_nil value []) bytes
  have hlength : (s.enqueue [value] bytes).channel.values.length =
      s.channel.values.length + 1 := by
    rw [hvalues, length_append, length_singleton]
  constructor
  · rintro ⟨hflags, hroom, hfits⟩
    obtain ⟨hfirst, hrest⟩ : s.Fits 1 bytes ∧ (s.enqueue [value] bytes).Fits restValues restBytes :=
      fits_cons.mp hfits
    refine ⟨⟨hflags, by omega, hfirst⟩, ⟨?_, by omega, hrest⟩⟩
    rw [haccepting, hopen]
    exact hflags
  · rintro ⟨⟨hflags, -, hfirst⟩, ⟨-, hroom, hrest⟩⟩
    exact ⟨hflags, by omega, fits_cons.mpr ⟨hfirst, hrest⟩⟩

/-- All values were accepted. -/
def SentEach (s : Admission E) (delivery : RtdDelivery) (values : List StoredRtdValue)
    (s' : Admission E) : Prop :=
  ∃ outcomes, s.sendEach delivery values = some (s', outcomes) ∧
    ∀ outcome ∈ outcomes, outcome = .ok

theorem sentEach_cons : s.SentEach (.fifo capacity) (value :: values) s' ↔
      s.Admits capacity 1 (storedBytes value) ∧
        (s.enqueue [value] (storedBytes value)).SentEach (.fifo capacity) values s' := by
  unfold SentEach
  rw [sendEach]
  by_cases hadmits : s.Admits capacity 1 (storedBytes value)
  · rw [trySendPending_fifo_of_admits hadmits]
    simp only [bind_eq_bind, bind_some]
    constructor
    · rintro ⟨outcomes, hsent, hok⟩
      obtain ⟨⟨t, rest⟩, hrest, heq⟩ := bind_eq_some_iff.mp hsent
      cases heq
      exact ⟨hadmits, rest, hrest, fun outcome h => hok outcome (mem_cons_of_mem _ h)⟩
    · rintro ⟨-, rest, hrest, hok⟩
      refine ⟨.ok :: rest, ?_, ?_⟩
      · rw [hrest]
        rfl
      · intro outcome h
        rcases mem_cons.mp h with rfl | h
        · rfl
        · exact hok outcome h
  · constructor
    · rintro ⟨outcomes, hsent, hok⟩
      exfalso
      obtain ⟨⟨t, first⟩, hfirst, hrest⟩ := bind_eq_some_iff.mp hsent
      obtain ⟨⟨t', rest⟩, -, heq⟩ := bind_eq_some_iff.mp hrest
      cases heq
      have hfirstOk : first = .ok := hok first mem_cons_self
      subst hfirstOk
      rcases trySendPending_fifo_of_not hadmits with hrefused | hrefused
      · rw [hrefused] at hfirst
        cases hfirst
      · rw [hrefused] at hfirst
        cases hfirst
    · rintro ⟨h, -⟩
      exact absurd h hadmits

/-- **The single sends of values** all succeed exactly if the values fit together. -/
theorem sentEach_iff (hvalues : values ≠ []) : s.SentEach (.fifo capacity) values s' ↔
      s.Admits capacity values.length (values.map storedBytes).sum ∧
        s' = s.enqueue values (values.map storedBytes).sum := by
  induction values generalizing s with
  | nil => exact absurd rfl hvalues
  | cons value values ih =>
    rw [sentEach_cons, List.length_cons, map_cons, sum_cons]
    cases values with
    | nil =>
      constructor
      · rintro ⟨hadmits, outcomes, hsent, -⟩
        cases hsent
        exact ⟨hadmits, rfl⟩
      · rintro ⟨hadmits, rfl⟩
        exact ⟨hadmits, [], rfl, by simp⟩
    | cons next rest =>
      rw [ih (cons_ne_nil _ _), enqueue_enqueue, ← and_assoc, ← admits_cons, Nat.add_comm 1]

theorem trySendPendingBatch_fifo_of_admits (hbatch : batch.values ≠ [])
    (h : s.Admits capacity batch.values.length (batch.values.map storedBytes).sum) :
    s.trySendPendingBatch (.fifo capacity) batch =
      some (s.enqueue batch.values (batch.values.map storedBytes).sum, .ok) := by
  have hroom := h.room
  have hcount : batch.values.length ≠ 0 := mt length_eq_zero_iff.mp hbatch
  unfold trySendPendingBatch
  rw [if_neg hbatch, h.accepting.1, h.accepting.2, if_neg (by decide), if_neg (by decide)]
  dsimp only
  rw [if_neg (by omega), (sumBytes_eq batch.bounded).1]
  simp only [bind_eq_bind, bind_some]
  rw [charge_tryPushBatch s hcount, if_pos h.fits]
  rfl

theorem trySendPendingBatch_fifo_of_not (hs : s.Settled (.fifo capacity))
    (hbatch : batch.values ≠ [])
    (h : ¬s.Admits capacity batch.values.length (batch.values.map storedBytes).sum) :
    s.Refused batch (s.trySendPendingBatch (.fifo capacity) batch) := by
  have hcount : batch.values.length ≠ 0 := mt length_eq_zero_iff.mp hbatch
  unfold trySendPendingBatch
  rw [if_neg hbatch]
  cases haccepting : s.accepting with
  | false => exact Or.inr rfl
  | true =>
    cases hopen : s.channel.accepting with
    | false => exact Or.inr rfl
    | true =>
      left
      rw [if_neg (by decide), if_neg (by decide)]
      dsimp only
      by_cases hfull :
          capacity.get < min usizeMax (s.channel.values.length + batch.values.length)
      · rw [if_pos hfull]
      · rw [if_neg hfull, (sumBytes_eq batch.bounded).1]
        simp only [bind_eq_bind, bind_some]
        have hunfit : ¬s.Fits batch.values.length (batch.values.map storedBytes).sum := by
          intro hfits
          have hledger := hfits.ledger.1
          rw [hs.values] at hledger
          exact h ⟨⟨haccepting, hopen⟩, by omega, hfits⟩
        rw [charge_tryPushBatch s hcount, if_neg hunfit]
        rfl

-- ---- The latest-value sends.

/-- **A latest-value batch is its last value**: the same state, and the batch where the value came
back. -/
theorem trySendPendingBatch_latest (s : Admission E) {last : StoredRtdValue}
    (hlast : batch.values.getLast? = some last) : s.trySendPendingBatch .latest batch =
      (s.trySendPending .latest last).map fun (s', outcome) => (s', outcome.withPayload batch) := by
  have hbatch : batch.values ≠ [] := by
    rintro h
    rw [h] at hlast
    cases hlast
  unfold trySendPendingBatch trySendPending
  rw [if_neg hbatch, hlast]
  cases haccepting : s.accepting with
  | false => rfl
  | true =>
    cases hopen : s.channel.accepting with
    | false => rfl
    | true =>
      rw [if_neg (by decide), if_neg (by decide), if_neg (by decide), if_neg (by decide)]
      dsimp only
      rw [bind_eq_bind, bind_some]
      by_cases hqueue : s.channel.values = []
      · rw [if_neg (not_not.mpr hqueue), if_neg (fun h => h.2 hqueue)]
        unfold pushPending
        rw [hqueue, nil_append]
        cases s.charge (·.tryPush · (storedBytes last)) with
        | none => rfl
        | some result =>
          obtain ⟨charged, granted⟩ := result
          cases granted with
          | false => rfl
          | true => rfl
      · have hempty : s.channel.values.isEmpty = false := by
          rw [Bool.eq_false_iff, Ne, List.isEmpty_iff]
          exact hqueue
        rw [if_pos hqueue, if_pos ⟨rfl, hqueue⟩, hempty]
        cases s.replaceLatest last with
        | none => rfl
        | some result =>
          obtain ⟨replaced, granted⟩ := result
          cases granted with
          | false => rfl
          | true => rfl

-- ---- Settled channels.

theorem Settled.enqueue (hs : s.Settled delivery) (hvalues : values ≠ [])
    (hslot : delivery = .latest → (s.channel.values ++ values).length ≤ 1) :
    (s.enqueue values (values.map storedBytes).sum).Settled delivery := by
  obtain ⟨hqueue, hbuffered, hbudgets, -, -⟩ :=
    enqueue_fields s hvalues (values.map storedBytes).sum
  refine ⟨?_, ?_, ?_, ?_, ?_⟩
  · rw [hqueue]
    exact hslot
  · rw [hqueue, hbuffered, length_append, ← hs.values]
  · rw [hqueue, hbuffered, map_append, sum_append, ← hs.bytes]
  · rw [hbuffered, hbudgets]
    exact ⟨Nat.add_le_add_right hs.source.1 _, Nat.add_le_add_right hs.source.2 _⟩
  · rw [hbuffered, hbudgets]
    exact ⟨Nat.add_le_add_right hs.runtime.1 _, Nat.add_le_add_right hs.runtime.2 _⟩

/-- The ledger and the budgets after a change of the bytes. -/
def resized (s : Admission E) (bytes : Nat) (budgets : BudgetPair) : Admission E :=
  { s with
    channel := { s.channel with buffered := { s.channel.buffered with bytes := bytes } }
    budgets := budgets }

theorem charge_grow (h : s.channel.buffered.bytes < bytes) : s.charge (·.resize · bytes) =
      some (if s.budgets.source.Room 0 (bytes - s.channel.buffered.bytes) ∧
          s.budgets.runtime.Room 0 (bytes - s.channel.buffered.bytes) then
        (s.resized bytes ⟨s.budgets.source.charged 0 (bytes - s.channel.buffered.bytes),
          s.budgets.runtime.charged 0 (bytes - s.channel.buffered.bytes)⟩, true)
      else (s, false)) := by
  unfold charge BufferLedger.resize
  dsimp only
  rw [if_pos h, BudgetPair.acquire_eq]
  by_cases hroom : s.budgets.source.Room 0 (bytes - s.channel.buffered.bytes) ∧
      s.budgets.runtime.Room 0 (bytes - s.channel.buffered.bytes)
  · rw [if_pos hroom, if_pos hroom]
    rfl
  · rw [if_neg hroom, if_neg hroom]
    rfl

theorem charge_shrink (h : bytes < s.channel.buffered.bytes) : s.charge (·.resize · bytes) =
      (s.budgets.release 0 (s.channel.buffered.bytes - bytes)).map fun budgets =>
        (s.resized bytes budgets, true) := by
  unfold charge BufferLedger.resize
  dsimp only
  rw [if_neg (Nat.lt_asymm h), if_pos h, Option.map_map]
  rfl

theorem settled_single (hs : s.Settled .latest) (hqueue : s.channel.values ≠ []) :
    ∃ old, s.channel.values = [old] ∧ s.channel.buffered = ⟨1, storedBytes old⟩ := by
  have hvalues := hs.values
  have hbytes := hs.bytes
  have hslot := hs.slot rfl
  obtain ⟨old, rest, hcons⟩ := exists_cons_of_ne_nil hqueue
  rw [hcons, List.length_cons] at hslot
  have hrest : rest = [] := length_eq_zero_iff.mp (by omega)
  rw [hrest] at hcons
  rw [hcons] at hvalues hbytes
  refine ⟨old, hcons, ?_⟩
  cases hledger : s.channel.buffered with
  | mk values bytes =>
    rw [hledger] at hvalues hbytes
    rw [show values = 1 from hvalues, show bytes = storedBytes old from hbytes]

theorem Settled.replaced {old : StoredRtdValue}
    (hledger : s.channel.buffered = ⟨1, storedBytes old⟩)
    (hsource : 1 ≤ budgets.source.used.values ∧ storedBytes value ≤ budgets.source.used.bytes)
    (hruntime : 1 ≤ budgets.runtime.used.values ∧ storedBytes value ≤ budgets.runtime.used.bytes) :
    ((s.resized (storedBytes value) budgets).withValues [value]).Settled .latest := by
  have hvalues : ((s.resized (storedBytes value) budgets).withValues [value]).channel.buffered =
      ⟨1, storedBytes value⟩ := by
    unfold resized withValues
    dsimp only
    rw [hledger]
  refine ⟨fun _ => Nat.le_refl 1, ?_, ?_, ?_, ?_⟩
  · rw [hvalues]
    rfl
  · rw [hvalues]
    exact (Nat.add_zero _).symm
  · rw [hvalues]
    exact hsource
  · rw [hvalues]
    exact hruntime

/-- **A replacement** has a result, and a refused one changes nothing. -/
theorem replaceLatest_settled (hs : s.Settled .latest) (hqueue : s.channel.values ≠ [])
    (value : StoredRtdValue) :
    ∃ s' granted, s.replaceLatest value = some (s', granted) ∧ s'.Settled .latest ∧
      (granted = false → s' = s) := by
  obtain ⟨old, hold, hledger⟩ := settled_single hs hqueue
  have hbytes : s.channel.buffered.bytes = storedBytes old := by rw [hledger]
  have hsource := hs.source
  have hruntime := hs.runtime
  rw [hledger] at hsource hruntime
  dsimp only at hsource hruntime
  have hqueue' : s.channel.values.dropLast ++ [value] = [value] := by
    rw [hold]
    rfl
  unfold replaceLatest
  dsimp only
  rcases Nat.lt_trichotomy (storedBytes old) (storedBytes value) with hgrow | hsame | hshrink
  · -- The growth is charged first.
    rw [if_pos (by omega), charge_grow (by omega), hbytes]
    by_cases hroom : s.budgets.source.Room 0 (storedBytes value - storedBytes old) ∧
        s.budgets.runtime.Room 0 (storedBytes value - storedBytes old)
    · have hlast : (s.resized (storedBytes value)
          ⟨s.budgets.source.charged 0 (storedBytes value - storedBytes old),
            s.budgets.runtime.charged 0 (storedBytes value - storedBytes old)⟩
          ).channel.values.dropLast ++ [value] = [value] := hqueue'
      rw [if_pos hroom]
      simp only [bind_eq_bind, bind_some]
      rw [if_neg (by decide), if_neg (by omega), hlast]
      refine ⟨_, true, rfl, Settled.replaced hledger ?_ ?_, nofun⟩
      · exact ⟨hsource.1, by unfold ChannelBudget.charged; dsimp only; omega⟩
      · exact ⟨hruntime.1, by unfold ChannelBudget.charged; dsimp only; omega⟩
    · rw [if_neg hroom]
      exact ⟨s, false, rfl, hs, fun _ => rfl⟩
  · rw [if_neg (by omega)]
    simp only [bind_eq_bind, bind_some]
    rw [if_neg (by decide), if_neg (by omega), hqueue']
    have hsettled : ((s.resized (storedBytes value) s.budgets).withValues [value]).Settled .latest :=
      Settled.replaced hledger ⟨hsource.1, by omega⟩ ⟨hruntime.1, by omega⟩
    have hkept : s.resized (storedBytes value) s.budgets = s := by
      unfold resized
      rw [← hsame, ← hbytes]
    rw [hkept] at hsettled
    exact ⟨_, true, rfl, hsettled, nofun⟩
  · -- The shrinkage is given back last.
    obtain ⟨released, hreleased, hsourceV, hsourceB, hruntimeV, hruntimeB⟩ :=
      BudgetPair.release_of_le
        (show storedBytes old - storedBytes value ≤ s.budgets.source.used.bytes by omega)
        (by omega)
    have hcharge : (s.withValues [value]).charge (·.resize · (storedBytes value)) =
        some ((s.withValues [value]).resized (storedBytes value) released, true) := by
      have hledger' : (s.withValues [value]).channel.buffered.bytes = storedBytes old := hbytes
      rw [charge_shrink (by omega), hledger']
      show ((s.budgets.release 0 (storedBytes old - storedBytes value)).map _) = _
      rw [hreleased]
      rfl
    rw [if_neg (by omega)]
    simp only [bind_eq_bind, bind_some]
    rw [if_neg (by decide), if_pos (by omega), hqueue', hcharge, bind_some]
    exact ⟨_, true, rfl, Settled.replaced hledger (by omega) (by omega), nofun⟩

/-- What a send of a payload may do: accept it, or refuse it with everything as it was. -/
def Answered {P : Type} (s : Admission E) (delivery : RtdDelivery) (payload : P)
    (result : Option (Admission E × SendOutcome P)) : Prop :=
  (∃ s', result = some (s', .ok) ∧ s'.Settled delivery) ∨ s.Refused payload result

theorem Answered.settled {P : Type} {payload : P} {result : Option (Admission E × SendOutcome P)}
    {outcome : SendOutcome P} (h : s.Answered delivery payload result) (hs : s.Settled delivery)
    (hresult : result = some (s', outcome)) : s'.Settled delivery := by
  rcases h with ⟨t, hsent, hsettled⟩ | hfull | hclosed
  · rw [hsent] at hresult
    cases hresult
    exact hsettled
  · rw [hfull] at hresult
    cases hresult
    exact hs
  · rw [hclosed] at hresult
    cases hresult
    exact hs

theorem trySendPending_answered (hs : s.Settled delivery) (value : StoredRtdValue) :
    s.Answered delivery value (s.trySendPending delivery value) := by
  cases delivery with
  | fifo capacity =>
    by_cases hadmits : s.Admits capacity 1 (storedBytes value)
    · exact Or.inl ⟨_, trySendPending_fifo_of_admits hadmits,
        hs.enqueue (cons_ne_nil value []) nofun⟩
    · exact Or.inr (trySendPending_fifo_of_not hadmits)
  | latest =>
    unfold trySendPending
    cases haccepting : s.accepting with
    | false => exact Or.inr (Or.inr rfl)
    | true =>
      cases hopen : s.channel.accepting with
      | false => exact Or.inr (Or.inr rfl)
      | true =>
        rw [if_neg (by decide), if_neg (by decide)]
        by_cases hqueue : s.channel.values = []
        · rw [if_neg (fun h => h.2 hqueue)]
          dsimp only
          rw [pushPending_eq]
          by_cases hfits : s.Fits 1 (storedBytes value)
          · rw [if_pos hfits]
            refine Or.inl ⟨_, rfl, hs.enqueue (cons_ne_nil value []) ?_⟩
            intro _
            rw [hqueue]
            exact Nat.le_refl 1
          · rw [if_neg hfits]
            exact Or.inr (Or.inl rfl)
        · obtain ⟨s', granted, hreplaced, hsettled, hrefused⟩ := replaceLatest_settled hs hqueue value
          rw [if_pos ⟨rfl, hqueue⟩, hreplaced]
          cases granted with
          | true => exact Or.inl ⟨s', rfl, hsettled⟩
          | false =>
            rw [hrefused rfl]
            exact Or.inr (Or.inl rfl)

theorem trySendPendingBatch_answered (hs : s.Settled delivery) (batch : RtdPendingBatch) :
    s.Answered delivery batch (s.trySendPendingBatch delivery batch) := by
  by_cases hbatch : batch.values = []
  · unfold trySendPendingBatch
    rw [if_pos hbatch]
    exact Or.inl ⟨s, rfl, hs⟩
  · cases delivery with
    | fifo capacity =>
      by_cases hadmits :
          s.Admits capacity batch.values.length (batch.values.map storedBytes).sum
      · exact Or.inl ⟨_, trySendPendingBatch_fifo_of_admits hbatch hadmits, hs.enqueue hbatch nofun⟩
      · exact Or.inr (trySendPendingBatch_fifo_of_not hs hbatch hadmits)
    | latest =>
      have hlast := getLast?_eq_some_getLast hbatch
      rw [trySendPendingBatch_latest s hlast]
      rcases trySendPending_answered hs (batch.values.getLast hbatch) with
        ⟨s', hsent, hsettled⟩ | hfull | hclosed
      · rw [hsent]
        exact Or.inl ⟨s', rfl, hsettled⟩
      · rw [hfull]
        exact Or.inr (Or.inl rfl)
      · rw [hclosed]
        exact Or.inr (Or.inr rfl)

/-- A FIFO batch and its single sends accept the same, and leave the same. -/
theorem trySendPendingBatch_fifo_iff (hs : s.Settled (.fifo capacity)) (batch : RtdPendingBatch) :
    s.trySendPendingBatch (.fifo capacity) batch = some (s', .ok) ↔
      s.SentEach (.fifo capacity) batch.values s' := by
  by_cases hbatch : batch.values = []
  · unfold trySendPendingBatch SentEach
    rw [if_pos hbatch, hbatch, sendEach]
    constructor
    · rintro h
      cases h
      exact ⟨[], rfl, by simp⟩
    · rintro ⟨outcomes, hsent, -⟩
      cases hsent
      rfl
  · rw [sentEach_iff hbatch]
    by_cases hadmits : s.Admits capacity batch.values.length (batch.values.map storedBytes).sum
    · rw [trySendPendingBatch_fifo_of_admits hbatch hadmits]
      constructor
      · rintro h
        cases h
        exact ⟨hadmits, rfl⟩
      · rintro ⟨-, rfl⟩
        rfl
    · constructor
      · intro haccepted
        rcases trySendPendingBatch_fifo_of_not hs hbatch hadmits with hrefused | hrefused
        · rw [hrefused] at haccepted
          cases haccepted
        · rw [hrefused] at haccepted
          cases haccepted
      · rintro ⟨h, -⟩
        exact absurd h hadmits

theorem held_of_released {budget budget' : ChannelBudget} {ledger : BufferLedger} {values : Nat}
    (hheld : ledger.values ≤ budget.used.values ∧ ledger.bytes ≤ budget.used.bytes)
    (h : budget.releaseBuffered values bytes = some budget') :
    ledger.values - values ≤ budget'.used.values ∧ ledger.bytes - bytes ≤ budget'.used.bytes := by
  have hused := (released_of_releaseBuffered h).used
  have hvalues : budget'.used.values + values = budget.used.values := hused .values
  have hbytes : budget'.used.bytes + bytes = budget.used.bytes := hused .bytes
  omega

theorem Settled.take (hs : s.Settled delivery) {count : Nat} (h : s.take count = some s') :
    s'.Settled delivery := by
  obtain ⟨budgets, hreleased, hs'⟩ := map_eq_some_iff.mp h
  subst hs'
  unfold BudgetPair.release at hreleased
  obtain ⟨source, hsource, hreleased⟩ := bind_eq_some_iff.mp hreleased
  obtain ⟨runtime, hruntime, hreleased⟩ := bind_eq_some_iff.mp hreleased
  cases hreleased
  have hsplit : s.channel.values.take count ++ s.channel.values.drop count = s.channel.values :=
    take_append_drop _ _
  have hlength : s.channel.buffered.values =
      (s.channel.values.take count).length + (s.channel.values.drop count).length := by
    rw [← length_append, hsplit]
    exact hs.values
  have hsum : s.channel.buffered.bytes =
      ((s.channel.values.take count).map storedBytes).sum +
        ((s.channel.values.drop count).map storedBytes).sum := by
    rw [← sum_append, ← map_append, hsplit]
    exact hs.bytes
  refine ⟨fun hlatest => ?_, ?_, ?_, ?_, ?_⟩
  · have := hs.slot hlatest
    have := hs.values
    dsimp only
    omega
  · dsimp only
    omega
  · dsimp only
    omega
  · exact held_of_released hs.source hsource
  · exact held_of_released hs.runtime hruntime

theorem Settled.step {action : Action E} (hs : s.Settled delivery)
    (h : s.step delivery action = some s') : s'.Settled delivery := by
  cases action with
  | send value =>
    obtain ⟨⟨t, outcome⟩, hsent, rfl⟩ := map_eq_some_iff.mp h
    exact (trySendPending_answered hs value).settled hs hsent
  | sendBatch batch =>
    obtain ⟨⟨t, outcome⟩, hsent, rfl⟩ := map_eq_some_iff.mp h
    exact (trySendPendingBatch_answered hs batch).settled hs hsent
  | take count => exact hs.take h
  | mark accepting channelAccepting stopping scheduled terminalError ready =>
    cases h
    exact ⟨hs.slot, hs.values, hs.bytes, hs.source, hs.runtime⟩
  | others budgets =>
    obtain ⟨hheld, heq⟩ := ite_none_right_eq_some.mp h
    cases heq
    exact ⟨hs.slot, hs.values, hs.bytes, hheld.1, hheld.2⟩

/-- **A channel is settled** after every operation, from a new one on. -/
theorem settled_of_reachable {attached : Bool}
    (hs : Reachable (step delivery) (new budgets attached) s) : s.Settled delivery := by
  refine hs.invariant (I := fun t => t.Settled delivery) (fun _ _ _ hI h => hI.step h) ?_
  exact ⟨fun _ => Nat.zero_le 1, rfl, rfl, ⟨Nat.zero_le _, Nat.zero_le _⟩,
    ⟨Nat.zero_le _, Nat.zero_le _⟩⟩

/-- **Batch admission is all or nothing** and agrees with single sends. A FIFO batch is accepted
exactly if its values are, one by one, and leaves the same queue and charges; a latest-value batch
is the single send of its last value; every send has a result that leaves a settled channel, and
one that is refused leaves the queue, the ledger and both budgets and returns its payload. -/
theorem batch_admission_exact (hs : s.Settled delivery) (batch : RtdPendingBatch) :
    (∀ capacity, delivery = .fifo capacity → ∀ s',
      s.trySendPendingBatch delivery batch = some (s', .ok) ↔
        ∃ outcomes, s.sendEach delivery batch.values = some (s', outcomes) ∧
          ∀ outcome ∈ outcomes, outcome = .ok) ∧
    (delivery = .latest → ∀ last, batch.values.getLast? = some last →
      s.trySendPendingBatch delivery batch =
        (s.trySendPending delivery last).map fun (s', outcome) =>
          (s', outcome.withPayload batch)) ∧
    s.Answered delivery batch (s.trySendPendingBatch delivery batch) ∧
    ∀ value, s.Answered delivery value (s.trySendPending delivery value) := by
  refine ⟨?_, ?_, trySendPendingBatch_answered hs batch, trySendPending_answered hs⟩
  · rintro capacity rfl s'
    exact trySendPendingBatch_fifo_iff hs batch
  · rintro rfl last hlast
    exact trySendPendingBatch_latest s hlast

theorem batch_admission_exact_two :
    ∃ (s' : Admission Empty) (outcomes : List (SendOutcome StoredRtdValue)),
      (new ⟨.source ⟨1, 2, 64⟩, .runtime 2 64 1⟩ true).sendEach (.fifo ⟨2, by decide⟩)
        [.boolean true, .integer 7] = some (s', outcomes) ∧ ∀ outcome ∈ outcomes, outcome = .ok :=
  ⟨_, ((batch_admission_exact (settled_of_reachable ⟨[], rfl⟩)
    ⟨[.boolean true, .integer 7], by decide⟩).1 _ rfl _).mp rfl⟩

end Admission

end Xlfn.Subscription
