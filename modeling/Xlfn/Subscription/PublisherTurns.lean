import Xlfn.Subscription.ChannelOrder
import Xlfn.Subscription.Publisher

/-!
# Xlfn — no channel is stranded, and none spins

A scheduled channel has one entry somewhere: in the ready queue, with a call that is about
to push it, or with the publisher thread. The entries of a channel are counted by
`PublisherQueue.tokens`; that the count is what `scheduled` says is the heart of `ChannelOk`.
The other half is that a channel with something to publish is scheduled or has a call that
is about to schedule it (`woken`), and that a scheduled channel has something to publish
until its turn takes it (`full`).

* `QueueWf` — the invariant, kept by every step (`QueueWf.step`).
-/

namespace Xlfn.Subscription

open Lib ChannelState List Option PublisherQueue

variable {V E F : Type}

/-- The channel has something to publish. -/
def ChannelState.pending (state : ChannelState V E) : Bool :=
  !(state.values.isEmpty && state.terminalError.isNone)

namespace Publisher

-- ---- The invariant.

namespace WorkerPc

/-- The channel the thread has taken from the ready queue. -/
def channel : WorkerPc V E → Option Nat
  | .turn c _ _ | .requeue c => some c
  | .waiting | .exited => none

def token (worker : WorkerPc V E) (c : Nat) : Nat := if worker.channel = some c then 1 else 0

/-- The thread is in a turn of the channel and has taken its batch. -/
def past (c : Nat) : WorkerPc V E → Bool
  | .turn d (.taken _) _ | .turn d .publishing _ | .turn d .failed _ | .turn d .released _ => d = c
  | _ => false

/-- The thread has revoked the channel's sink and is about to close it. -/
def failing (c : Nat) : WorkerPc V E → Bool
  | .turn d .failed _ => d = c
  | _ => false

/-- The batch of a turn that may put its channel back. -/
def handing : WorkerPc V E → Option (Nat × List (Delivered V E))
  | .turn c (.taken batch) _ => some (c, batch)
  | .turn c .publishing handed | .turn c .released handed => some (c, handed)
  | _ => none

end WorkerPc

/-- What holds of a channel with that many entries. -/
structure ChannelOk (ch : SharedChannel V E F) (tokens : Nat) (past failing stopping : Bool) :
    Prop where
  counted  : tokens ≤ if ch.state.scheduled then 1 else 0
  present  : stopping = false → tokens = if ch.state.scheduled then 1 else 0
  attached : ch.state.scheduled = true → ch.attach = .attached
  woken    : ch.attach = .attached → ch.state.stopping = false → ch.state.pending = true →
    ch.state.scheduled = true ∨ 0 < ch.waking
  full     : ch.state.scheduled = true → ch.state.stopping = false →
    ch.state.pending = true ∨ past = true
  revoked  : ch.attach ≠ .created →
    ch.publication.sink = true ∨ ch.state.stopping = true ∨ failing = true
  closing  : 0 < ch.finishing → ch.state.stopping = true

end Publisher

open Publisher

/-- The entries of a channel. -/
def PublisherQueue.tokens (q : PublisherQueue V E F) (c : Nat) : Nat :=
  q.ready.count c + q.enqueuing.count c + q.worker.token c

/-- The invariant of the publisher queue. -/
structure QueueWf (q : PublisherQueue V E F) : Prop where
  channels : ∀ (c : Nat) (ch : SharedChannel V E F), q.channels[c]? = some ch →
    ChannelOk ch (q.tokens c) (q.worker.past c) (q.worker.failing c) q.stopping
  known    : ∀ c, q.channels.length ≤ c → q.tokens c = 0
  handing  : ∀ c batch, q.worker.handing = some (c, batch) → ∀ ch : SharedChannel V E F,
    q.channels[c]? = some ch → ch.state.stopping = false → batch ≠ []
  turns    : ∀ turn ∈ q.turns, turn.requeued = true → turn.handed ≠ []

namespace QueueWf

variable {q q' : PublisherQueue V E F} {c : Nat} {ch ch' : SharedChannel V E F}

theorem new : QueueWf (new : PublisherQueue V E F) where
  channels := fun c ch hc => by cases hc
  known := fun c _ => rfl
  handing := fun c batch hbatch => by cases hbatch
  turns := fun turn hturn => by cases hturn

/-- **One channel changes.** The entries of the others are as they were. -/
theorem change (h : QueueWf q) (ch' : SharedChannel V E F) (hc : q.channels[c]? = some ch)
    (hchannels : q'.channels = q.channels.set c ch') (hstopping : q'.stopping = q.stopping)
    (hother : ∀ d, d ≠ c → q'.tokens d = q.tokens d ∧ q'.worker.past d = q.worker.past d ∧
      q'.worker.failing d = q.worker.failing d)
    (hok : ChannelOk ch' (q'.tokens c) (q'.worker.past c) (q'.worker.failing c) q'.stopping)
    (hhanding : ∀ d batch, q'.worker.handing = some (d, batch) →
      d = c ∧ (ch'.state.stopping = false → batch ≠ []) ∨
      d ≠ c ∧ q.worker.handing = some (d, batch))
    (hturns : ∀ turn ∈ q'.turns, turn.requeued = true → turn.handed ≠ []) : QueueWf q' where
  channels := fun d ch'' hd => by
    rw [hchannels] at hd
    rcases getElem?_set_cases hc hd with ⟨rfl, rfl⟩ | ⟨hne, hold⟩
    · exact hok
    · obtain ⟨htokens, hpast, hfailing⟩ := hother d hne
      rw [htokens, hpast, hfailing, hstopping]
      exact h.channels d ch'' hold
  known := fun d hd => by
    rw [hchannels, length_set] at hd
    have hlt : c < q.channels.length := (List.getElem_of_getElem? hc).1
    rw [(hother d (by omega)).1]
    exact h.known d hd
  handing := fun d batch hbatch ch'' hd hrunning => by
    rw [hchannels] at hd
    rcases hhanding d batch hbatch with ⟨rfl, hnonempty⟩ | ⟨hne, hold⟩
    · rcases getElem?_set_cases hc hd with ⟨-, rfl⟩ | ⟨hne, -⟩
      · exact hnonempty hrunning
      · exact absurd rfl hne
    · rcases getElem?_set_cases hc hd with ⟨heq, -⟩ | ⟨-, hd⟩
      · exact absurd heq hne
      · exact h.handing d batch hold ch'' hd hrunning
  turns := hturns

/-- **One channel changes and keeps its entries.** -/
theorem update (h : QueueWf q) (hc : q.channels[c]? = some ch)
    (hmono : ch'.state.stopping = false → ch.state.stopping = false)
    (hok : ChannelOk ch (q.tokens c) (q.worker.past c) (q.worker.failing c) q.stopping →
      ChannelOk ch' (q.tokens c) (q.worker.past c) (q.worker.failing c) q.stopping) :
    QueueWf (q.update c ch') := by
  refine h.change ch' hc rfl rfl (fun d _ => ⟨rfl, rfl, rfl⟩) (hok (h.channels c ch hc))
    (fun d batch hbatch => ?_) h.turns
  by_cases hd : d = c
  · subst hd
    exact .inl ⟨rfl, fun hrunning => h.handing d batch hbatch ch hc (hmono hrunning)⟩
  · exact .inr ⟨hd, hbatch⟩

-- ---- Scheduling.

theorem reserveSchedule_spec (ch : SharedChannel V E F) :
    (ch.reserveSchedule = ({ ch with state := { ch.state with scheduled := true } }, true) ∧
      ch.attach = .attached ∧ ch.state.stopping = false ∧ ch.state.scheduled = false ∧
      ch.state.pending = true) ∨
    (ch.reserveSchedule = (ch, false) ∧
      (ch.attach = .attached → ch.state.stopping = false → ch.state.pending = true →
        ch.state.scheduled = true)) := by
  rw [SharedChannel.reserveSchedule]
  split
  case isFalse hattach => exact .inr ⟨rfl, fun h => absurd h hattach⟩
  case isTrue hattach =>
    by_cases hskip : (ch.state.stopping || ch.state.scheduled ||
        (ch.state.values.isEmpty && ch.state.terminalError.isNone)) = true
    · rw [ChannelState.reserveSchedule, if_pos hskip]
      refine .inr ⟨rfl, fun _ hstopping hpending => ?_⟩
      rw [pending, Bool.not_eq_true'] at hpending
      rw [hstopping, hpending, Bool.or_false, Bool.false_or] at hskip
      exact hskip
    · rw [ChannelState.reserveSchedule, if_neg hskip]
      simp only [Bool.or_eq_true, not_or, Bool.not_eq_true] at hskip
      refine .inl ⟨rfl, hattach, hskip.1.1, hskip.1.2, ?_⟩
      rw [pending, hskip.2]
      rfl

theorem schedule (h : QueueWf q) (hc : q.channels[c]? = some ch)
    (hmono : ch'.state.stopping = false → ch.state.stopping = false)
    (hok : ChannelOk ch (q.tokens c) (q.worker.past c) (q.worker.failing c) q.stopping →
      ChannelOk { ch' with waking := ch'.waking + 1 } (q.tokens c) (q.worker.past c)
        (q.worker.failing c) q.stopping) :
    QueueWf (q.schedule c ch') := by
  have hok := hok (h.channels c ch hc)
  rw [PublisherQueue.schedule]
  rcases reserveSchedule_spec ch' with
    ⟨hreserve, hattach, hrunning, hscheduled, hpending⟩ | ⟨hreserve, hskip⟩
  · rw [hreserve]
    dsimp only
    have htokens : q.tokens c = 0 := by
      have hcounted := hok.counted
      rw [if_neg (by rw [hscheduled]; rintro ⟨⟩)] at hcounted
      exact Nat.le_zero.mp hcounted
    refine h.change { ch' with state := { ch'.state with scheduled := true } } hc rfl rfl
      (fun d hd => ⟨?_, rfl, rfl⟩) ?_ (fun d batch hbatch => ?_) h.turns
    · show q.ready.count d + (q.enqueuing ++ [c]).count d + q.worker.token d = _
      rw [count_append, count_singleton, if_neg (by simpa using hd.symm)]
      rfl
    · have hone : q.ready.count c + (q.enqueuing ++ [c]).count c + q.worker.token c = 1 := by
        rw [count_append, count_singleton_self]
        rw [tokens] at htokens
        omega
      exact
        { counted := Nat.le_of_eq hone
          present := fun _ => hone
          attached := fun _ => hattach
          woken := fun _ _ _ => .inl rfl
          full := fun _ _ => .inl hpending
          revoked := hok.revoked
          closing := hok.closing }
    · by_cases hd : d = c
      · subst hd
        exact .inl ⟨rfl, fun hrunning => h.handing d batch hbatch ch hc (hmono hrunning)⟩
      · exact .inr ⟨hd, hbatch⟩
  · rw [hreserve]
    refine h.update hc hmono fun _ => ?_
    exact
      { counted := hok.counted
        present := hok.present
        attached := hok.attached
        woken := fun hattach hrunning hpending => .inl (hskip hattach hrunning hpending)
        full := hok.full
        revoked := hok.revoked
        closing := hok.closing }

-- ---- The calls on one channel.

variable {state : ChannelState V E} {delivery : RtdDelivery} {valueBytes : V → Nat}
  {worker : WorkerPc V E}

theorem pending_of_values (h : state.values ≠ []) : state.pending = true := by
  rw [pending, isEmpty_eq_false_iff.mpr h]
  rfl

theorem queued_ne_nil {queued values queued' : List V} (h : Queued delivery queued values queued')
    (hvalues : values ≠ []) : queued' ≠ [] := by
  cases delivery with
  | fifo capacity =>
    rw [show queued' = queued ++ values from h]
    exact append_ne_nil_of_right_ne_nil _ hvalues
  | latest =>
    obtain ⟨last, -, rfl⟩ := h
    exact append_ne_nil_of_right_ne_nil _ (cons_ne_nil _ _)

/-- A channel that takes a value in keeps a waker if it had nothing to publish. -/
theorem sent {tokens : Nat} {past failing stopping : Bool}
    (hok : ChannelOk ch tokens past failing stopping) {values : List V} {buffered : BufferLedger}
    {waking : Nat} (hvalues : values ≠ []) (hle : ch.waking ≤ waking)
    (hwake : ch.state.values ≠ [] ∨ 0 < waking) :
    ChannelOk { ch with state := { ch.state with values, buffered }, waking } tokens past failing
      stopping :=
  { hok with
    woken := fun hattach hrunning _ => by
      rcases hwake with hwake | hwake
      · rcases hok.woken hattach hrunning (pending_of_values hwake) with hscheduled | hpos
        · exact .inl hscheduled
        · exact .inr (Nat.lt_of_lt_of_le hpos hle)
      · exact .inr hwake
    full := fun _ _ => .inl (pending_of_values hvalues) }

theorem trySendPendingBatch_quiet {grant : Bool} {first : V} {rest : List V}
    {state' : ChannelState V E}
    (h : state.trySendPendingBatch delivery valueBytes grant first rest = (state', .ok, false)) :
    state.values ≠ [] := by
  rintro hempty
  unfold trySendPendingBatch at h
  split at h
  case isTrue => cases h
  case isFalse =>
    cases delivery with
    | fifo capacity =>
      dsimp only at h
      split at h
      case isTrue => cases h
      case isFalse =>
        split at h
        case isTrue => cases h
        case isFalse =>
          rw [hempty] at h
          cases h
    | latest =>
      dsimp only at h
      rw [if_neg (not_not.mpr hempty)] at h
      split at h
      case isTrue => cases h
      case isFalse => cases h

theorem trySendPending_quiet {grant : Bool} {value : V} {state' : ChannelState V E}
    (h : state.trySendPending delivery valueBytes grant value = (state', .ok, false)) :
    state.values ≠ [] :=
  trySendPendingBatch_quiet (Channel.trySendPending_eq .. ▸ h)

theorem trySend (h : QueueWf q) (hc : q.channels[c]? = some ch) (valueBytes : V → Nat)
    (grant : Bool) (value : V) : QueueWf (q.trySend valueBytes c ch grant value) := by
  rw [PublisherQueue.trySend]
  split
  case h_2 => exact h
  case h_1 state wake hsend =>
    obtain ⟨-, values, buffered, hqueued, rfl⟩ := Channel.trySendPending_ok hsend
    have hvalues := queued_ne_nil hqueued (cons_ne_nil _ _)
    refine h.update hc (fun hrunning => hrunning) fun hok => sent hok hvalues ?_ ?_
    · split
      · exact Nat.le_succ _
      · exact Nat.le_refl _
    · cases wake with
      | true => exact .inr (Nat.succ_pos _)
      | false => exact .inl (trySendPending_quiet hsend)

theorem trySendBatch (h : QueueWf q) (hc : q.channels[c]? = some ch) (valueBytes : V → Nat)
    (grant : Bool) (values : List V) : QueueWf (q.trySendBatch valueBytes c ch grant values) := by
  cases values with
  | nil => exact h
  | cons first rest =>
    rw [PublisherQueue.trySendBatch]
    split
    case h_2 => exact h
    case h_1 state wasEmpty hsend =>
      obtain ⟨-, values, buffered, hqueued, rfl⟩ := Channel.trySendPendingBatch_ok hsend
      have hvalues := queued_ne_nil hqueued (cons_ne_nil _ _)
      split
      case isTrue =>
        refine h.schedule hc (fun hrunning => hrunning) fun hok => ?_
        exact sent hok hvalues (Nat.le_succ _) (.inr (Nat.succ_pos _))
      case isFalse hquiet =>
        rw [Bool.not_eq_true] at hquiet
        subst hquiet
        refine h.update hc (fun hrunning => hrunning) fun hok => ?_
        exact sent hok hvalues (Nat.le_refl _) (.inl (trySendPendingBatch_quiet hsend))

theorem producerCompleted_spec (failed : Bool) (policy : RtdProducerErrorPolicy E)
    (state : ChannelState V E) :
    (state.producerCompleted failed policy).stopping = state.stopping ∧
    (state.producerCompleted failed policy).scheduled = state.scheduled ∧
    (state.pending = true → (state.producerCompleted failed policy).pending = true) := by
  cases policy with
  | retainLastValue => exact ⟨rfl, rfl, fun hpending => hpending⟩
  | publishError error =>
    rw [producerCompleted]
    split
    case isTrue =>
      refine ⟨rfl, rfl, fun _ => ?_⟩
      rw [pending]
      show (!(state.values.isEmpty && false)) = true
      rw [Bool.and_false]
      rfl
    case isFalse => exact ⟨rfl, rfl, fun hpending => hpending⟩

theorem complete (h : QueueWf q) (hc : q.channels[c]? = some ch) (failed : Bool)
    (policy : RtdProducerErrorPolicy E) :
    QueueWf (q.update c
      { ch with state := ch.state.producerCompleted failed policy, waking := ch.waking + 1 }) := by
  obtain ⟨hstopping, hscheduled, hpending⟩ := producerCompleted_spec failed policy ch.state
  refine h.update hc (fun hrunning => hstopping.symm.trans hrunning) fun hok => ?_
  exact
    { counted := by
        show _ ≤ if (ch.state.producerCompleted failed policy).scheduled then 1 else 0
        rw [hscheduled]
        exact hok.counted
      present := by
        show _ → _ = if (ch.state.producerCompleted failed policy).scheduled then 1 else 0
        rw [hscheduled]
        exact hok.present
      attached := fun hreserved => hok.attached (hscheduled.symm.trans hreserved)
      woken := fun _ _ _ => .inr (Nat.succ_pos _)
      full := fun hreserved hrunning =>
        (hok.full (hscheduled.symm.trans hreserved) (hstopping.symm.trans hrunning)).imp hpending id
      revoked := fun hattach => by
        show _ ∨ (ch.state.producerCompleted failed policy).stopping = true ∨ _
        rw [hstopping]
        exact hok.revoked hattach
      closing := fun hfinishing => hstopping.trans (hok.closing hfinishing) }

theorem closed {tokens : Nat} {past failing stopping : Bool} {finishing : Nat}
    {publication : Publication F} (hok : ChannelOk ch tokens past failing stopping) :
    ChannelOk { ch with state := ch.state.close, finishing, publication } tokens past failing
      stopping :=
  { counted := hok.counted
    present := hok.present
    attached := hok.attached
    woken := nofun
    full := nofun
    revoked := fun _ => .inr (.inl rfl)
    closing := fun _ => rfl }

theorem stepChannel (h : QueueWf q) (hc : q.channels[c]? = some ch)
    {action : PublisherQueue.Action V E F} (hs : q.stepChannel valueBytes c ch action = some q') :
    QueueWf q' := by
  cases action with
  | setSink =>
    simp only [PublisherQueue.stepChannel] at hs
    split at hs
    case isFalse => cases hs
    case isTrue hattach =>
      cases hs
      refine h.update hc (fun hrunning => hrunning) fun hok => ?_
      have hunscheduled : ch.state.scheduled = true → False := fun hscheduled => by
        have hattached := hok.attached hscheduled
        rw [hattach] at hattached
        cases hattached
      exact
        { hok with
          attached := fun hscheduled => (hunscheduled hscheduled).elim
          woken := nofun
          revoked := fun _ => .inl rfl }
  | setScheduler =>
    simp only [PublisherQueue.stepChannel] at hs
    split at hs
    case isFalse => cases hs
    case isTrue hattach =>
      cases hs
      refine h.update hc (fun hrunning => hrunning) fun hok => ?_
      exact
        { hok with
          attached := fun _ => rfl
          woken := fun _ _ _ => .inr (Nat.succ_pos _)
          revoked := fun _ => hok.revoked (by rw [hattach]; rintro ⟨⟩) }
  | send _ grant value =>
    cases hs
    exact h.trySend hc valueBytes grant value
  | sendBatch _ grant values =>
    cases hs
    exact h.trySendBatch hc valueBytes grant values
  | wake =>
    simp only [PublisherQueue.stepChannel] at hs
    split at hs
    case isFalse => cases hs
    case isTrue hpos =>
      cases hs
      refine h.schedule hc (fun hrunning => hrunning) fun hok => ?_
      have hsame : ch.waking - 1 + 1 = ch.waking := Nat.sub_add_cancel hpos
      rw [hsame]
      exact hok
  | complete _ failed policy =>
    cases hs
    exact h.complete hc failed policy
  | close =>
    cases hs
    exact h.update hc nofun closed
  | finishClose =>
    simp only [PublisherQueue.stepChannel] at hs
    split at hs
    case isFalse => cases hs
    case isTrue =>
      cases hs
      exact h.update hc nofun closed
  | finishRevoke =>
    simp only [PublisherQueue.stepChannel] at hs
    split at hs
    case isFalse => cases hs
    case isTrue hready =>
      cases hs
      refine h.update hc (fun hrunning => hrunning) fun hok => ?_
      have hstopping := hok.closing hready.1
      exact
        { hok with
          revoked := fun _ => .inr (.inl hstopping)
          closing := fun _ => hstopping }
  | create | enqueue | work | sinkReturns | stop => cases hs

-- ---- The publisher thread.

/-- **Entries move and channels stay.** Only a queue that is stopping loses entries. -/
theorem shift (h : QueueWf q) (hchannels : q'.channels = q.channels)
    (hstopping : q'.stopping = false → q.stopping = false)
    (htokens : ∀ d, q'.tokens d ≤ q.tokens d ∧ (q'.stopping = false → q'.tokens d = q.tokens d))
    (hpast : ∀ d, q'.worker.past d = q.worker.past d)
    (hfailing : ∀ d, q'.worker.failing d = q.worker.failing d)
    (hhanding : q'.worker.handing = q.worker.handing) (hturns : q'.turns = q.turns) :
    QueueWf q' where
  channels := fun d ch hd => by
    rw [hchannels] at hd
    have hok := h.channels d ch hd
    rw [hpast, hfailing]
    exact
      { hok with
        counted := Nat.le_trans (htokens d).1 hok.counted
        present := fun hrunning =>
          ((htokens d).2 hrunning).trans (hok.present (hstopping hrunning)) }
  known := fun d hd => by
    rw [hchannels] at hd
    exact Nat.le_zero.mp ((h.known d hd) ▸ (htokens d).1)
  handing := fun d batch hbatch ch hd => by
    rw [hchannels] at hd
    exact h.handing d batch (hhanding ▸ hbatch) ch hd
  turns := by
    rw [hturns]
    exact h.turns

theorem past_other {d : Nat} (hworker : worker.channel = some c) (hd : d ≠ c) :
    worker.past d = false ∧ worker.failing d = false := by
  cases worker with
  | waiting | exited => cases hworker
  | requeue => exact ⟨rfl, rfl⟩
  | turn channel pc handed =>
    cases hworker
    have hne : decide (c = d) = false := decide_eq_false hd.symm
    cases pc with
    | starting | locked => exact ⟨rfl, rfl⟩
    | taken | publishing | released => exact ⟨hne, rfl⟩
    | failed => exact ⟨hne, hne⟩

theorem token_self (hworker : worker.channel = some c) : worker.token c = 1 :=
  if_pos hworker

theorem token_other {d : Nat} (hworker : worker.channel = some c) (hd : d ≠ c) :
    worker.token d = 0 := by
  rw [WorkerPc.token, hworker, if_neg]
  intro heq
  exact hd (some.inj heq).symm

theorem scheduled_of_turn (h : QueueWf q) (hc : q.channels[c]? = some ch)
    (hworker : q.worker.channel = some c) : ch.state.scheduled = true := by
  have hcounted := (h.channels c ch hc).counted
  rw [tokens, token_self hworker] at hcounted
  cases hscheduled : ch.state.scheduled with
  | true => rfl
  | false =>
    rw [hscheduled, if_neg nofun] at hcounted
    omega

/-- **A turn moves on** and keeps its channel's entry. -/
theorem turned (h : QueueWf q) (ch' : SharedChannel V E F) (worker : WorkerPc V E)
    (hc : q.channels[c]? = some ch) (hworker : q.worker.channel = some c)
    (hworker' : worker.channel = some c)
    (hok : ChannelOk ch (q.tokens c) (q.worker.past c) (q.worker.failing c) q.stopping →
      ChannelOk ch' (q.tokens c) (worker.past c) (worker.failing c) q.stopping)
    (hhanding : ∀ d batch, worker.handing = some (d, batch) →
      d = c ∧ (ch'.state.stopping = false → batch ≠ []))
    {turns : List (Turn V E)} (hturns : ∀ turn ∈ turns, turn.requeued = true → turn.handed ≠ []) :
    QueueWf { (q.update c ch') with worker, turns } := by
  have htokens : tokens { (q.update c ch') with worker, turns } c = q.tokens c := by
    show q.ready.count c + q.enqueuing.count c + worker.token c = _
    rw [tokens, token_self hworker, token_self hworker']
  refine h.change ch' hc rfl rfl (fun d hd => ⟨?_, ?_, ?_⟩) ?_ (fun d batch hbatch => ?_) hturns
  · show q.ready.count d + q.enqueuing.count d + worker.token d = _
    rw [tokens, token_other hworker hd, token_other hworker' hd]
  · rw [(past_other hworker hd).1]
    exact (past_other hworker' hd).1
  · rw [(past_other hworker hd).2]
    exact (past_other hworker' hd).2
  · rw [htokens]
    exact hok (h.channels c ch hc)
  · exact .inl (hhanding d batch hbatch)

theorem takeBatch_ne_nil (valueBytes : V → Nat) (hrunning : state.stopping = false)
    (hpending : state.pending = true) : (state.takeBatch valueBytes).2 ≠ [] := by
  rcases takeBatch_spec valueBytes state with
    ⟨-, hstopping⟩ | ⟨buffered, values, terminals, -, htake, hvalues, hlength, hterminals⟩
  · rw [hrunning] at hstopping
    cases hstopping
  · rw [htake]
    intro hnil
    obtain ⟨hnil, hnone⟩ := append_eq_nil_iff.mp hnil
    rw [map_eq_nil_iff] at hnil hnone
    subst hnil hnone
    rw [nil_append] at hvalues
    have hempty : state.values = [] := by
      have hlen := congrArg length hvalues
      rw [length_drop] at hlen
      exact eq_nil_of_length_eq_zero (by omega)
    rcases hterminals with ⟨-, hfull⟩ | ⟨hterminal, -⟩
    · rw [hempty] at hfull
      cases hfull
    · cases hterminalError : state.terminalError with
      | none =>
        rw [pending, hempty, hterminalError] at hpending
        cases hpending
      | some error =>
        rw [hterminalError] at hterminal
        cases hterminal

theorem takeBatch_keeps (valueBytes : V → Nat) (state : ChannelState V E) :
    (state.takeBatch valueBytes).1.stopping = state.stopping ∧
    (state.takeBatch valueBytes).1.scheduled = state.scheduled := by
  rcases takeBatch_spec valueBytes state with
    ⟨htake, -⟩ | ⟨buffered, values, terminals, -, htake, -⟩
  · rw [htake]
    exact ⟨rfl, rfl⟩
  · rw [htake]
    exact ⟨rfl, rfl⟩

/-- The end of a turn: its channel goes back if there is more to publish, and a turn that
sees that has given the sink something. -/
theorem turnEnd (h : QueueWf q) (hc : q.channels[c]? = some ch) {handed : List (Delivered V E)}
    (hworker : q.worker = .turn c .released handed)
    (hs : q.stepTurn valueBytes c ch handed .released = some q') : QueueWf q' := by
  have hchannel : q.worker.channel = some c := by
    rw [hworker]
    rfl
  have hok := h.channels c ch hc
  have hscheduled := h.scheduled_of_turn hc hchannel
  rw [stepTurn] at hs
  rcases reserveSchedule_spec { ch with state := { ch.state with scheduled := false } } with
    ⟨hreserve, hattach, hrunning, -, hpending⟩ | ⟨hreserve, hskip⟩
  · rw [hreserve] at hs
    cases hs
    have hhanded : handed ≠ [] :=
      h.handing c handed (by rw [hworker]; rfl) ch hc hrunning
    refine h.turned _ (.requeue c) hc hchannel rfl (fun hok => ?_)
      (fun d batch hbatch => by cases hbatch) (fun turn hturn hrequeued => ?_)
    · exact
        { counted := hok.counted.trans (by rw [hscheduled])
          present := fun hstopping => (hok.present hstopping).trans (by rw [hscheduled])
          attached := fun _ => hattach
          woken := fun _ _ _ => .inl rfl
          full := fun _ _ => .inl hpending
          revoked := fun hcreated => by
            have hrevoked := hok.revoked hcreated
            rw [hworker] at hrevoked
            exact hrevoked
          closing := hok.closing }
    · rcases mem_append.mp hturn with hturn | hturn
      · exact h.turns turn hturn hrequeued
      · cases mem_singleton.mp hturn
        exact hhanded
  · rw [hreserve] at hs
    cases hs
    have htokens : q.ready.count c + q.enqueuing.count c = 0 := by
      have hcounted := hok.counted
      rw [hscheduled, tokens, token_self hchannel, if_pos rfl] at hcounted
      omega
    refine h.change { ch with state := { ch.state with scheduled := false } } hc rfl rfl
      (fun d hd => ⟨?_, (past_other hchannel hd).1.symm, (past_other hchannel hd).2.symm⟩) ?_
      (fun d batch hbatch => by cases hbatch) (fun turn hturn hrequeued => ?_)
    · show q.ready.count d + q.enqueuing.count d + 0 = _
      rw [tokens, token_other hchannel hd]
    · exact
        { counted := Nat.le_of_eq htokens
          present := fun _ => htokens
          attached := nofun
          woken := fun hattach hrunning hpending => by cases hskip hattach hrunning hpending
          full := nofun
          revoked := fun hcreated => by
            have hrevoked := hok.revoked hcreated
            rw [hworker] at hrevoked
            exact hrevoked
          closing := hok.closing }
    · rcases mem_append.mp hturn with hturn | hturn
      · exact h.turns turn hturn hrequeued
      · cases mem_singleton.mp hturn
        cases hrequeued

theorem stepTurn (h : QueueWf q) (hc : q.channels[c]? = some ch) {pc : TurnPc V E}
    {handed : List (Delivered V E)} (hworker : q.worker = .turn c pc handed)
    (hs : q.stepTurn valueBytes c ch handed pc = some q') : QueueWf q' := by
  have hchannel : q.worker.channel = some c := by
    rw [hworker]
    rfl
  have hsame {worker : WorkerPc V E} (hworker' : worker.channel = some c) (d : Nat) :
      tokens { q with worker } d = q.tokens d := by
    show q.ready.count d + q.enqueuing.count d + worker.token d = _
    rw [tokens, WorkerPc.token, WorkerPc.token, hchannel, hworker']
  have hscheduled := h.scheduled_of_turn hc hchannel
  cases pc with
  | starting | taken batch =>
    cases hs
    refine h.shift rfl (fun hrunning => hrunning)
      (fun d => ⟨Nat.le_of_eq (hsame rfl d), fun _ => hsame rfl d⟩) (fun d => ?_) (fun d => ?_) ?_ rfl
      <;> rw [hworker] <;> rfl
  | locked =>
    have hok := h.channels c ch hc
    rw [hworker] at hok
    rw [PublisherQueue.stepTurn] at hs
    split at hs
    case isTrue hsink =>
      cases hs
      obtain ⟨hstopping, hreserved⟩ := takeBatch_keeps valueBytes ch.state
      refine h.turned { ch with state := (ch.state.takeBatch valueBytes).1 }
        (.turn c (.taken (ch.state.takeBatch valueBytes).2) handed) hc hchannel rfl (fun _ => ?_)
        (fun d batch hbatch => ?_) h.turns
      · exact
          { counted := by
              show _ ≤ if (ch.state.takeBatch valueBytes).1.scheduled then 1 else 0
              rw [hreserved]
              exact hok.counted
            present := by
              show _ → _ = if (ch.state.takeBatch valueBytes).1.scheduled then 1 else 0
              rw [hreserved]
              exact hok.present
            attached := fun _ => hok.attached hscheduled
            woken := fun _ _ _ => .inl (hreserved.trans hscheduled)
            full := fun _ _ => .inr (decide_eq_true rfl)
            revoked := fun _ => .inl hsink
            closing := fun hfinishing => hstopping.trans (hok.closing hfinishing) }
      · cases hbatch
        refine ⟨rfl, fun hrunning => ?_⟩
        have hrunning := hstopping.symm.trans hrunning
        exact takeBatch_ne_nil valueBytes hrunning
          ((hok.full hscheduled hrunning).resolve_right nofun)
    case isFalse hsink =>
      cases hs
      have hstopping : ch.state.stopping = true := by
        rcases hok.revoked (by rw [hok.attached hscheduled]; rintro ⟨⟩) with hrevoked | hrest
        · exact absurd hrevoked hsink
        · exact hrest.resolve_right nofun
      have hturned := h.turned ch (.turn c .released handed) hc hchannel rfl
        (fun _ => { hok with full := fun _ _ => .inr (decide_eq_true rfl) })
        (fun d batch hbatch => by
          cases hbatch
          refine ⟨rfl, fun hrunning => ?_⟩
          rw [hstopping] at hrunning
          cases hrunning) h.turns
      have hset : q.channels.set c ch = q.channels := by
        obtain ⟨hlt, rfl⟩ := List.getElem_of_getElem? hc
        exact set_getElem_self hlt
      rw [PublisherQueue.update, hset] at hturned
      exact hturned
  | publishing => cases hs
  | failed =>
    cases hs
    refine h.turned { ch with state := ch.state.close } (.turn c .released handed) hc hchannel rfl
      (fun hok => ?_) (fun d batch hbatch => ?_) h.turns
    · exact
        { closed hok with
          full := nofun
          revoked := fun _ => .inr (.inl rfl) }
    · cases hbatch
      exact ⟨rfl, nofun⟩
  | released => exact h.turnEnd hc hworker hs

theorem tokens_push (q : PublisherQueue V E F) (c d : Nat) : (q.push c).tokens d =
      q.tokens d + if q.stopping then 0 else if c = d then 1 else 0 := by
  rw [PublisherQueue.push]
  split
  case isTrue => rfl
  case isFalse =>
    show (q.ready ++ [c]).count d + q.enqueuing.count d + q.worker.token d = _
    rw [PublisherQueue.tokens, count_append, count_singleton]
    simp only [beq_iff_eq]
    omega

theorem pushed (h : QueueWf q) (hchannels : q'.channels = q.channels)
    (hstopping : q'.stopping = q.stopping)
    (htokens : ∀ d, q'.tokens d + (if c = d then 1 else 0) = q.tokens d)
    (hpast : ∀ d, q'.worker.past d = q.worker.past d)
    (hfailing : ∀ d, q'.worker.failing d = q.worker.failing d)
    (hhanding : q'.worker.handing = q.worker.handing) (hturns : q'.turns = q.turns) :
    QueueWf (q'.push c) := by
  have hsame : (q'.push c).channels = q'.channels ∧ (q'.push c).stopping = q'.stopping ∧
      (q'.push c).worker = q'.worker ∧ (q'.push c).turns = q'.turns := by
    rw [PublisherQueue.push]
    split <;> exact ⟨rfl, rfl, rfl, rfl⟩
  obtain ⟨hsame, hsameStopping, hsameWorker, hsameTurns⟩ := hsame
  refine h.shift (hsame.trans hchannels) (fun hrunning => ?_) (fun d => ?_) (fun d => ?_)
    (fun d => ?_) ?_ (hsameTurns.trans hturns)
  · rw [← hstopping, ← hsameStopping]
    exact hrunning
  · have hd := htokens d
    rw [tokens_push, hsameStopping]
    refine ⟨by split <;> omega, fun hrunning => ?_⟩
    rw [hrunning, if_neg nofun]
    exact hd
  · rw [hsameWorker]
    exact hpast d
  · rw [hsameWorker]
    exact hfailing d
  · rw [hsameWorker]
    exact hhanding

theorem work (h : QueueWf q) (hs : q.work valueBytes = some q') : QueueWf q' := by
  rw [PublisherQueue.work] at hs
  cases hworker : q.worker with
  | waiting =>
    rw [hworker] at hs
    dsimp only at hs
    split at hs
    case isTrue =>
      cases hs
      have hsame (d : Nat) : tokens { q with worker := .exited } d = q.tokens d := by
        rw [tokens, tokens, hworker]
        rfl
      refine h.shift rfl (fun hrunning => hrunning)
        (fun d => ⟨Nat.le_of_eq (hsame d), fun _ => hsame d⟩) (fun d => ?_) (fun d => ?_) ?_ rfl
        <;> rw [hworker] <;> rfl
    case isFalse =>
      cases hready : q.ready with
      | nil =>
        rw [hready] at hs
        cases hs
      | cons c ready =>
        rw [hready] at hs
        cases hs
        have hsame (d : Nat) :
            tokens { q with ready, worker := .turn c .starting [] } d =
              q.tokens d := by
          show ready.count d + q.enqueuing.count d + (if some c = some d then 1 else 0) =
            q.ready.count d + q.enqueuing.count d + q.worker.token d
          rw [hready, hworker, count_cons]
          show _ = ready.count d + (if c == d then 1 else 0) + q.enqueuing.count d + 0
          simp only [some.injEq, beq_iff_eq]
          omega
        refine h.shift rfl (fun hrunning => hrunning)
          (fun d => ⟨Nat.le_of_eq (hsame d), fun _ => hsame d⟩) (fun d => ?_) (fun d => ?_) ?_ rfl
          <;> rw [hworker] <;> rfl
  | turn c pc handed =>
    rw [hworker] at hs
    simp only [bind_eq_bind, bind_eq_some_iff] at hs
    obtain ⟨ch, hc, hs⟩ := hs
    exact h.stepTurn hc hworker hs
  | requeue c =>
    rw [hworker] at hs
    cases hs
    have hpush : { (q.push c) with worker := .waiting } =
        push { q with worker := .waiting } c := by
      rw [PublisherQueue.push, PublisherQueue.push]
      split <;> rfl
    rw [hpush]
    refine h.pushed rfl rfl (fun d => ?_) (fun d => ?_) (fun d => ?_) ?_ rfl
    · show q.ready.count d + q.enqueuing.count d + 0 + (if c = d then 1 else 0) = q.tokens d
      rw [tokens, hworker]
      show _ = _ + _ + if some c = some d then 1 else 0
      simp only [some.injEq]
      omega
    · rw [hworker]
      rfl
    · rw [hworker]
      rfl
    · rw [hworker]
      rfl
  | exited =>
    rw [hworker] at hs
    cases hs

theorem sinkReturns (h : QueueWf q) {result : Option F} (hs : q.sinkReturns result = some q') :
    QueueWf q' := by
  rw [PublisherQueue.sinkReturns] at hs
  split at hs
  case h_2 => cases hs
  case h_1 c handed hworker =>
    have hchannel : q.worker.channel = some c := by
      rw [hworker]
      rfl
    simp only [bind_eq_bind, bind_eq_some_iff] at hs
    obtain ⟨ch, hc, hs⟩ := hs
    cases result with
    | none =>
      cases hs
      have hsame (d : Nat) : tokens { q with worker := .turn c .released handed } d =
          q.tokens d := by
        rw [tokens, tokens, hworker]
        rfl
      refine h.shift rfl (fun hrunning => hrunning)
        (fun d => ⟨Nat.le_of_eq (hsame d), fun _ => hsame d⟩) (fun d => ?_) (fun d => ?_) ?_ rfl
        <;> rw [hworker] <;> rfl
    | some error =>
      cases hs
      refine h.turned _ (.turn c .failed handed) hc hchannel rfl (fun hok => ?_)
        (fun d batch hbatch => by cases hbatch) h.turns
      exact
        { hok with
          full := fun _ _ => .inr (decide_eq_true rfl)
          revoked := fun _ => .inr (.inr (decide_eq_true rfl)) }

theorem step (h : QueueWf q) {action : PublisherQueue.Action V E F}
    (hs : q.step valueBytes action = some q') : QueueWf q' := by
  cases action with
  | create delivery =>
    cases hs
    have hfresh := h.known q.channels.length (Nat.le_refl _)
    refine ⟨fun d ch hd => ?_, fun d hd => ?_, fun d batch hbatch ch hd hrunning => ?_, h.turns⟩
    · rcases getElem?_append_singleton_cases hd with hd | ⟨rfl, rfl⟩
      · exact h.channels d ch hd
      · exact
          { counted := Nat.le_of_eq hfresh
            present := fun _ => hfresh
            attached := nofun
            woken := nofun
            full := nofun
            revoked := fun hcreated => absurd rfl hcreated
            closing := fun hfinishing => by cases hfinishing }
    · refine h.known d (Nat.le_trans ?_ hd)
      show q.channels.length ≤ (q.channels ++ [_]).length
      rw [length_append]
      exact Nat.le_add_right _ _
    · rcases getElem?_append_singleton_cases hd with hd | ⟨rfl, rfl⟩
      · exact h.handing d batch hbatch ch hd hrunning
      · -- The thread has no turn of a channel that is only now created.
        have hchannel : q.worker.channel = some q.channels.length := by
          cases hworker : q.worker with
          | waiting | requeue | exited =>
            change q.worker.handing = _ at hbatch
            rw [hworker] at hbatch
            cases hbatch
          | turn c pc handed =>
            change q.worker.handing = _ at hbatch
            rw [hworker] at hbatch
            cases pc with
            | taken | publishing | released =>
              cases hbatch
              rfl
            | starting | locked | failed => cases hbatch
        rw [PublisherQueue.tokens, token_self hchannel] at hfresh
        omega
  | enqueue c =>
    simp only [PublisherQueue.step] at hs
    split at hs
    case isFalse => cases hs
    case isTrue hmem =>
      cases hs
      refine h.pushed rfl rfl (fun d => ?_) (fun _ => rfl) (fun _ => rfl) rfl rfl
      show q.ready.count d + (q.enqueuing.erase c).count d + q.worker.token d + _ = q.tokens d
      rw [PublisherQueue.tokens, count_erase]
      have hpos : 0 < q.enqueuing.count c := count_pos_iff.mpr hmem
      by_cases hd : c = d
      · subst hd
        simp only [beq_self_eq_true, if_true]
        omega
      · rw [if_neg hd, if_neg (by simpa using hd)]
        omega
  | work => exact h.work hs
  | sinkReturns result => exact h.sinkReturns hs
  | stop =>
    cases hs
    refine h.shift rfl nofun
      (fun d => ⟨?_, nofun⟩) (fun _ => rfl) (fun _ => rfl) rfl rfl
    show 0 + q.enqueuing.count d + q.worker.token d ≤ _
    rw [PublisherQueue.tokens]
    omega
  | setSink | setScheduler | send | sendBatch | wake | complete | close | finishClose
  | finishRevoke =>
    simp only [PublisherQueue.step, bind_eq_bind, bind_eq_some_iff] at hs
    obtain ⟨ch, hc, hs⟩ := hs
    exact h.stepChannel hc hs

theorem tokens_le_one (h : QueueWf q) (c : Nat) : q.tokens c ≤ 1 := by
  cases hc : q.channels[c]? with
  | none =>
    rw [h.known c (List.getElem?_eq_none_iff.mp hc)]
    exact Nat.zero_le 1
  | some ch =>
    refine Nat.le_trans (h.channels c ch hc).counted ?_
    split
    · exact Nat.le_refl 1
    · exact Nat.zero_le 1

end QueueWf

-- ---- The shared publisher.

namespace PublisherQueue

/-- No operation on the channel is part-way: none is between the state lock and `schedule`,
none between its reservation and its push, and the thread is not about to put the channel
back. -/
def settled (q : PublisherQueue V E F) (c : Nat) (ch : SharedChannel V E F) : Prop :=
  ch.waking = 0 ∧ c ∉ q.enqueuing ∧ q.worker ≠ .requeue c

/-- **No channel is stranded and none spins.** In every interleaving over any number of
channels:

* the ready queue holds each channel at most once;
* where no operation on it is part-way, a channel that is attached, not stopping, on a
  queue that is not stopping, and has a queued value or a pending terminal error is marked
  scheduled, and it is in the ready queue or its turn is running;
* a turn that puts its channel back has given the sink at least one value or terminal
  error. -/
theorem no_stranded_channel {valueBytes : V → Nat} {q : PublisherQueue V E F}
    (hq : Reachable (step valueBytes) PublisherQueue.new q) :
    q.ready.Nodup ∧
    (∀ (c : Nat) (ch : SharedChannel V E F), q.channels[c]? = some ch → q.settled c ch →
      ch.attach = .attached → ch.state.stopping = false → q.stopping = false →
      (ch.state.values ≠ [] ∨ ch.state.terminalError ≠ none) →
      ch.state.scheduled = true ∧
        (c ∈ q.ready ∨ ∃ pc handed, q.worker = .turn c pc handed)) ∧
    (∀ turn ∈ q.turns, turn.requeued = true → turn.handed ≠ []) := by
  have h : QueueWf q := hq.invariant (fun s a s' hs hstep => hs.step hstep) .new
  refine ⟨?_, fun c ch hc hsettled hattach hrunning hopen hvalue => ?_, h.turns⟩
  · refine nodup_iff_count_le_one.mpr fun c => ?_
    have hle := h.tokens_le_one c
    rw [tokens] at hle
    omega
  · obtain ⟨hwaking, henqueuing, hrequeue⟩ := hsettled
    have hok := h.channels c ch hc
    have hpending : ch.state.pending = true := by
      rcases hvalue with hvalues | hterminal
      · exact QueueWf.pending_of_values hvalues
      · rw [pending, isNone_eq_false_iff.mpr (isSome_iff_ne_none.mpr hterminal), Bool.and_false]
        rfl
    have hscheduled : ch.state.scheduled = true := by
      refine (hok.woken hattach hrunning hpending).resolve_right ?_
      rw [hwaking]
      exact Nat.lt_irrefl 0
    refine ⟨hscheduled, ?_⟩
    have htokens := hok.present hopen
    rw [hscheduled, if_pos rfl, tokens, count_eq_zero_of_not_mem henqueuing] at htokens
    by_cases hready : c ∈ q.ready
    · exact .inl hready
    · rw [count_eq_zero_of_not_mem hready] at htokens
      refine .inr ?_
      cases hworker : q.worker with
      | waiting | exited =>
        rw [hworker] at htokens
        cases htokens
      | requeue d =>
        rw [hworker] at htokens hrequeue
        by_cases hd : d = c
        · rw [hd] at hrequeue
          exact absurd rfl hrequeue
        · rw [QueueWf.token_other rfl (Ne.symm hd)] at htokens
          cases htokens
      | turn d pc handed =>
        by_cases hd : d = c
        · rw [hd]
          exact ⟨pc, handed, rfl⟩
        · rw [hworker, QueueWf.token_other rfl (Ne.symm hd)] at htokens
          cases htokens

/-- A value is sent while the only turn is with the sink; the turn puts the channel back. -/
def requeueRun : List (Action Nat Nat Nat) :=
  [.create .latest, .setSink 0, .setScheduler 0, .wake 0, .send 0 true 7, .wake 0, .enqueue 0,
    .work, .work, .work, .work, .send 0 true 8, .wake 0, .sinkReturns none, .work, .work]

theorem no_stranded_channel_requeueRun :
    ∃ q ch, run (step fun _ => 1) (PublisherQueue.new : PublisherQueue Nat Nat Nat) requeueRun =
        some q ∧ q.channels[0]? = some ch ∧ q.settled 0 ch ∧ ch.state.values = [8] ∧
      ch.state.scheduled = true ∧ (0 ∈ q.ready ∨ ∃ pc handed, q.worker = .turn 0 pc handed) ∧
      q.turns.length = 1 ∧ ∀ turn ∈ q.turns, turn.requeued = true → turn.handed ≠ [] := by
  obtain ⟨q, hrun⟩ : ∃ q, run (step fun _ => 1)
      (PublisherQueue.new : PublisherQueue Nat Nat Nat) requeueRun = some q :=
    isSome_iff_exists.mp (by decide +kernel)
  have hq : (run (step fun _ => 1) (PublisherQueue.new : PublisherQueue Nat Nat Nat) requeueRun).map
      (fun q => (q.enqueuing, q.worker.channel, q.stopping, q.turns.length)) =
        some ([], none, false, 1) := by
    decide +kernel
  have hch : (run (step fun _ => 1)
      (PublisherQueue.new : PublisherQueue Nat Nat Nat) requeueRun).map (fun q =>
        (q.channels[0]?).map fun ch => (ch.waking, ch.attach, ch.state.stopping, ch.state.values)) =
        some (some (0, .attached, false, [8])) := by
    decide +kernel
  rw [hrun] at hq hch
  simp only [map_some, some.injEq, Prod.mk.injEq, map_eq_some_iff] at hq hch
  obtain ⟨ch, hc, hwaking, hattach, hrunning, hvalues⟩ := hch
  have hsettled : q.settled 0 ch := by
    refine ⟨hwaking, ?_, fun hworker => ?_⟩
    · rw [hq.1]
      exact not_mem_nil
    · rw [hworker] at hq
      cases hq.2.1
  have hstranded := no_stranded_channel ⟨requeueRun, hrun⟩
  obtain ⟨hscheduled, hplace⟩ := hstranded.2.1 0 ch hc hsettled hattach hrunning hq.2.2.1
    (.inl (by rw [hvalues]; exact cons_ne_nil _ _))
  exact ⟨q, ch, hrun, hc, hsettled, hvalues, hscheduled, hplace, hq.2.2.2, hstranded.2.2⟩

end PublisherQueue

end Xlfn.Subscription
