import Xlfn.Subscription.Channel

/-!
# Xlfn — the order of delivery on a channel

What a sink sees of the accepted values, in every interleaving of senders, turns,
completion, `close` and `finish`.

* `Split` — how what left the queue, what is in it and what was accepted fit together.
* `Inv` — the invariant, kept by `Inv.step`.
-/

namespace Xlfn.Subscription

open Xlfn.Lib List

-- ---- What a turn takes.

namespace ChannelState

variable {V E : Type}

/-- What the loop of a turn takes. -/
theorem takeLoop_eq (n : Nat) (state : ChannelState V E) (batch : List (Delivered V E)) :
    takeLoop n state batch =
      ({ state with
          values        := state.values.drop n
          terminalError := if state.values.length < n then none else state.terminalError },
        batch ++ ((state.values.take n).map .value ++
          if state.values.length < n then (state.terminalError.toList).map .terminal else [])) := by
  induction n generalizing state batch with
  | zero => simp [takeLoop]
  | succ n ih =>
    obtain ⟨values, buffered, terminalError, accepting, stopping, scheduled⟩ := state
    cases values with
    | cons value values =>
      simp [takeLoop, ih]
    | nil =>
      cases terminalError with
      | none => simp [takeLoop]
      | some error => simp [takeLoop, ih]

/-- The batch a turn takes: at most 32 values, and the terminal error if that empties
the queue before the turn is full. -/
theorem takeBatch_spec (valueBytes : V → Nat) (state : ChannelState V E) :
    (takeBatch valueBytes state = (state, []) ∧ state.stopping = true) ∨
    ∃ buffered values terminals, state.stopping = false ∧
      takeBatch valueBytes state =
        ({ state with
            values        := state.values.drop 32
            buffered      := buffered
            terminalError := if state.values.length < 32 then none else state.terminalError },
          values.map .value ++ terminals.map .terminal) ∧
      state.values = values ++ state.values.drop 32 ∧ values.length ≤ 32 ∧
      ((terminals = [] ∧ 32 ≤ state.values.length) ∨
        (terminals = state.terminalError.toList ∧ state.values.length < 32)) := by
  cases hstop : state.stopping with
  | true => exact .inl ⟨by simp [takeBatch, hstop], rfl⟩
  | false =>
    refine .inr ⟨(takeBatch valueBytes state).1.buffered, state.values.take 32,
      if state.values.length < 32 then state.terminalError.toList else [], rfl, ?_,
      (take_append_drop 32 _).symm, length_take_le _ _, ?_⟩
    · simp only [takeBatch, hstop, Bool.false_eq_true, ↓reduceIte, takeLoop_eq, nil_append]
      congr 2
      split <;> simp
    · split
      next hlt => exact .inr ⟨rfl, hlt⟩
      next hge => exact .inl ⟨rfl, Nat.le_of_not_lt hge⟩

end ChannelState

-- ---- The invariant.

/-- How what was taken from a queue and what is queued follow what was accepted. -/
def Follows {V : Type} (delivery : RtdDelivery) (stopping : Bool)
    (taken queued accepted : List V) : Prop :=
  match delivery with
  | .fifo _ => taken <+: accepted ∧ (stopping = false → accepted = taken ++ queued)
  | .latest => (taken ++ queued).Sublist accepted ∧
      (stopping = false → (taken ++ queued).getLast? = accepted.getLast?)

/-- What an admitted send does to the queue. -/
def Queued {V : Type} (delivery : RtdDelivery) (queued values queued' : List V) : Prop :=
  match delivery with
  | .fifo _ => queued' = queued ++ values
  | .latest => ∃ last, values.getLast? = some last ∧ queued' = queued.dropLast ++ [last]

section

variable {V : Type} {delivery : RtdDelivery} {stopping : Bool}
  {taken queued queued' accepted values : List V}

theorem Follows.accept (h : Follows delivery false taken queued accepted)
    (hq : Queued delivery queued values queued') :
    Follows delivery false taken queued' (accepted ++ values) := by
  cases delivery with
  | fifo capacity =>
    obtain ⟨hfront, hall⟩ := h
    refine ⟨hfront.trans (prefix_append _ _), fun _ => ?_⟩
    rw [hall rfl, show queued' = queued ++ values from hq, append_assoc]
  | latest =>
    obtain ⟨hsub, -⟩ := h
    obtain ⟨last, hlast, rfl⟩ := hq
    obtain ⟨init, rfl⟩ : ∃ init, values = init ++ [last] := by
      refine ⟨values.dropLast, ?_⟩
      rw [dropLast_append_getLast?]
      exact hlast
    refine ⟨?_, fun _ => ?_⟩
    · rw [← append_assoc, ← append_assoc]
      refine List.Sublist.append ?_ (List.Sublist.refl _)
      have hless : (taken ++ queued.dropLast).Sublist (taken ++ queued) :=
        (List.Sublist.refl _).append (dropLast_sublist _)
      exact (hless.trans hsub).trans (sublist_append_left _ _)
    · rw [← append_assoc, ← append_assoc, getLast?_concat, getLast?_concat]

theorem Follows.take {moved : List V}
    (h : Follows delivery stopping taken (moved ++ queued) accepted) :
    stopping = false → Follows delivery stopping (taken ++ moved) queued accepted := by
  intro hstop
  cases delivery with
  | fifo capacity =>
    obtain ⟨-, hall⟩ := h
    have hall := hall hstop
    rw [← append_assoc] at hall
    exact ⟨⟨queued, hall.symm⟩, fun _ => hall⟩
  | latest =>
    obtain ⟨hsub, hlast⟩ := h
    rw [← append_assoc] at hsub hlast
    exact ⟨hsub, hlast⟩

theorem Follows.close (h : Follows delivery stopping taken queued accepted) :
    Follows delivery true taken [] accepted := by
  cases delivery with
  | fifo capacity => exact ⟨h.1, nofun⟩
  | latest =>
    refine ⟨?_, nofun⟩
    rw [append_nil]
    exact (sublist_append_left _ _).trans h.1

end

namespace Channel

variable {V E F : Type} {delivery : RtdDelivery} {valueBytes : V → Nat} {c c' : Channel V E F}

/-- The batch that a turn has taken and not yet given to the sink. -/
def inFlight (c : Channel V E F) : List (Delivered V E) :=
  match c.turn with
  | some (.taken batch) => batch
  | _ => []

/-- What the sink got, and what the running turn has taken out of the queue for it. -/
def handedOver (c : Channel V E F) : List (Delivered V E) := c.handed.flatten ++ c.inFlight

/-- How what left the queue, what is in it and what was accepted fit together. -/
structure Split (delivery : RtdDelivery) (c : Channel V E F) (taken : List V)
    (terminals : List E) : Prop where
  parts   : c.handedOver = taken.map .value ++ terminals.map .terminal
  follows : Follows delivery c.state.stopping taken c.state.values c.accepted
  once    : terminals.length + c.state.terminalError.toList.length ≤ if c.completed then 1 else 0
  ended   : terminals ≠ [] ∨ c.state.terminalError ≠ none → c.state.accepting = false
  drained : terminals ≠ [] → c.state.values = [] ∧
    ∀ capacity, delivery = .fifo capacity → taken = c.accepted

/-- **The invariant of a channel.** -/
structure Inv (delivery : RtdDelivery) (c : Channel V E F) : Prop where
  stopped : c.state.stopping = true →
    c.state.accepting = false ∧ c.state.values = [] ∧ c.state.terminalError = none
  split   : ∃ taken terminals, c.Split delivery taken terminals
  small   : (∀ batch ∈ c.handed, batch.length ≤ 32) ∧ c.inFlight.length ≤ 32
  revoked : c.finished = true →
    c.publication.sink = false ∧ ∀ batch, c.turn ≠ some (.taken batch)

theorem new_inv (delivery : RtdDelivery) : (new : Channel V E F).Inv delivery where
  stopped := nofun
  split   := by
    refine ⟨[], [], rfl, ?_, Nat.le_refl _, ?_, ?_⟩
    · cases delivery with
      | fifo capacity => exact ⟨prefix_refl _, fun _ => rfl⟩
      | latest => exact ⟨List.Sublist.refl _, fun _ => rfl⟩
    · rintro (h | h) <;> exact absurd rfl h
    · exact fun h => absurd rfl h
  small   := ⟨by simp [new], Nat.zero_le _⟩
  revoked := nofun

theorem Inv.of_frame (h : c.Inv delivery) (hvalues : c'.state.values = c.state.values)
    (herror : c'.state.terminalError = c.state.terminalError)
    (haccepting : c'.state.accepting = c.state.accepting)
    (hstopping : c'.state.stopping = c.state.stopping) (hcompleted : c'.completed = c.completed)
    (haccepted : c'.accepted = c.accepted) (hhanded : c'.handed = c.handed)
    (hflight : c'.inFlight = c.inFlight)
    (hrevoked : c'.finished = true →
      c'.publication.sink = false ∧ ∀ batch, c'.turn ≠ some (.taken batch)) : c'.Inv delivery := by
  obtain ⟨taken, terminals, hsplit⟩ := h.split
  refine ⟨?_, ⟨taken, terminals, ?_, ?_, ?_, ?_, ?_⟩, ?_, hrevoked⟩
  · rw [hstopping, haccepting, hvalues, herror]
    exact h.stopped
  · rw [handedOver, hhanded, hflight]
    exact hsplit.parts
  · rw [hstopping, hvalues, haccepted]
    exact hsplit.follows
  · rw [herror, hcompleted]
    exact hsplit.once
  · rw [herror, haccepting]
    exact hsplit.ended
  · rw [hvalues, haccepted]
    exact hsplit.drained
  · rw [hhanded, hflight]
    exact h.small

theorem Inv.schedule (h : c.Inv delivery) : c.schedule.Inv delivery := by
  unfold Channel.schedule ChannelState.reserveSchedule
  split
  next state heq =>
    split at heq
    next => cases heq
    next =>
      cases heq
      exact h.of_frame rfl rfl rfl rfl rfl rfl rfl rfl h.revoked
  next => exact h

-- ---- Senders.

/-- One value is sent as a batch of one is. -/
theorem trySendPending_eq (grant : Bool) (value : V) (state : ChannelState V E) :
    state.trySendPending delivery valueBytes grant value =
      state.trySendPendingBatch delivery valueBytes grant value [] := by
  unfold ChannelState.trySendPending ChannelState.trySendPendingBatch
  cases delivery with
  | fifo capacity =>
    simp only [length_singleton, ge_iff_le, gt_iff_lt, Nat.lt_succ_iff]
    rfl
  | latest => rfl

theorem trySendPendingBatch_ok {grant wake : Bool} {first : V} {rest : List V}
    {state state' : ChannelState V E}
    (h : state.trySendPendingBatch delivery valueBytes grant first rest = (state', .ok, wake)) :
    state.accepting = true ∧ ∃ values buffered,
      Queued delivery state.values (first :: rest) values ∧
      state' = { state with values := values, buffered := buffered } := by
  unfold ChannelState.trySendPendingBatch at h
  split at h
  next => cases h
  next haccepting =>
    have haccepting : state.accepting = true := by simpa using haccepting
    refine ⟨haccepting, ?_⟩
    cases delivery with
    | fifo capacity =>
      simp only [] at h
      split at h
      next => cases h
      next =>
        split at h
        next => cases h
        next =>
          cases h
          exact ⟨_, _, rfl, rfl⟩
    | latest =>
      have hlast := getLast?_eq_some_getLast (cons_ne_nil first rest)
      simp only [] at h
      split at h
      next =>
        split at h
        next => cases h
        next =>
          cases h
          exact ⟨_, _, ⟨_, hlast, rfl⟩, rfl⟩
      next hempty =>
        have hempty : state.values = [] := not_not.mp hempty
        split at h
        next => cases h
        next =>
          cases h
          exact ⟨_, _, ⟨_, hlast, by rw [hempty]; rfl⟩, rfl⟩

theorem trySendPending_ok {grant wake : Bool} {value : V} {state state' : ChannelState V E}
    (h : state.trySendPending delivery valueBytes grant value = (state', .ok, wake)) :
    state.accepting = true ∧ ∃ values buffered, Queued delivery state.values [value] values ∧
      state' = { state with values := values, buffered := buffered } :=
  trySendPendingBatch_ok (trySendPending_eq .. ▸ h)

section

variable (h : c.Inv delivery)
include h

/-- **A successful send.** -/
theorem Inv.accept (haccepting : c.state.accepting = true)
    {values queued : List V} (buffered : BufferLedger)
    (hq : Queued delivery c.state.values values queued) :
    (c.accept { c.state with values := queued, buffered := buffered } values).Inv delivery := by
  obtain ⟨taken, terminals, hsplit⟩ := h.split
  have hstop : c.state.stopping = false := by
    cases hs : c.state.stopping with
    | false => rfl
    | true =>
      rw [(h.stopped hs).1] at haccepting
      cases haccepting
  -- The producer has not ended, so no terminal error is anywhere.
  have hopen : ¬ (terminals ≠ [] ∨ c.state.terminalError ≠ none) := by
    intro hend
    rw [hsplit.ended hend] at haccepting
    cases haccepting
  push Not at hopen
  have hfollows := hsplit.follows
  rw [hstop] at hfollows
  refine ⟨fun hs => ?_, ⟨taken, terminals, hsplit.parts, ?_, hsplit.once, hsplit.ended,
    fun hne => absurd hopen.1 hne⟩, h.small, h.revoked⟩
  · rw [show c.state.stopping = true from hs] at hstop
    cases hstop
  · show Follows delivery c.state.stopping taken queued (c.accepted ++ values)
    rw [hstop]
    exact hfollows.accept hq

theorem Inv.trySend (grant : Bool) (value : V) :
    (c.trySend delivery valueBytes grant value).Inv delivery := by
  unfold Channel.trySend
  split
  next state wake hsend =>
    obtain ⟨haccepting, values, buffered, hq, rfl⟩ := trySendPending_ok hsend
    have haccept := h.accept haccepting buffered hq
    simp only []
    split
    next => exact haccept.of_frame rfl rfl rfl rfl rfl rfl rfl rfl haccept.revoked
    next => exact haccept
  next => exact h

theorem Inv.trySendBatch (grant : Bool) (values : List V) :
    (c.trySendBatch delivery valueBytes grant values).Inv delivery := by
  cases values with
  | nil => exact h
  | cons first rest =>
    unfold Channel.trySendBatch
    simp only []
    split
    next state wasEmpty hsend =>
      obtain ⟨haccepting, queued, buffered, hq, rfl⟩ := trySendPendingBatch_ok hsend
      have haccept := h.accept haccepting buffered hq
      split
      next => exact haccept.schedule
      next => exact haccept
    next => exact h

-- ---- Turns.

theorem Inv.take (hturn : c.turn = some .locked) (hsink : c.publication.sink = true) : Inv delivery
      { c with
        state := (c.state.takeBatch valueBytes).1
        turn  := some (.taken (c.state.takeBatch valueBytes).2) } := by
  have hflight : c.inFlight = [] := by rw [inFlight, hturn]
  have hfinished : ¬ c.finished = true := by
    intro hf
    rw [(h.revoked hf).1] at hsink
    cases hsink
  rcases c.state.takeBatch_spec valueBytes with
    ⟨htake, -⟩ | ⟨buffered, values, terminals', hstop, htake, hvalues, hlen, hterminals⟩
  · rw [htake]
    refine h.of_frame rfl rfl rfl rfl rfl rfl rfl ?_ (fun hf => absurd hf hfinished)
    rw [hflight]
    rfl
  · obtain ⟨taken, terminals, hsplit⟩ := h.split
    rw [htake]
    have hparts : c.handed.flatten = taken.map .value ++ terminals.map .terminal := by
      have hold := hsplit.parts
      rwa [handedOver, hflight, append_nil] at hold
    have hfollows := hsplit.follows
    rw [hvalues] at hfollows
    have hmoved := hfollows.take hstop
    refine ⟨fun hs => ?_, ?_, ⟨h.small.1, ?_⟩, fun hf => absurd hf hfinished⟩
    · rw [show c.state.stopping = true from hs] at hstop
      cases hstop
    · by_cases hended : terminals = []
      -- Nothing has ended yet: the batch adds values, and perhaps the terminal error.
      · subst hended
        refine ⟨taken ++ values, terminals', ?_, hmoved, ?_, ?_, ?_⟩
        · show c.handed.flatten ++ (values.map .value ++ terminals'.map .terminal) = _
          rw [hparts, map_append, map_nil, append_nil, append_assoc]
        · have honce := hsplit.once
          rcases hterminals with ⟨rfl, hge⟩ | ⟨rfl, hlt⟩
          · rw [if_neg (Nat.not_lt.mpr hge)]
            exact honce
          · rw [if_pos hlt]
            exact (Nat.add_comm _ _).trans_le honce
        · intro hend
          refine hsplit.ended (.inr fun hnone => ?_)
          rcases hterminals with ⟨rfl, hge⟩ | ⟨rfl, hlt⟩
          · rw [if_neg (Nat.not_lt.mpr hge)] at hend
            exact hend.elim (absurd rfl) (absurd hnone)
          · rw [if_pos hlt, hnone] at hend
            exact hend.elim (absurd rfl) (absurd rfl)
        · intro hne
          have hlt : c.state.values.length < 32 := by
            rcases hterminals with ⟨rfl, -⟩ | ⟨-, hlt⟩
            · exact absurd rfl hne
            · exact hlt
          have hnil : c.state.values.drop 32 = [] := drop_eq_nil_of_le (Nat.le_of_lt hlt)
          refine ⟨hnil, fun capacity hfifo => ?_⟩
          subst hfifo
          rw [hmoved.2 hstop, hnil, append_nil]
      -- The terminal error is out, so there is nothing left to take.
      · obtain ⟨hqueue, hall⟩ := hsplit.drained hended
        have hnone : c.state.terminalError = none := by
          have honce := hsplit.once
          have hpos := length_pos_of_ne_nil hended
          have hle : (if c.completed then 1 else 0) ≤ 1 := by split <;> omega
          cases herror : c.state.terminalError with
          | none => rfl
          | some error =>
            rw [herror] at honce
            simp only [Option.toList_some, length_singleton] at honce
            omega
        have hempty : values = [] := by
          rw [hqueue] at hvalues
          exact (append_eq_nil_iff.mp hvalues.symm).1
        have hterm : terminals' = [] := by
          rcases hterminals with ⟨rfl, -⟩ | ⟨rfl, -⟩
          · rfl
          · rw [hnone]
            rfl
        subst hempty hterm
        refine ⟨taken, terminals, ?_, ?_, ?_, ?_, fun _ => ⟨?_, hall⟩⟩
        · show c.handed.flatten ++ (_ ++ _) = _
          rw [map_nil, map_nil, append_nil, append_nil]
          exact hparts
        · rw [append_nil] at hmoved
          exact hmoved
        · show terminals.length + (if _ then none else c.state.terminalError).toList.length ≤ _
          have honce := hsplit.once
          rw [hnone] at honce ⊢
          rw [ite_self]
          exact honce
        · exact fun _ => hsplit.ended (.inl hended)
        · show c.state.values.drop 32 = []
          rw [hqueue]
          rfl
    · show (values.map Delivered.value ++ terminals'.map Delivered.terminal).length ≤ 32
      rw [length_append, length_map, length_map]
      rcases hterminals with ⟨rfl, -⟩ | ⟨rfl, hlt⟩
      · exact hlen
      · have hvalues' : values.length ≤ c.state.values.length := by
          rw [hvalues, length_append]
          exact Nat.le_add_right _ _
        have hone : c.state.terminalError.toList.length ≤ 1 := by
          cases c.state.terminalError <;> simp
        omega

theorem Inv.close : Inv delivery { c with state := c.state.close } := by
  obtain ⟨taken, terminals, hsplit⟩ := h.split
  refine ⟨fun _ => ⟨rfl, rfl, rfl⟩, ⟨taken, terminals, hsplit.parts, hsplit.follows.close, ?_,
    fun _ => rfl, fun hne => ⟨rfl, (hsplit.drained hne).2⟩⟩, h.small, h.revoked⟩
  exact (Nat.le_add_right _ _).trans hsplit.once

theorem Inv.setTurn (stage : Option (TurnStage V E))
    (hflight : c.inFlight = []) (hstage : ∀ batch, stage ≠ some (.taken batch)) :
    Inv delivery { c with turn := stage } := by
  refine h.of_frame rfl rfl rfl rfl rfl rfl rfl ?_ fun hf => ⟨(h.revoked hf).1, hstage⟩
  rw [hflight, inFlight]
  split
  next batch hturn => exact absurd hturn (hstage batch)
  next => rfl

theorem Inv.stepTurn {stage : TurnStage V E} (hturn : c.turn = some stage)
    (hstep : c.stepTurn valueBytes stage = some c') : c'.Inv delivery := by
  unfold Channel.stepTurn at hstep
  cases stage with
  | locked =>
    have hflight : c.inFlight = [] := by rw [inFlight, hturn]
    simp only [] at hstep
    split at hstep
    next hsink =>
      cases hstep
      exact h.take hturn hsink
    next =>
      cases hstep
      exact h.setTurn _ hflight (fun _ => nofun)
  | taken batch =>
    cases hstep
    have hflight : c.inFlight = batch := by rw [inFlight, hturn]
    obtain ⟨taken, terminals, hsplit⟩ := h.split
    refine ⟨h.stopped, ⟨taken, terminals, ?_, hsplit.follows, hsplit.once, hsplit.ended,
      hsplit.drained⟩, ⟨fun b hb => ?_, Nat.zero_le _⟩,
      fun hf => ⟨(h.revoked hf).1, fun _ => nofun⟩⟩
    · rw [← hsplit.parts, handedOver, handedOver, hflight]
      show (c.handed ++ [batch]).flatten ++ [] = _
      simp
    · rcases mem_append.mp hb with hb | hb
      · exact h.small.1 b hb
      · rw [mem_singleton.mp hb, ← hflight]
        exact h.small.2
  | publishing => cases hstep
  | failed =>
    cases hstep
    have hflight : c.inFlight = [] := by rw [inFlight, hturn]
    exact (h.setTurn (some .released) hflight (fun _ => nofun)).close
  | released =>
    cases hstep
    have hflight : c.inFlight = [] := by rw [inFlight, hturn]
    have hnone := h.setTurn none hflight (fun _ => nofun)
    exact Inv.schedule (hnone.of_frame rfl rfl rfl rfl rfl rfl rfl rfl hnone.revoked)

theorem Inv.complete (hfirst : c.completed = false) (failed : Bool)
    (policy : RtdProducerErrorPolicy E) (waking : Nat) :
    Inv delivery
      { c with
        state     := c.state.producerCompleted failed policy
        waking    := waking
        completed := true } := by
  obtain ⟨taken, terminals, hsplit⟩ := h.split
  -- Before, there was no terminal error.
  have honce := hsplit.once
  rw [hfirst, if_neg Bool.false_ne_true] at honce
  have hnil : terminals = [] := length_eq_zero_iff.mp (by omega)
  subst hnil
  have hspec : ∃ error, c.state.producerCompleted failed policy =
      { c.state with accepting := false, terminalError := error } ∧
      (c.state.stopping = true → error = none) := by
    have hsame : c.state.stopping = true → c.state.terminalError = none :=
      fun hs => (h.stopped hs).2.2
    cases policy with
    | retainLastValue => exact ⟨c.state.terminalError, rfl, hsame⟩
    | publishError error =>
      simp only [ChannelState.producerCompleted]
      split
      next hpublish =>
        refine ⟨some error, rfl, fun hs => ?_⟩
        rw [hs] at hpublish
        simp at hpublish
      next => exact ⟨c.state.terminalError, rfl, hsame⟩
  obtain ⟨error, hstate, hnone⟩ := hspec
  rw [hstate]
  refine ⟨fun hs => ⟨rfl, (h.stopped hs).2.1, hnone hs⟩, ⟨taken, [], hsplit.parts, hsplit.follows, ?_,
    fun _ => rfl, fun hne => absurd rfl hne⟩, h.small, h.revoked⟩
  show 0 + error.toList.length ≤ 1
  cases error <;> simp

theorem Inv.step {action : Action V E F}
    (hstep : c.step delivery valueBytes action = some c') : c'.Inv delivery := by
  cases action with
  | send grant value =>
    cases hstep
    exact h.trySend grant value
  | sendBatch grant values =>
    cases hstep
    exact h.trySendBatch grant values
  | schedule =>
    simp only [Channel.step] at hstep
    split at hstep
    next =>
      cases hstep
      exact Inv.schedule (h.of_frame rfl rfl rfl rfl rfl rfl rfl rfl h.revoked)
    next => cases hstep
  | beginTurn =>
    simp only [Channel.step] at hstep
    split at hstep
    next hready =>
      cases hstep
      have hturn : c.turn = none := Option.isNone_iff_eq_none.mp hready.2
      have hflight : c.inFlight = [] := by rw [inFlight, hturn]
      have hlocked := h.setTurn (some .locked) hflight (fun _ => nofun)
      exact hlocked.of_frame rfl rfl rfl rfl rfl rfl rfl rfl hlocked.revoked
    next => cases hstep
  | turn =>
    simp only [Channel.step] at hstep
    split at hstep
    next stage hturn => exact h.stepTurn hturn hstep
    next => cases hstep
  | sinkReturns result =>
    simp only [Channel.step] at hstep
    split at hstep
    next hturn =>
      have hflight : c.inFlight = [] := by rw [inFlight, hturn]
      split at hstep
      next =>
        cases hstep
        exact h.setTurn _ hflight (fun _ => nofun)
      next error =>
        cases hstep
        have hfailed := h.setTurn (some .failed) hflight (fun _ => nofun)
        exact hfailed.of_frame rfl rfl rfl rfl rfl rfl rfl rfl
          fun hf => ⟨rfl, (hfailed.revoked hf).2⟩
    next => cases hstep
  | complete failed policy =>
    simp only [Channel.step] at hstep
    split at hstep
    next => cases hstep
    next hfirst =>
      cases hstep
      exact h.complete (Bool.eq_false_iff.mpr hfirst) failed policy _
  | close =>
    cases hstep
    exact h.close
  | finishClose =>
    cases hstep
    exact h.close.of_frame rfl rfl rfl rfl rfl rfl rfl rfl h.revoked
  | finishRevoke =>
    simp only [Channel.step] at hstep
    split at hstep
    next hlock =>
      cases hstep
      refine h.of_frame rfl rfl rfl rfl rfl rfl rfl rfl fun _ => ⟨rfl, fun batch hturn => ?_⟩
      have hfree := hlock.2
      rw [unlocked, show c.turn = some (.taken batch) from hturn] at hfree
      cases hfree
    next => cases hstep

end

-- ---- The order of delivery.

theorem shape_of_front {l : List (Delivered V E)} {taken : List V} {terminals : List E}
    (h : l <+: taken.map .value ++ terminals.map .terminal) :
    ∃ taken' terminals', l = taken'.map .value ++ terminals'.map .terminal ∧ taken' <+: taken ∧
      terminals'.length ≤ terminals.length ∧ (terminals' ≠ [] → taken' = taken) := by
  have hl := prefix_iff_eq_take.mp h
  refine ⟨taken.take l.length, terminals.take (l.length - taken.length), ?_, take_prefix _ _,
    length_take_le' _ _, fun hne => ?_⟩
  · rw [take_append, length_map, ← map_take, ← map_take] at hl
    exact hl
  · refine take_of_length_le (Nat.le_of_not_lt fun hlt => hne ?_)
    rw [Nat.sub_eq_zero_of_le (Nat.le_of_lt hlt), take_zero]

theorem Inv.revoked_step {action : Action V E F} (h : c.Inv delivery) (hf : c.finished = true)
    (hstep : c.step delivery valueBytes action = some c') : c'.handed = c.handed := by
  have hschedule : ∀ c : Channel V E F, c.schedule.handed = c.handed := by
    intro c
    unfold Channel.schedule
    split <;> rfl
  cases action with
  | send grant value =>
    cases hstep
    unfold Channel.trySend
    split
    next =>
      simp only []
      split <;> rfl
    next => rfl
  | sendBatch grant values =>
    cases hstep
    cases values with
    | nil => rfl
    | cons first rest =>
      simp only [Channel.trySendBatch]
      split
      next =>
        split
        next => exact hschedule _
        next => rfl
      next => rfl
  | schedule =>
    simp only [Channel.step] at hstep
    split at hstep
    next =>
      cases hstep
      exact hschedule _
    next => cases hstep
  | turn =>
    simp only [Channel.step] at hstep
    split at hstep
    next stage hturn =>
      unfold Channel.stepTurn at hstep
      cases stage with
      | locked =>
        simp only [] at hstep
        split at hstep <;> cases hstep <;> rfl
      | taken batch => exact absurd hturn ((h.revoked hf).2 batch)
      | publishing => cases hstep
      | failed =>
        cases hstep
        rfl
      | released =>
        cases hstep
        exact hschedule _
    next => cases hstep
  | sinkReturns result =>
    simp only [Channel.step] at hstep
    split at hstep
    next => split at hstep <;> cases hstep <;> rfl
    next => cases hstep
  | close | finishClose =>
    cases hstep
    rfl
  | beginTurn | complete failed policy | finishRevoke =>
    simp only [Channel.step] at hstep
    split at hstep <;> cases hstep
    rfl

/-- **The order of delivery** in every state a channel can reach. A value counts as
handed over once the publisher's turn has taken it out of the queue for the sink.

* In FIFO mode the batches the sink got are, one after the other, a prefix of the
  accepted values, followed by at most one terminal error, and by that one only after
  every accepted value. While the channel is not stopping, the accepted values are
  those handed over and then those queued.
* In latest mode the values handed over are a subsequence of the accepted ones, and
  while the channel is not stopping the last accepted one is the last one queued, or
  nothing is queued and it is the last one handed over.
* No batch has more than 32 values.
* After a `finish` nothing is handed to the sink. -/
theorem channel_delivery (h : Reachable (step delivery valueBytes) (new : Channel V E F) c) :
    (∀ capacity, delivery = .fifo capacity → (∃ (taken : List V) (terminals : List E),
        c.handed.flatten = taken.map .value ++ terminals.map .terminal ∧
        taken <+: c.accepted ∧ terminals.length ≤ 1 ∧ (terminals ≠ [] → taken = c.accepted)) ∧
      (c.state.stopping = false → ∃ (taken : List V) (terminals : List E),
        c.handedOver = taken.map .value ++ terminals.map .terminal ∧
        c.accepted = taken ++ c.state.values)) ∧
    (delivery = .latest → ∃ (taken : List V) (terminals : List E),
      c.handedOver = taken.map .value ++ terminals.map .terminal ∧ taken.Sublist c.accepted ∧
      (c.state.stopping = false → ∀ last, c.accepted.getLast? = some last →
        c.state.values.getLast? = some last ∨
          c.state.values = [] ∧ taken.getLast? = some last)) ∧
    (∀ batch ∈ c.handed, batch.length ≤ 32) ∧
    (c.finished = true → ∀ action c', step delivery valueBytes c action = some c' →
      c'.handed = c.handed) := by
  have hinv : c.Inv delivery :=
    Reachable.invariant (fun _ _ _ hi hs => hi.step hs) (new_inv delivery) h
  obtain ⟨taken, terminals, hsplit⟩ := hinv.split
  have honce : terminals.length ≤ 1 := by
    have hle : (if c.completed then 1 else 0) ≤ 1 := by split <;> omega
    exact ((Nat.le_add_right _ _).trans hsplit.once).trans hle
  refine ⟨fun capacity hfifo => ⟨?_, fun hstop => ⟨taken, terminals, hsplit.parts, ?_⟩⟩,
    fun hlatest => ⟨taken, terminals, hsplit.parts, ?_, fun hstop last hlast => ?_⟩,
    hinv.small.1, fun hf action c' hstep => hinv.revoked_step hf hstep⟩
  · have hfront : c.handed.flatten <+: taken.map .value ++ terminals.map .terminal := by
      rw [← hsplit.parts]
      exact prefix_append _ _
    obtain ⟨taken', terminals', hshape, htaken, hlen, hwhole⟩ := shape_of_front hfront
    have hfollows := hsplit.follows
    rw [hfifo] at hfollows
    refine ⟨taken', terminals', hshape, htaken.trans hfollows.1, hlen.trans honce, fun hne => ?_⟩
    have hsome : terminals ≠ [] := by
      rintro rfl
      exact hne (length_eq_zero_iff.mp (Nat.le_zero.mp hlen))
    rw [hwhole hne]
    exact (hsplit.drained hsome).2 capacity hfifo
  · have hfollows := hsplit.follows
    rw [hfifo] at hfollows
    exact hfollows.2 hstop
  · have hfollows := hsplit.follows
    rw [hlatest] at hfollows
    exact (sublist_append_left _ _).trans hfollows.1
  · have hfollows := hsplit.follows
    rw [hlatest] at hfollows
    have hsame := (hfollows.2 hstop).trans hlast
    rw [getLast?_append] at hsame
    cases hqueue : c.state.values.getLast? with
    | some v =>
      rw [hqueue] at hsame
      exact .inl hsame
    | none =>
      rw [hqueue] at hsame
      exact .inr ⟨getLast?_eq_none_iff.mp hqueue, hsame⟩

/-- A full turn, a second one with the terminal error, and a `finish`. -/
def drainRun : List (Action Nat String String) :=
  [.send true 1, .schedule, .sendBatch true [2, 3], .complete true (.publishError "#N/A"),
    .schedule, .beginTurn, .turn, .turn, .sinkReturns none, .turn, .finishClose, .finishRevoke]

theorem channel_delivery_drainRun : ∃ c : Channel Nat String String,
      run (step (.fifo ⟨4, by decide⟩) fun _ => 1) new drainRun = some c ∧
      c.handed.flatten = [.value 1, .value 2, .value 3, .terminal "#N/A"] ∧
      c.accepted = [1, 2, 3] ∧ c.finished = true ∧ (∀ batch ∈ c.handed, batch.length ≤ 32) ∧
      ∃ (taken : List Nat) (terminals : List String),
        c.handed.flatten = taken.map .value ++ terminals.map .terminal ∧
        taken <+: c.accepted ∧ terminals.length ≤ 1 := by
  have hrun : ((run (step (.fifo ⟨4, by decide⟩) fun _ => 1)
      (new : Channel Nat String String) drainRun).map fun c =>
        (c.handed.flatten, c.accepted, c.finished)) =
      some ([.value 1, .value 2, .value 3, .terminal "#N/A"], [1, 2, 3], true) := by
    decide +kernel
  obtain ⟨c, hc, hval⟩ := Option.map_eq_some_iff.mp hrun
  simp only [Prod.mk.injEq] at hval
  obtain ⟨hhanded, haccepted, hfinished⟩ := hval
  obtain ⟨hfifo, -, hsmall, -⟩ := channel_delivery ⟨drainRun, hc⟩
  obtain ⟨⟨taken, terminals, hshape, hfront, honce, -⟩, -⟩ := hfifo _ rfl
  exact ⟨c, hc, hhanded, haccepted, hfinished, hsmall, taken, terminals, hshape, hfront, honce⟩

/-- **A closed channel discards.** In latest mode the last accepted value is neither
queued nor handed over once the channel was closed before its turn. -/
theorem latest_close_discards :
    ∃ c : Channel Nat Unit Unit, Reachable (step .latest fun _ => 1) new c ∧
      c.accepted.getLast? = some 7 ∧ 7 ∉ c.state.values ∧ .value 7 ∉ c.handedOver := by
  have hrun : ((run (step .latest fun _ => 1) (new : Channel Nat Unit Unit)
      [.send true 7, .close]).map fun c => (c.accepted, c.state.values, c.handedOver)) =
      some ([7], [], []) := by
    decide +kernel
  obtain ⟨c, hc, hval⟩ := Option.map_eq_some_iff.mp hrun
  simp only [Prod.mk.injEq] at hval
  obtain ⟨haccepted, hqueue, hhanded⟩ := hval
  refine ⟨c, ⟨_, hc⟩, ?_, ?_, ?_⟩
  · rw [haccepted]
    rfl
  · rw [hqueue]
    exact not_mem_nil
  · rw [hhanded]
    exact not_mem_nil

end Channel

end Xlfn.Subscription
