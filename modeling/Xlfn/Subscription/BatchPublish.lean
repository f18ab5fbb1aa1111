import Xlfn.Subscription.Lifecycle

/-!
# Xlfn — batch publication

`PublishCore::publish` and `PublishCore::publish_batch` as one publishing thread runs
them. A batch enters the server once, keeps the shard locked over as many values as it
can, and gives the lock up where the host has to be notified or where a refresh has
rotated the epoch; `publish` does all of this anew for every value.

The host is a parameter: its admission, its notifier and whatever other threads do to the
server between two values. A notifier call may refresh, publish or disconnect; it may
return, fail or panic. `host.notify` is reached through the retry loop of
`NotificationAttempt::drive`, whose number of calls the host decides; it gets fuel, and
`none` is the loop that has not ended.
-/

namespace Xlfn.Subscription

open Xlfn.Lib Xlfn.Kernel

-- ---- The server and its host.

/-- An `OperationGate` as one thread meets it. -/
structure OperationGate where
  isSealed : Bool
  active   : Nat

def OperationGate.enter (gate : OperationGate) : Option OperationGate :=
  if gate.isSealed then none else some { gate with active := gate.active + 1 }

/-- The drop of an `OperationGuard`. -/
def OperationGate.leave (gate : OperationGate) : OperationGate :=
  { gate with active := gate.active - 1 }

theorem OperationGate.enter_some {gate gate' : OperationGate} (h : gate.enter = some gate') :
    gate.isSealed = false ∧ gate'.isSealed = false ∧ 0 < gate'.active ∧ gate'.leave = gate := by
  unfold OperationGate.enter at h
  split at h
  · cases h
  · next hsealed =>
    cases h
    have hopen : gate.isSealed = false := by simpa using hsealed
    exact ⟨hopen, hopen, Nat.succ_pos _, rfl⟩

theorem OperationGate.enter_leave {gate : OperationGate} (hopen : gate.isSealed = false)
    (hactive : 0 < gate.active) : gate.leave.enter = some gate := by
  have hback : gate.active - 1 + 1 = gate.active := by omega
  unfold OperationGate.enter OperationGate.leave
  rw [if_neg (by simp [hopen]), hback]

/-- The publish core, its two gates and the state `σ` of the host around it. -/
structure PublishServer (V N σ : Type) where
  core        : PublishCore V N
  runtimeGate : OperationGate
  serverGate  : OperationGate
  host        : σ

/-- How a call of the host's notifier ends. -/
inductive NotifyReply where
  | accepted
  | failed
  | panicked
deriving DecidableEq

/-- The `SubscriptionHost` of a server. `enter` is what `enter_with` does besides running
its closure, `none` where it rejects the operation; `leave` drops the admission guard.
`meanwhile` is what other threads do to the server while the publisher goes from one value
to the next. -/
structure SubscriptionHost (V N σ : Type) where
  enter     : σ → Option σ
  leave     : σ → σ
  notify    : N → PublishServer V N σ → PublishServer V N σ × NotifyReply
  meanwhile : PublishServer V N σ → PublishServer V N σ

inductive PublishEvent (N : Type) where
  /-- The host's notifier is called. -/
  | notified (attempt : NotificationAttempt N)
  /-- A value is done with. -/
  | published

/-- The server and, as history, what the publisher has done so far. -/
structure PublishState (V N σ : Type) where
  server : PublishServer V N σ
  events : List (PublishEvent N)

/-- Why a publication ends early: an error it returns, or a panic of the notifier it
passes on. -/
inductive PublishStop where
  | failed (error : XllError)
  | unwound
deriving DecidableEq

/-- The end of a publication; `none` is a notification loop that has not ended. -/
abbrev PublishRun (V N σ : Type) := Option (PublishState V N σ × Except PublishStop Unit)

variable {V N σ : Type}

namespace PublishState

def setCore (s : PublishState V N σ) (core : PublishCore V N) : PublishState V N σ :=
  { s with server := { s.server with core } }

/-- The next value of the same publication, where the last one did not end it. -/
def andThen (run : PublishRun V N σ) (next : PublishState V N σ → PublishRun V N σ) :
    PublishRun V N σ :=
  run.bind fun (s, result) =>
    match result with
    | .ok () => next s
    | .error stop => some (s, .error stop)

/-- Drop a guard on every way out. -/
def dropping (run : PublishRun V N σ) (drop : PublishState V N σ → PublishState V N σ) :
    PublishRun V N σ :=
  run.map fun (s, result) => (drop s, result)

end PublishState

open PublishState

namespace SubscriptionHost

variable (host : SubscriptionHost V N σ)

-- ---- Admission and notification.

/-- `enter_operation`: the host's admission, then the runtime gate, then the gate of the
server. Every refusal is `Closing`, and the guards taken before it are dropped. -/
def enterOperation (s : PublishState V N σ) : Except (PublishState V N σ) (PublishState V N σ) :=
  match host.enter s.server.host with
  | none => .error s
  | some entered =>
    let refused : Except (PublishState V N σ) (PublishState V N σ) :=
      .error { s with server := { s.server with host := host.leave entered } }
    match s.server.runtimeGate.enter with
    | none => refused
    | some runtimeGate =>
      match s.server.serverGate.enter with
      | none => refused
      | some serverGate =>
        .ok { s with server := { s.server with host := entered, runtimeGate, serverGate } }

/-- The drop of a `ScopedPublishOperation`. -/
def leaveOperation (s : PublishState V N σ) : PublishState V N σ :=
  { s with server := { s.server with
      host        := host.leave s.server.host
      serverGate  := s.server.serverGate.leave
      runtimeGate := s.server.runtimeGate.leave } }

/-- `NotificationAttempt::drive`. -/
def drive : Nat → NotificationAttempt N → PublishState V N σ → PublishRun V N σ
  | 0, _, _ => none
  | fuel + 1, attempt, s =>
    let (server, reply) := host.notify attempt.notifier s.server
    let s := { server, events := s.events ++ [.notified attempt] }
    if reply = .panicked then
      some (s, .error .unwound)
    else
      let (core, completion) :=
        s.server.core.finishNotificationAttempt attempt (reply = .accepted)
      match completion with
      | .finished | .failed => some (s.setCore core, .ok ())
      | .retry next => drive fuel next (s.setCore core)

/-- `if let Some(attempt) = self.prepare_notification_for_known_update(epoch)?
{ attempt.drive() }`. -/
def announce (fuel epoch : Nat) (s : PublishState V N σ) : PublishRun V N σ :=
  let (core, result) := s.server.core.prepareNotificationForKnownUpdate epoch
  match result with
  | .error error => some (s.setCore core, .error (.failed error))
  | .ok none => some (s.setCore core, .ok ())
  | .ok (some attempt) => host.drive fuel attempt (s.setCore core)

/-- A value is done with, and other threads run. -/
def settle (s : PublishState V N σ) : PublishState V N σ where
  server := host.meanwhile s.server
  events := s.events ++ [.published]

-- ---- One value at a time.

section

variable [BEq V] (fuel : Nat) (topicId : TopicId) (generation : ConnectionGeneration)

/-- `publish` between its admission and the drop of its guards. Nothing runs between the
load of the epoch and its check under the shard lock, so the loop is left at once. -/
def publishAdmitted (value : V) (s : PublishState V N σ) : PublishRun V N σ :=
  match s.server.core.ensureOpen with
  | .error error => some (s, .error (.failed error))
  | .ok () =>
    let epoch := s.server.core.publishEpoch
    let (core, outcome) :=
      s.server.core.commitValue (BufferIndex.fromEpoch epoch) topicId generation value
    match outcome.result with
    | .error error => some (s.setCore core, .error (.failed error))
    | .ok committed =>
      andThen
        (if committed then host.announce fuel epoch (s.setCore core)
          else some (s.setCore core, .ok ()))
        fun s => some (host.settle s, .ok ())

/-- `PublishCore::publish`. -/
def publish (value : V) (s : PublishState V N σ) : PublishRun V N σ :=
  match host.enterOperation s with
  | .error s => some (s, .error (.failed .closing))
  | .ok s => dropping (host.publishAdmitted fuel topicId generation value s) host.leaveOperation

/-- The values one by one, up to the first that fails. -/
def publishAll : List V → PublishState V N σ → PublishRun V N σ
  | [], s => some (s, .ok ())
  | value :: values, s =>
    andThen (host.publish fuel topicId generation value s) (publishAll values)

-- ---- A batch.

variable (stopping : PublishServer V N σ → Bool)

/-- The head of the outer loop of `publish_batch`: check the lifecycle, load the epoch and
lock the shard. The inner loop holds the shard already, at the epoch it was locked with. -/
def lockShard (s : PublishState V N σ) : Option Nat → Except XllError Nat
  | some epoch => .ok epoch
  | none =>
    match s.server.core.ensureOpen with
    | .error error => .error error
    | .ok () => .ok s.server.core.publishEpoch

/-- Both loops of `publish_batch`. `held` is the epoch the shard is locked with; it is
given up to notify and where the epoch has changed. -/
def publishValues : List V → Option Nat → PublishState V N σ → PublishRun V N σ
  | [], _, s => some (s, .ok ())
  | value :: values, held, s =>
    match lockShard s held with
    | .error error => some (s, .error (.failed error))
    | .ok epoch =>
      if stopping s.server then
        some (s, .ok ())
      else
        match s.server.core.ensureOpen with
        | .error error => some (s, .error (.failed error))
        | .ok () =>
          let (core, outcome) :=
            s.server.core.commitValue (BufferIndex.fromEpoch epoch) topicId generation value
          match outcome.result with
          | .error error => some (s.setCore core, .error (.failed error))
          | .ok committed =>
            if committed ∧ core.notifiedEpoch ≠ epoch then
              andThen (host.announce fuel epoch (s.setCore core)) fun s =>
                publishValues values none (host.settle s)
            else
              let s := host.settle (s.setCore core)
              let held := if s.server.core.publishEpoch ≠ epoch then none else some epoch
              publishValues values held s

/-- `PublishCore::publish_batch`. -/
def publishBatch (values : List V) (s : PublishState V N σ) : PublishRun V N σ :=
  if values.isEmpty ∨ stopping s.server then
    some (s, .ok ())
  else
    match host.enterOperation s with
    | .error s => some (s, .error (.failed .closing))
    | .ok s =>
      dropping (host.publishValues fuel topicId generation stopping values none s)
        host.leaveOperation

end

-- ---- What the host keeps.

/-- The guards of the running operation are held, and a server that is open admits further
operations. -/
structure Admitted (server : PublishServer V N σ) : Prop where
  runtimeGate : 0 < server.runtimeGate.active
  serverGate  : 0 < server.serverGate.active
  reentrant   : server.core.lifecycle = .opened →
    server.runtimeGate.isSealed = false ∧ server.serverGate.isSealed = false ∧
      host.enter (host.leave server.host) = some server.host

/-- A rejected or finished operation leaves the host as it was, and neither a notifier
call nor another thread releases the guards of the operation or closes admission on a
server that is still open. -/
structure Lawful : Prop where
  leave_enter : ∀ idle entered, host.enter idle = some entered → host.leave entered = idle
  notify      : ∀ notifier server, host.Admitted server →
    host.Admitted (host.notify notifier server).1
  meanwhile   : ∀ server, host.Admitted server → host.Admitted (host.meanwhile server)

-- ---- Entering and leaving an operation.

section

variable {host : SubscriptionHost V N σ} {s s' : PublishState V N σ}

theorem enterOperation_error (hlaw : host.Lawful) (h : host.enterOperation s = .error s') :
    s' = s := by
  unfold enterOperation at h
  split at h
  · cases h
    rfl
  · next entered henter =>
    have hback := hlaw.leave_enter _ _ henter
    dsimp only at h
    rw [hback] at h
    split at h
    · cases h
      rfl
    · split at h
      · cases h
        rfl
      · cases h

theorem Admitted.of_enter (hlaw : host.Lawful) (h : host.enterOperation s = .ok s') :
    host.Admitted s'.server := by
  unfold enterOperation at h
  split at h
  · cases h
  · next entered henter =>
    dsimp only at h
    split at h
    · cases h
    · next runtimeGate hruntime =>
      split at h
      · cases h
      · next serverGate hserver =>
        cases h
        obtain ⟨-, hopen₁, hactive₁, -⟩ := OperationGate.enter_some hruntime
        obtain ⟨-, hopen₂, hactive₂, -⟩ := OperationGate.enter_some hserver
        refine ⟨hactive₁, hactive₂, fun _ => ⟨hopen₁, hopen₂, ?_⟩⟩
        dsimp only
        rw [hlaw.leave_enter _ _ henter]
        exact henter

theorem leaveOperation_of_enter (hlaw : host.Lawful) (h : host.enterOperation s = .ok s') :
    host.leaveOperation s' = s := by
  unfold enterOperation at h
  split at h
  · cases h
  · next entered henter =>
    dsimp only at h
    split at h
    · cases h
    · next runtimeGate hruntime =>
      split at h
      · cases h
      · next serverGate hserver =>
        cases h
        obtain ⟨-, -, -, hback₁⟩ := OperationGate.enter_some hruntime
        obtain ⟨-, -, -, hback₂⟩ := OperationGate.enter_some hserver
        simp only [leaveOperation, hback₁, hback₂, hlaw.leave_enter _ _ henter]

theorem core_of_enter (h : host.enterOperation s = .ok s') : s'.server.core = s.server.core := by
  unfold enterOperation at h
  repeat' split at h
  all_goals cases h
  rfl

/-- An operation that ends on an open server can be entered again at once, and finds the
state it left. -/
theorem enterOperation_leaveOperation (h : host.Admitted s.server)
    (hopen : s.server.core.lifecycle = .opened) :
    host.enterOperation (host.leaveOperation s) = .ok s := by
  obtain ⟨hopen₁, hopen₂, hhost⟩ := h.reentrant hopen
  have hruntime := OperationGate.enter_leave hopen₁ h.runtimeGate
  have hserver := OperationGate.enter_leave hopen₂ h.serverGate
  simp only [enterOperation, leaveOperation, hhost, hruntime, hserver]

-- ---- The operation stays admitted.

variable {core : PublishCore V N}

theorem lifecycle_of_ensureOpen (h : core.ensureOpen = .ok ()) : core.lifecycle = .opened := by
  unfold PublishCore.ensureOpen at h
  split at h
  · assumption
  · cases h

theorem error_of_ensureOpen {error : XllError} (h : core.ensureOpen = .error error) :
    error = .closing := by
  unfold PublishCore.ensureOpen at h
  split at h
  · cases h
  · cases h
    rfl

theorem Admitted.withCore (h : host.Admitted s.server)
    (hlifecycle : core.lifecycle = s.server.core.lifecycle) :
    host.Admitted (s.setCore core).server :=
  ⟨h.runtimeGate, h.serverGate, fun hopen => h.reentrant (hlifecycle.symm.trans hopen)⟩

theorem Admitted.drive (hlaw : host.Lawful) {result : Except PublishStop Unit} :
    ∀ {fuel : Nat} {attempt : NotificationAttempt N} {s : PublishState V N σ},
      host.Admitted s.server → host.drive fuel attempt s = some (s', result) →
        host.Admitted s'.server := by
  intro fuel
  induction fuel with
  | zero =>
    intro attempt s _ hrun
    cases hrun
  | succ fuel ih =>
    intro attempt s h hrun
    have hcalled := hlaw.notify attempt.notifier s.server h
    rw [SubscriptionHost.drive] at hrun
    generalize host.notify attempt.notifier s.server = called at hrun hcalled
    obtain ⟨server, reply⟩ := called
    dsimp only at hrun hcalled
    split at hrun
    · cases hrun
      exact hcalled
    · have hfinished := (server.core.finishNotificationAttempt_spec attempt
        (reply = .accepted)).1.data.lifecycle
      have hset : host.Admitted (PublishState.setCore ⟨server, s.events ++ [.notified attempt]⟩
          (server.core.finishNotificationAttempt attempt (reply = .accepted)).1).server :=
        Admitted.withCore hcalled hfinished
      split at hrun
      · cases hrun
        exact hset
      · cases hrun
        exact hset
      · exact ih hset hrun

theorem Admitted.announce (hlaw : host.Lawful) {fuel epoch : Nat}
    {result : Except PublishStop Unit} (h : host.Admitted s.server)
    (hrun : host.announce fuel epoch s = some (s', result)) : host.Admitted s'.server := by
  have hlifecycle : (s.server.core.prepareNotificationForKnownUpdate epoch).1.lifecycle =
      s.server.core.lifecycle := by
    unfold PublishCore.prepareNotificationForKnownUpdate
    split
    · rfl
    · exact (s.server.core.prepareNotification_rewritten true).data.lifecycle
  have hset := h.withCore hlifecycle
  unfold SubscriptionHost.announce at hrun
  generalize s.server.core.prepareNotificationForKnownUpdate epoch = prepared at hrun hset
  obtain ⟨core, result⟩ := prepared
  dsimp only at hrun hset
  split at hrun
  · cases hrun
    exact hset
  · cases hrun
    exact hset
  · exact Admitted.drive hlaw hset hrun

theorem announce_of_notified {fuel epoch : Nat} (h : s.server.core.notifiedEpoch = epoch) :
    host.announce fuel epoch s = some (s, .ok ()) := by
  unfold SubscriptionHost.announce PublishCore.prepareNotificationForKnownUpdate
  rw [if_pos h]
  rfl

end

-- ---- A batch refines its values.

section

variable {host : SubscriptionHost V N σ} {s s' : PublishState V N σ}

/-- Dropping the guards at the end of two stages is dropping them after the first and
running the second without them, where the two second stages agree. -/
theorem dropping_andThen {run : PublishRun V N σ}
    {next later : PublishState V N σ → PublishRun V N σ}
    (hnext : ∀ s', run = some (s', .ok ()) →
      dropping (next s') host.leaveOperation = later (host.leaveOperation s')) :
    dropping (andThen run next) host.leaveOperation =
      andThen (dropping run host.leaveOperation) later := by
  rcases run with _ | ⟨s', result⟩
  · rfl
  · cases result with
    | error stop => rfl
    | ok done => exact hnext s' rfl

theorem andThen_settle (run : PublishRun V N σ) (next : PublishState V N σ → PublishRun V N σ) :
    andThen (andThen run fun s => some (host.settle s, .ok ())) next =
      andThen run fun s => next (host.settle s) := by
  rcases run with _ | ⟨s', result⟩
  · rfl
  · cases result <;> rfl

/-- The same with the end of a value between the two stages, for the states that keep the
operation admitted. -/
theorem dropping_settle (hlaw : host.Lawful) (run : PublishRun V N σ)
    (next : PublishState V N σ → PublishRun V N σ) {later : PublishState V N σ → PublishRun V N σ}
    (hrun : ∀ s', run = some (s', .ok ()) → host.Admitted s'.server)
    (hnext : ∀ s', host.Admitted s'.server →
      dropping (next s') host.leaveOperation = later (host.leaveOperation s')) :
    dropping (andThen run fun s => next (host.settle s)) host.leaveOperation =
      andThen (dropping (andThen run fun s => some (host.settle s, .ok ()))
        host.leaveOperation) later := by
  rw [← andThen_settle run next]
  refine dropping_andThen fun s' hs' => hnext s' ?_
  rcases run with _ | ⟨s₁, _ | _⟩
  · cases hs'
  · cases hs'
  · cases hs'
    exact hlaw.meanwhile _ (hrun s₁ rfl)

theorem lockShard_held {held : Option Nat} (hopen : s.server.core.ensureOpen = .ok ())
    (hheld : ∀ epoch ∈ held, s.server.core.publishEpoch = epoch) :
    lockShard s held = .ok s.server.core.publishEpoch := by
  cases held with
  | none =>
    unfold lockShard
    rw [hopen]
  | some epoch =>
    rw [hheld epoch rfl]
    rfl

variable [BEq V] {fuel : Nat} {topicId : TopicId} {generation : ConnectionGeneration}

/-- On a server that is not open the next value is refused, wherever the refusal comes
from. -/
theorem publish_of_closed (hlaw : host.Lawful) {error : XllError} (value : V)
    (hclosed : s.server.core.ensureOpen = .error error) :
    host.publish fuel topicId generation value s = some (s, .error (.failed .closing)) := by
  have herror := error_of_ensureOpen hclosed
  subst herror
  unfold publish
  cases henter : host.enterOperation s with
  | error refused =>
    dsimp only
    rw [enterOperation_error hlaw henter]
  | ok entered =>
    have hcore := core_of_enter henter
    have hback := leaveOperation_of_enter hlaw henter
    simp only [publishAdmitted, hcore, hclosed, dropping, Option.map_some, hback]

/-- **The loops of a batch do what the calls of `publish` do.** Induction on the values
left; the shard is held only at the current epoch. -/
theorem publishValues_eq_publishAll (hlaw : host.Lawful) :
    ∀ (values : List V) (held : Option Nat) (s : PublishState V N σ),
      host.Admitted s.server → (∀ epoch ∈ held, s.server.core.publishEpoch = epoch) →
        dropping (host.publishValues fuel topicId generation (fun _ => false) values held s)
            host.leaveOperation =
          host.publishAll fuel topicId generation values (host.leaveOperation s) := by
  intro values
  induction values with
  | nil =>
    intro held s _ _
    rfl
  | cons value values ih =>
    intro held s hadmitted hheld
    rw [publishAll, publishValues]
    cases hopen : s.server.core.ensureOpen with
    | error error =>
      have hclosed : (host.leaveOperation s).server.core.ensureOpen = .error error := hopen
      have herror : error = .closing := error_of_ensureOpen hopen
      rw [publish_of_closed hlaw value hclosed, herror]
      cases held with
      | none =>
        simp only [lockShard, hopen, herror]
        rfl
      | some epoch => rfl
    | ok _ =>
      have hlifecycle := lifecycle_of_ensureOpen hopen
      rw [lockShard_held hopen hheld, publish, enterOperation_leaveOperation hadmitted hlifecycle]
      simp only [Bool.false_eq_true, if_false, publishAdmitted, hopen]
      have hcommit := commitValue_lifecycle s.server.core
        (BufferIndex.fromEpoch s.server.core.publishEpoch) topicId generation value
      generalize s.server.core.commitValue (BufferIndex.fromEpoch s.server.core.publishEpoch)
        topicId generation value = committed at hcommit
      obtain ⟨core, outcome⟩ := committed
      have hset : host.Admitted (s.setCore core).server := hadmitted.withCore hcommit
      cases hresult : outcome.result with
      | error error => rfl
      | ok due =>
        dsimp only
        by_cases hnotify : due = true ∧ core.notifiedEpoch ≠ s.server.core.publishEpoch
        · rw [if_pos hnotify, if_pos hnotify.1]
          refine dropping_settle hlaw _ (host.publishValues fuel topicId generation
            (fun _ => false) values none) (fun s' hrun => Admitted.announce hlaw hset hrun)
            fun s' hs' => ih none s' hs' ?_
          rintro epoch ⟨⟩
        · rw [if_neg hnotify]
          -- Nothing to announce: `publish` stays on the fast path.
          have hquiet : (if due = true then
              host.announce fuel s.server.core.publishEpoch (s.setCore core)
              else some (s.setCore core, .ok ())) = some (s.setCore core, .ok ()) := by
            split
            · next hdue =>
              have hnotified : core.notifiedEpoch = s.server.core.publishEpoch := by
                simpa [hdue] using hnotify
              exact announce_of_notified hnotified
            · rfl
          rw [hquiet]
          refine dropping_settle hlaw (some (s.setCore core, .ok ())) (fun s' =>
            host.publishValues fuel topicId generation (fun _ => false) values
              (if s'.server.core.publishEpoch ≠ s.server.core.publishEpoch then none
                else some s.server.core.publishEpoch) s')
            (fun s' hrun => ?_) fun s' hs' => ih _ s' hs' fun epoch hepoch => ?_
          · cases hrun
            exact hset
          · split at hepoch
            · cases hepoch
            · next hsame =>
              cases hepoch
              exact not_not.mp hsame

/-- **Batch publication refines single publication.** For every host that keeps to its
side, every server and every list of values, a batch that is not stopped ends where the
calls of `publish` end: in the same core, gates and host, after the same notifications
between the same values, with the same result at the same value. -/
theorem batch_refines_single (hlaw : host.Lawful) (values : List V) (s : PublishState V N σ) :
    host.publishBatch fuel topicId generation (fun _ => false) values s =
      host.publishAll fuel topicId generation values s := by
  cases values with
  | nil => rfl
  | cons value values =>
    unfold publishBatch
    rw [if_neg (by simp)]
    cases henter : host.enterOperation s with
    | error refused => simp only [publishAll, publish, henter, andThen, Option.bind_some]
    | ok entered =>
      have hadmitted := Admitted.of_enter hlaw henter
      have hback := leaveOperation_of_enter hlaw henter
      have hloops : dropping (host.publishValues fuel topicId generation (fun _ => false)
          (value :: values) none entered) host.leaveOperation =
            host.publishAll fuel topicId generation (value :: values)
              (host.leaveOperation entered) :=
        publishValues_eq_publishAll hlaw _ _ _ hadmitted (by rintro epoch ⟨⟩)
      rw [hback] at hloops
      exact hloops

/-- A detached host whose notifier starts a refresh, as a host that pulls at once does. -/
def pullingHost : SubscriptionHost Nat Unit Unit where
  enter     := some
  leave     := id
  notify    := fun _ server => ({ server with core := server.core.planRefresh.1 }, .accepted)
  meanwhile := id

theorem pullingHost_lawful : pullingHost.Lawful where
  leave_enter idle entered h := by
    cases h
    rfl
  notify notifier server h := by
    refine ⟨h.runtimeGate, h.serverGate, fun hopen => ?_⟩
    have hplan : server.core.planRefresh =
        (server.core.planRefresh.1, server.core.planRefresh.2) := rfl
    have hsame := (PublishCore.planRefresh_spec hplan).1.lifecycle
    exact h.reentrant (hsame.symm.trans hopen)
  meanwhile server h := h

/-- A server with one committed connection and a notifier. -/
def connectedServer : PublishState Nat Unit Unit where
  server :=
    let core : PublishCore Nat Unit :=
      ((PublishCore.new ⟨0, 4⟩ ⟨0, 4⟩).reserveConnection ⟨1⟩ ⟨7⟩ ⟨1, by decide⟩).1
    let core := ((core.commitConnection ⟨1⟩ ⟨1, by decide⟩ none).map Prod.fst).getD core
    { core := (core.attachUpdateNotifier ()).1
      runtimeGate := ⟨false, 0⟩, serverGate := ⟨false, 0⟩, host := () }
  events := []

/-- Three values, the second a duplicate; the refresh of the first notification rotates the
epoch, so that the batch gives its shard up. -/
theorem batch_refines_single_pulled :
    pullingHost.publishBatch 3 ⟨1⟩ ⟨1, by decide⟩ (fun _ => false) [5, 5, 6] connectedServer =
        pullingHost.publishAll 3 ⟨1⟩ ⟨1, by decide⟩ [5, 5, 6] connectedServer ∧
      ((pullingHost.publishAll 3 ⟨1⟩ ⟨1, by decide⟩ [5, 5, 6] connectedServer).map fun run =>
        (run.1.events.length, run.1.server.core.publishEpoch,
          run.1.server.core.pendingUpdates)) = some (4, 1, 2) :=
  ⟨batch_refines_single pullingHost_lawful _ _, by decide⟩

end

end SubscriptionHost

end Xlfn.Subscription
