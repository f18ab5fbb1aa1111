import Xlfn.Handle.Preparation
import Xlfn.Lib.Table

/-!
# Xlfn — what a failed preparation leaves behind

* `Pc.cleanups` — what a call may still have to undo.
* `Inv` — what there is of a call, it may still have to undo.
* `Clean` / `cleanup_clean` — a cleanup undoes what it is for.
* `Came` / `exists_step_of_came` — how a call came where it is.
-/

namespace Xlfn.Handle

open Function Lib List Option

namespace Preparation

/-- What a call at `pc` may have made and not undone. -/
def Pc.cleanups : Pc → List Cleanup
  | .creating | .inserting => reservation
  | .provisioning | .checking | .observing | .observed | .committing => provisional ++ reservation
  | .committed => provisional ++ [.complete]
  | .unwinding todo _ => todo
  | .done .published => provisional
  | _ => []

theorem of_update_none {A B : Type} [DecidableEq A] {f : A → Option B} {a x : A} {b : B}
    (h : update f a none x = some b) : x ≠ a ∧ f x = some b := by
  rw [update_apply] at h
  split at h
  · cases h
  · exact ⟨‹_›, h⟩

theorem of_update_some {A B : Type} [DecidableEq A] {f : A → Option B} {a x : A} {b v : B}
    (h : update f a (some v) x = some b) : (x = a ∧ v = b) ∨ f x = some b := by
  rw [update_apply] at h
  split at h
  · exact .inl ⟨‹_›, some.inj h⟩
  · exact .inr h

/-- A choice succeeds or fails. -/
theorem Choice.elim_cases (choice : Choice) (ok : Pc) (failed : Outcome → Pc) :
    choice.elim ok failed = ok ∨
      ∃ outcome : Outcome, outcome.isFailure = true ∧ choice.elim ok failed = failed outcome := by
  cases choice with
  | ok => exact .inl rfl
  | error => exact .inr ⟨_, rfl, rfl⟩
  | panic => exact .inr ⟨_, rfl, rfl⟩

variable {K L : Type} {s s' : Service K L} {i : Nat} {c c' : Call K} {key : K} {pc : Pc}

theorem Call.notify_key (p : Nat) (c : Call K) : (c.notify p).key = c.key := by
  unfold Call.notify
  split <;> rfl

theorem Call.notify_cleanups (p : Nat) (c : Call K) : (c.notify p).pc.cleanups = c.pc.cleanups := by
  unfold Call.notify
  split
  · next hpc => rw [hpc]; rfl
  · rfl

namespace Service

/-- What a place needs of the other calls. -/
def PcOk (s : Service K L) (key : K) : Pc → Prop
  | .waiting j => s.ownerDone j = true ∨ ∃ d : Call K, s.calls[j]? = some d ∧ .complete ∈ d.pc.cleanups
  | .parked j => s.ownerDone j = false ∧
      ∃ d : Call K, s.calls[j]? = some d ∧ .complete ∈ d.pc.cleanups
  | .warmObserving p | .warmObserved p => ∃ d : Call K, s.calls[p]? = some d ∧ d.key = key
  | .unwinding todo outcome => outcome.isFailure = true ∧
      (todo <:+ provisional ++ reservation ∨ todo <:+ reservation ++ provisional)
  | _ => True

structure Inv (s : Service K L) : Prop where
  topics    : ∀ k p, s.byKey k = some p →
    ∃ c : Call K, s.calls[p]? = some c ∧ c.key = k ∧ .removeTopic ∈ c.pc.cleanups
  bindings  : s.isOpen = true → ∀ p ∈ s.bindings,
    ∃ c : Call K, s.calls[p]? = some c ∧ .removeBinding ∈ c.pc.cleanups
  markers   : ∀ k p, s.initializing k = some p →
    ∃ c : Call K, s.calls[p]? = some c ∧ c.key = k ∧ .finishInitialization ∈ c.pc.cleanups
  pcs       : ∀ (j : Nat) (c : Call K), s.calls[j]? = some c → s.PcOk c.key c.pc
  live      : ∀ p, s.states p = .live → ∃ k, s.byKey k = some p
  published : ∀ k p, s.published k = some p → s.byKey k = some p
  closed    : s.closed = true → ∀ k, s.byKey k = none

theorem Inv.new : Inv (new : Service K L) := by
  constructor <;> simp [Service.new]

/-- A marker outlives the wait for it. -/
theorem PcOk.complete_of_finish (h : s.PcOk key pc)
    (hfinish : .finishInitialization ∈ pc.cleanups) : .complete ∈ pc.cleanups := by
  cases pc with
  | unwinding todo outcome =>
    obtain ⟨-, htodo⟩ := h
    simp only [provisional, reservation, cons_append, nil_append, suffix_cons_iff,
      suffix_nil] at htodo
    rcases htodo with (rfl | rfl | rfl | rfl | rfl) | (rfl | rfl | rfl | rfl | rfl) <;>
      simp_all [Pc.cleanups]
  | done outcome => cases outcome <;> simp_all [Pc.cleanups, provisional]
  | _ => simp_all [Pc.cleanups, provisional, reservation]

/-- Nothing of call `i` is left that a cleanup would undo. -/
def Clean (s : Service K L) (i : Nat) (key : K) : Cleanup → Prop
  | .removeTopic => s.byKey key ≠ some i
  | .removeBinding => s.isOpen = true → i ∉ s.bindings
  | .finishInitialization => s.initializing key ≠ some i
  | .complete => s.ownerDone i = true

/-- The calls of `s` are among `calls`, and have what they may still have to undo. -/
def GoOn (s : Service K L) (calls : List (Call K)) : Prop :=
  ∀ (p : Nat) (d : Call K), s.calls[p]? = some d → ∃ d' : Call K, calls[p]? = some d' ∧
    d'.key = d.key ∧ ∀ g ∈ d.pc.cleanups, g ∈ d'.pc.cleanups ∨ s.Clean p d.key g

variable {calls : List (Call K)}

theorem PcOk.goOn (h : s.PcOk key pc) (hcalls : s.GoOn calls) : { s with calls }.PcOk key pc := by
  cases pc with
  | waiting p =>
    obtain hdone | ⟨d, hd, hg⟩ := h
    · exact .inl hdone
    · obtain ⟨d', hd', -, hkeep⟩ := hcalls p d hd
      exact (hkeep _ hg).symm.imp id fun hg' => ⟨d', hd', hg'⟩
  | parked p =>
    -- A call is parked only while its owner is not done, so the owner still has to complete.
    obtain ⟨hdone, d, hd, hg⟩ := h
    obtain ⟨d', hd', -, hkeep⟩ := hcalls p d hd
    refine ⟨hdone, d', hd', (hkeep _ hg).resolve_right fun hclean => ?_⟩
    exact absurd (hdone.symm.trans hclean) Bool.false_ne_true
  | warmObserving p | warmObserved p =>
    obtain ⟨d, hd, rfl⟩ := h
    obtain ⟨d', hd', hkey, -⟩ := hcalls p d hd
    exact ⟨d', hd', hkey⟩
  | unwinding todo outcome => exact h
  | _ => trivial

/-- **The calls go on.** They keep what they have to undo, except where that is undone. -/
theorem Inv.goOn (h : Inv s) (hcalls : s.GoOn calls)
    (hpcs : ∀ (j : Nat) (d : Call K), calls[j]? = some d → s.PcOk d.key d.pc) :
    Inv { s with calls } := by
  refine ⟨fun k p hp => ?_, fun hopen p hp => ?_, fun k p hp => ?_,
    fun j d hj => (hpcs j d hj).goOn hcalls, h.live, h.published, h.closed⟩
  · obtain ⟨d, hd, rfl, hg⟩ := h.topics k p hp
    obtain ⟨d', hd', hkey, hkeep⟩ := hcalls p d hd
    exact ⟨d', hd', hkey, (hkeep _ hg).resolve_right fun hclean => hclean hp⟩
  · obtain ⟨d, hd, hg⟩ := h.bindings hopen p hp
    obtain ⟨d', hd', -, hkeep⟩ := hcalls p d hd
    exact ⟨d', hd', (hkeep _ hg).resolve_right fun hclean => hclean hopen hp⟩
  · obtain ⟨d, hd, rfl, hg⟩ := h.markers k p hp
    obtain ⟨d', hd', hkey, hkeep⟩ := hcalls p d hd
    exact ⟨d', hd', hkey, (hkeep _ hg).resolve_right fun hclean => hclean hp⟩

/-- **One call goes on.** -/
theorem Inv.goto (h : Inv s) (hc : s.calls[i]? = some c) (hkey : c'.key = c.key)
    (hkeeps : ∀ g ∈ c.pc.cleanups, g ∈ pc.cleanups ∨ s.Clean i c.key g)
    (hpc : s.PcOk c'.key pc) : Inv (s.goto i c' pc) := by
  refine h.goOn (fun p d hd => ?_) fun j d hj => ?_
  · by_cases hp : i = p
    · subst hp
      cases hc.symm.trans hd
      exact ⟨_, List.getElem?_set_self (List.getElem_of_getElem? hc).1, hkey, hkeeps⟩
    · exact ⟨d, by rw [getElem?_set_ne hp, hd], rfl, fun g hg => .inl hg⟩
  · rcases getElem?_set_cases hc hj with ⟨rfl, rfl⟩ | ⟨-, hj⟩
    · exact hpc
    · exact h.pcs j d hj

/-- The call goes on and still has to undo what it had to. -/
theorem Inv.proceed (h : Inv s) (hc : s.calls[i]? = some c) (hkey : c'.key = c.key)
    (hkeeps : c.pc.cleanups ⊆ pc.cleanups) (hpc : s.PcOk c'.key pc) : Inv (s.goto i c' pc) :=
  h.goto hc hkey (fun _ hg => .inl (hkeeps hg)) hpc

/-- The call fails, and its guards are dropped. -/
theorem Inv.unwind (h : Inv s) (hc : s.calls[i]? = some c) {todo : List Cleanup} {outcome : Outcome}
    (hfail : outcome.isFailure = true) (hkeeps : c.pc.cleanups ⊆ todo)
    (htodo : todo <:+ provisional ++ reservation ∨ todo <:+ reservation ++ provisional) :
    Inv (s.goto i c (.unwinding todo outcome)) :=
  h.proceed hc rfl hkeeps ⟨hfail, htodo⟩

/-- The call after its own step. -/
theorem find_goto (hc : s.calls[i]? = some c) : (s.goto i c' pc).calls[i]? = some { c' with pc } :=
  List.getElem?_set_self (List.getElem_of_getElem? hc).1

theorem Inv.prepareWarm (h : Inv s) (key : K) : s.PcOk key (s.prepareWarm key) := by
  unfold Service.prepareWarm
  split
  · trivial
  · split
    · next p hp =>
      split
      · obtain ⟨d, hd, hkey, -⟩ := h.topics key p (h.published key p hp)
        exact ⟨d, hd, hkey⟩
      · trivial
    · trivial

/-- Waking the waiters keeps the invariant. -/
theorem Inv.notify (h : Inv s) (p : Nat) : Inv (s.notify p) := by
  refine h.goOn (fun q d hd => ⟨d.notify p, ?_, d.notify_key p, fun g hg => .inl ?_⟩)
    fun j d hj => ?_
  · rw [getElem?_map, hd]
    rfl
  · rwa [d.notify_cleanups]
  · obtain ⟨d, hold, rfl⟩ := map_eq_some_iff.mp (getElem?_map ▸ hj)
    have hparked := h.pcs j d hold
    unfold Call.notify
    split
    · next hpc =>
      rw [hpc] at hparked
      exact .inr hparked.2
    · exact hparked

variable {p : Nat}

/-- Nobody is parked on a call that has notified. -/
theorem not_parked_notify {j : Nat} {d : Call K} (hj : (s.notify p).calls[j]? = some d) :
    d.pc ≠ .parked p := by
  obtain ⟨d, -, rfl⟩ := map_eq_some_iff.mp (getElem?_map ▸ hj)
  unfold Call.notify
  split
  · nofun
  · assumption

theorem find_notify (hc : s.calls[i]? = some c) (hpc : c.pc ≠ .parked p) :
    (s.calls.map (Call.notify p))[i]? = some c := by
  rw [getElem?_map, hc, map_some, Call.notify, if_neg hpc]

theorem PcOk.ownerDone (h : s.PcOk key pc) (hparked : pc ≠ .parked p) :
    { s with ownerDone := update s.ownerDone p true }.PcOk key pc := by
  cases pc with
  | waiting q =>
    refine h.imp_left fun hdone => ?_
    dsimp only
    rw [update_apply]
    split
    · rfl
    · exact hdone
  | parked q =>
    refine ⟨?_, h.2⟩
    dsimp only
    rw [update_of_ne, h.1]
    rintro rfl
    exact hparked rfl
  | _ => exact h

/-- The end of an initialization wakes all calls that wait for it. -/
theorem Inv.complete (h : Inv s) (p : Nat) : Inv (s.complete p) := by
  have hwoken := h.notify p
  exact ⟨hwoken.topics, hwoken.bindings, hwoken.markers,
    fun j d hj => (hwoken.pcs j d hj).ownerDone (not_parked_notify hj), hwoken.live,
    hwoken.published, hwoken.closed⟩

/-- A binding is made, and its removal is owed. -/
theorem Inv.bind (h : Inv s) (hc : s.calls[i]? = some c) (hg : .removeBinding ∈ c.pc.cleanups) :
    Inv { s with bindings := i :: s.bindings } := by
  refine ⟨h.topics, fun hopen p hp => ?_, h.markers, h.pcs, h.live, h.published, h.closed⟩
  rcases mem_cons.mp hp with rfl | hp
  · exact ⟨c, hc, hg⟩
  · exact h.bindings hopen p hp

/-- The removal of a binding. -/
theorem Inv.removeBinding (h : Inv s) (token : Nat) (choice : Choice) :
    Inv (s.removeBinding token choice) := by
  unfold Service.removeBinding
  split
  · exact h
  · exact ⟨h.topics, fun hopen p hp => h.bindings hopen p (mem_filter.mp hp).1, h.markers,
      h.pcs, h.live, h.published, h.closed⟩

theorem calls_removeBinding (s : Service K L) (token : Nat) (choice : Choice) :
    (s.removeBinding token choice).calls = s.calls := by
  unfold Service.removeBinding
  split <;> rfl

theorem bindings_removeBinding (s : Service K L) (token : Nat) (choice : Choice) :
    (s.removeBinding token choice).isOpen = true →
      token ∉ (s.removeBinding token choice).bindings := by
  unfold Service.removeBinding
  split
  · next hclosing => simp [hclosing.2]
  · simp

/-- The call was there, or it has woken up. -/
def Stood (s : Service K L) (i : Nat) (c' : Call K) : Prop :=
  ∃ c : Call K, s.calls[i]? = some c ∧ c.key = c'.key ∧ (c.pc = c'.pc ∨ ∃ p, c'.pc = .waiting p)

/-- The other calls have not moved. -/
theorem stood_of_calls (hcalls : calls = s.calls) (hc' : calls[i]? = some c') : s.Stood i c' :=
  ⟨c', hcalls ▸ hc', rfl, .inl rfl⟩

theorem stood_of_notify (hc' : (s.calls.map (Call.notify p))[i]? = some c') : s.Stood i c' := by
  obtain ⟨c, hc, rfl⟩ := map_eq_some_iff.mp (getElem?_map ▸ hc')
  refine ⟨c, hc, (c.notify_key p).symm, ?_⟩
  unfold Call.notify
  split
  · exact .inr ⟨p, rfl⟩
  · exact .inl rfl

/-- Nothing is left of call `i`, and nothing waits for it. -/
structure RolledBack (s : Service K L) (i : Nat) : Prop where
  topics    : ∀ k, s.byKey k ≠ some i
  published : ∀ k, s.published k ≠ some i
  bindings  : s.isOpen = true → i ∉ s.bindings
  markers   : ∀ k, s.initializing k ≠ some i
  waiters   : ∀ (j : Nat) (d : Call K), s.calls[j]? = some d →
    d.pc ≠ .parked i ∧ (d.pc = .waiting i → s.ownerDone i = true)

/-- **A call that owes no cleanup has been rolled back.** -/
theorem Inv.rolledBack (h : Inv s) (hc : s.calls[i]? = some c) (hnone : c.pc.cleanups = []) :
    s.RolledBack i := by
  -- What there is of the call would be among its cleanups.
  have hno {d : Call K} {g : Cleanup} (hd : s.calls[i]? = some d) : g ∉ d.pc.cleanups := by
    cases hc.symm.trans hd
    rw [hnone]
    exact not_mem_nil
  have htopic (k : K) : s.byKey k ≠ some i := by
    intro hk
    obtain ⟨d, hd, -, hg⟩ := h.topics k i hk
    exact hno hd hg
  refine ⟨htopic, fun k hk => htopic k (h.published k i hk), fun hopen hi => ?_, fun k hk => ?_,
    fun j d hj => ⟨fun hparked => ?_, fun hwaiting => ?_⟩⟩
  · obtain ⟨d, hd, hg⟩ := h.bindings hopen i hi
    exact hno hd hg
  · obtain ⟨d, hd, -, hg⟩ := h.markers k i hk
    exact hno hd hg
  · have hpc := h.pcs j d hj
    rw [hparked] at hpc
    obtain ⟨-, e, he, hg⟩ := hpc
    exact hno he hg
  · have hpc := h.pcs j d hj
    rw [hwaiting] at hpc
    exact hpc.resolve_right fun ⟨e, he, hg⟩ => hno he hg

variable {generation initialization publication : Nat}

/-- What the check for the current publication says. -/
theorem isCurrent_iff : s.isCurrent key generation publication = .ok () ↔
    s.closed = false ∧ s.generation = generation ∧ s.byKey key = some publication := by
  unfold Service.isCurrent
  split
  · next hclosing =>
    constructor
    · nofun
    · rintro ⟨hopen, hgeneration, -⟩
      simp_all
  · next hopen =>
    obtain ⟨hopen, hgeneration⟩ := not_or.mp hopen
    split
    · next htopic => simp_all
    · next htopic => simp [htopic]

/-- A publication that is live is of the key under which it was found. -/
theorem Inv.isCurrent_of_warm {token : Nat} (h : Inv s) (hc : s.calls[i]? = some c)
    (hplace : c.pc = .warmObserved token) (hlive : s.states token = .live) :
    s.isCurrent c.key s.generation token = .ok () := by
  have hpc := h.pcs i c hc
  rw [hplace] at hpc
  obtain ⟨d, hd, hkey⟩ := hpc
  obtain ⟨k, hk⟩ := h.live token hlive
  obtain ⟨e, he, rfl, -⟩ := h.topics k token hk
  cases hd.symm.trans he
  refine isCurrent_iff.mpr ⟨Bool.eq_false_iff.mpr fun hclosed => ?_, rfl, hkey ▸ hk⟩
  cases hk.symm.trans (h.closed hclosed d.key)

theorem prepareDecision_wait {owner j : Nat} (h : s.prepareDecision key owner = .ok (.wait j)) :
    s.initializing key = some j := by
  unfold Service.prepareDecision at h
  split at h
  · cases h
  · split at h
    · next hmarker =>
      split at h
      · cases h
      · cases h
        exact hmarker
    · split at h <;> cases h

/-- Closing the service keeps the invariant. -/
theorem Inv.close (h : Inv s) : Inv s.close := by
  refine ⟨nofun, h.bindings, nofun, h.pcs, fun p hp => ?_, nofun, fun _ _ => rfl⟩
  -- Topics that are live end with the table.
  dsimp only [Service.close] at hp
  split at hp
  · cases hp
  · next hnone =>
    obtain ⟨k, hk⟩ := h.live p hp
    obtain ⟨c, hc, rfl, -⟩ := h.topics k p hk
    rw [hc] at hnone
    exact absurd (decide_eq_true hk) hnone

theorem calls_sealNext (hnext : s.sealNext = some s') : s'.calls = s.calls := by
  unfold Service.sealNext at hnext
  split at hnext
  · cases hnext
    rfl
  · cases hnext
    rfl
  · cases hnext
    rfl
  · obtain ⟨-, ⟨⟩⟩ := ite_none_right_eq_some.mp hnext
    rfl

/-- A seal keeps the invariant. -/
theorem Inv.sealNext (h : Inv s) (hnext : s.sealNext = some s') : Inv s' := by
  unfold Service.sealNext at hnext
  split at hnext
  · cases hnext
    exact ⟨h.topics, h.bindings, h.markers, h.pcs, h.live, h.published, h.closed⟩
  · cases hnext
    exact ⟨h.topics, nofun, h.markers, h.pcs, h.live, h.published, h.closed⟩
  · cases hnext
    have hclosed := h.close
    exact ⟨hclosed.topics, hclosed.bindings, hclosed.markers, hclosed.pcs, hclosed.live,
      hclosed.published, hclosed.closed⟩
  · obtain ⟨-, ⟨⟩⟩ := ite_none_right_eq_some.mp hnext
    exact ⟨h.topics, fun _ _ hp => absurd hp not_mem_nil, h.markers, h.pcs, h.live,
      h.published, h.closed⟩

section

variable [DecidableEq K]

/-- A call begins. -/
theorem Inv.enter (h : Inv s) (thread : Nat) (key : K) : Inv (s.enter thread key) := by
  refine h.goOn (fun p d hd => ⟨d, ?_, rfl, fun g hg => .inl hg⟩) fun j d hj => ?_
  · rw [List.getElem?_append_left (List.getElem_of_getElem? hd).1, hd]
  · rcases mem_append.mp (mem_of_getElem? hj) with hold | hnew
    · obtain ⟨q, hq⟩ := getElem?_of_mem hold
      exact h.pcs q d hq
    · obtain rfl := mem_singleton.mp hnew
      dsimp only
      split <;> trivial

/-- A key is marked as being initialized. -/
theorem Inv.mark (h : Inv s) (hc : s.calls[i]? = some c)
    (hg : .finishInitialization ∈ c.pc.cleanups) :
    Inv { s with initializing := update s.initializing c.key (some i) } := by
  refine ⟨h.topics, h.bindings, fun k p hp => ?_, h.pcs, h.live, h.published, h.closed⟩
  rcases of_update_some hp with ⟨rfl, rfl⟩ | hp
  · exact ⟨c, hc, rfl, hg⟩
  · exact h.markers k p hp

theorem Inv.unmark (h : Inv s) (key : K) :
    Inv { s with initializing := update s.initializing key none } :=
  ⟨h.topics, h.bindings, fun k p hp => h.markers k p (of_update_none hp).2, h.pcs, h.live,
    h.published, h.closed⟩

/-- The mark is taken back, and the waiters wake. -/
theorem Inv.finishInitialization (h : Inv s) (key : K) (p : Nat) :
    Inv (s.finishInitialization key p) := by
  unfold Service.finishInitialization
  split
  · exact h.unmark key
  · exact h

theorem initializing_finishInitialization (s : Service K L) (key : K) (p : Nat) :
    (s.finishInitialization key p).initializing key ≠ some p := by
  intro hmarker
  unfold Service.finishInitialization at hmarker
  split at hmarker
  · exact absurd rfl (of_update_none hmarker).1
  · next hne => exact hne hmarker

/-- What a successful commit says. -/
theorem commitPublication_ok
    (h : s.commitPublication key generation initialization publication = .ok s') :
    s.isCurrent key generation publication = .ok () ∧
      s.initializing key = some initialization ∧
      s' = { s with
        states       := update s.states publication .live
        published    := update s.published key (some publication)
        initializing := update s.initializing key none } := by
  unfold Service.commitPublication at h
  split at h
  · cases h
  · next hopen =>
    split at h
    · cases h
    · next hmarker =>
      split at h
      · cases h
      · next htopic =>
        refine ⟨?_, by simpa using hmarker, (Except.ok.inj h).symm⟩
        rw [isCurrent, if_neg hopen, if_pos (by simpa using htopic)]

/-- A commit keeps the invariant. -/
theorem Inv.commitPublication (h : Inv s)
    (heq : s.commitPublication key generation initialization publication = .ok s') : Inv s' := by
  obtain ⟨hcurrent, -, rfl⟩ := commitPublication_ok heq
  obtain ⟨-, -, htopic⟩ := isCurrent_iff.mp hcurrent
  refine ⟨h.topics, h.bindings, (h.unmark key).markers, h.pcs, fun p hp => ?_, fun k p hp => ?_,
    h.closed⟩
  · dsimp only at hp
    rw [update_apply] at hp
    split at hp
    · next heq =>
      subst heq
      exact ⟨key, htopic⟩
    · exact h.live p hp
  · rcases of_update_some hp with ⟨rfl, rfl⟩ | hp
    · exact htopic
    · exact h.published k p hp

end

variable [DecidableEq K] [DecidableEq L] {lifetimeKey : K → L}

/-- What a provisional insertion says. -/
theorem insertProvisional_ok
    (h : s.insertProvisional lifetimeKey key generation publication = .ok s') :
    s.closed = false ∧ s.byKey key = none ∧
      s' = { s with
        byKey         := update s.byKey key (some publication)
        byLifetimeKey := update s.byLifetimeKey (lifetimeKey key) (some key) } := by
  unfold Service.insertProvisional at h
  split at h
  · cases h
  · next hopen =>
    split at h
    · cases h
    · next hcollision => exact ⟨by simp_all, by simp_all, (Except.ok.inj h).symm⟩

/-- A provisional insertion keeps the invariant. -/
theorem Inv.insertProvisional (h : Inv s) (hc : s.calls[i]? = some c)
    (hg : .removeTopic ∈ c.pc.cleanups)
    (heq : s.insertProvisional lifetimeKey c.key generation i = .ok s') : Inv s' := by
  obtain ⟨hopen, hvacant, rfl⟩ := insertProvisional_ok heq
  -- The key is vacant, so what the other keys have stays.
  have hother {k : K} {p : Nat} (hp : s.byKey k = some p) :
      update s.byKey c.key (some i) k = some p := by
    rw [update_of_ne, hp]
    rintro rfl
    cases hp.symm.trans hvacant
  refine ⟨fun k p hp => ?_, h.bindings, h.markers, h.pcs, fun p hp => ?_,
    fun k p hp => hother (h.published k p hp), fun hclosed => ?_⟩
  · rcases of_update_some hp with ⟨rfl, rfl⟩ | hp
    · exact ⟨c, hc, rfl, hg⟩
    · exact h.topics k p hp
  · obtain ⟨k, hk⟩ := h.live p hp
    exact ⟨k, hother hk⟩
  · exact absurd (hopen.symm.trans hclosed) Bool.false_ne_true

theorem Inv.removeTopicLocked (h : Inv s) (key : K) :
    Inv (s.removeTopicLocked lifetimeKey key) := by
  unfold Service.removeTopicLocked
  split
  · exact h
  · next p hp =>
    have hother {k : K} {q : Nat} (hk : s.byKey k = some q) (hne : k ≠ key) :
        update s.byKey key none k = some q := by rw [update_of_ne hne, hk]
    refine ⟨fun k q hq => h.topics k q (of_update_none hq).2, h.bindings, h.markers, h.pcs,
      fun q hq => ?_, fun k q hq => ?_, fun hclosed k => ?_⟩
    · dsimp only at hq
      rw [update_apply] at hq
      split at hq
      · cases hq
      · next hne =>
        obtain ⟨k, hk⟩ := h.live q hq
        refine ⟨k, hother hk ?_⟩
        rintro rfl
        exact hne (some.inj (hk.symm.trans hp))
    · obtain ⟨hne, hq⟩ := of_update_none hq
      exact hother (h.published k q hq) hne
    · cases hp.symm.trans (h.closed hclosed key)

/-- The removal of a topic keeps the invariant. -/
theorem Inv.removeTopicIfToken (h : Inv s) (key : K) (token : Nat) :
    Inv (s.removeTopicIfToken lifetimeKey key token) := by
  unfold Service.removeTopicIfToken
  split
  · exact h.removeTopicLocked key
  · exact h

theorem byKey_removeTopicIfToken (s : Service K L) (key : K) (token : Nat) :
    (s.removeTopicIfToken lifetimeKey key token).byKey key ≠ some token := by
  intro htopic
  unfold Service.removeTopicIfToken at htopic
  split at htopic
  · next hp =>
    unfold Service.removeTopicLocked at htopic
    rw [hp] at htopic
    exact absurd rfl (of_update_none htopic).1
  · next hne => exact hne htopic

/-- **Every cleanup keeps the invariant.** -/
theorem Inv.cleanup (h : Inv s) (i : Nat) (key : K) (choice : Choice) (g : Cleanup) :
    Inv (s.cleanup lifetimeKey i key choice g) := by
  cases g with
  | removeTopic => exact h.removeTopicIfToken key i
  | removeBinding => exact h.removeBinding i choice
  | finishInitialization => exact h.finishInitialization key i
  | complete => exact h.complete i

/-- **A cleanup undoes what it is for.** -/
theorem cleanup_clean (s : Service K L) (i : Nat) (key : K) (choice : Choice) (g : Cleanup) :
    (s.cleanup lifetimeKey i key choice g).Clean i key g := by
  cases g with
  | removeTopic => exact byKey_removeTopicIfToken s key i
  | removeBinding => exact bindings_removeBinding s i choice
  | finishInitialization => exact initializing_finishInitialization s key i
  | complete => exact update_self ..

theorem calls_removeTopicLocked (s : Service K L) (key : K) :
    (s.removeTopicLocked lifetimeKey key).calls = s.calls := by
  unfold Service.removeTopicLocked
  split <;> rfl

theorem calls_removeTopic (s : Service K L) (key : K) :
    (s.removeTopic lifetimeKey key).calls = s.calls := by
  unfold Service.removeTopic
  split
  · rfl
  · exact calls_removeTopicLocked s key

/-- A cleanup leaves the calls alone, except that some wake up. -/
theorem calls_cleanup (lifetimeKey : K → L) (s : Service K L) (i : Nat) (key : K) (choice : Choice)
    (g : Cleanup) :
    (s.cleanup lifetimeKey i key choice g).calls = s.calls ∨
      (s.cleanup lifetimeKey i key choice g).calls = s.calls.map (Call.notify i) := by
  cases g with
  | removeTopic =>
    left
    rw [Service.cleanup]
    unfold Service.removeTopicIfToken
    split
    · exact calls_removeTopicLocked s key
    · rfl
  | removeBinding => exact .inl (calls_removeBinding s i choice)
  | finishInitialization =>
    left
    rw [Service.cleanup]
    unfold Service.finishInitialization
    split <;> rfl
  | complete => exact .inr rfl

/-- A cleanup leaves the call itself where it is. -/
theorem find_cleanup (hc : s.calls[i]? = some c) (hpc : c.pc ≠ .parked i) (choice : Choice)
    (g : Cleanup) : (s.cleanup lifetimeKey i c.key choice g).calls[i]? = some c := by
  obtain hcalls | hcalls := calls_cleanup lifetimeKey s i c.key choice g
  · rw [hcalls, hc]
  · rw [hcalls]
    exact find_notify hc hpc

-- ---- The steps of a call.

variable {choice : Choice}

/-- **One step of a call keeps the invariant.** -/
theorem Inv.run (h : Inv s) (hc : s.calls[i]? = some c)
    (hrun : s.run lifetimeKey i c choice = some s') : Inv s' := by
  have hpc := h.pcs i c hc
  obtain ⟨thread, key, generation, pc⟩ := c
  cases pc with
  | entering =>
    obtain rfl := some.inj hrun
    exact h.proceed hc rfl (nil_subset _) (by dsimp only; split <;> trivial)
  | warm =>
    obtain rfl := some.inj hrun
    exact h.proceed hc rfl (nil_subset _) (h.prepareWarm key)
  | warmObserving p =>
    obtain rfl := some.inj hrun
    obtain helim | ⟨outcome, -, helim⟩ := choice.elim_cases (.warmObserved p) .done <;> rw [helim]
    · exact h.proceed hc rfl (nil_subset _) hpc
    · exact h.proceed hc rfl (nil_subset _) trivial
  | warmObserved p =>
    obtain rfl := some.inj hrun
    exact h.proceed hc rfl (nil_subset _) trivial
  | deciding =>
    dsimp only [Service.run] at hrun
    split at hrun
    · obtain rfl := some.inj hrun
      exact h.proceed hc rfl (nil_subset _) trivial
    · next j hj =>
      obtain rfl := some.inj hrun
      -- The owner of the marker has yet to complete, which wakes the call.
      obtain ⟨d, hd, hkey, hg⟩ := h.markers key j (prepareDecision_wait hj)
      exact h.proceed hc rfl (nil_subset _)
        (.inr ⟨d, hd, (h.pcs j d hd).complete_of_finish hg⟩)
    · obtain rfl := some.inj hrun
      exact h.proceed hc rfl (nil_subset _) trivial
    · obtain rfl := some.inj hrun
      -- The call first answers for the marker, then sets it.
      have hcreating : Inv (s.goto i ⟨thread, key, s.generation, .deciding⟩ .creating) :=
        h.proceed hc rfl (nil_subset _) trivial
      exact hcreating.mark (find_goto hc) mem_cons_self
  | waiting j =>
    obtain rfl := some.inj hrun
    split
    · exact h.proceed hc rfl (nil_subset _) trivial
    · next hwait =>
      refine h.proceed hc rfl (nil_subset _) ⟨by simp_all, ?_⟩
      exact hpc.resolve_left (by simp_all)
  | parked j => cases hrun
  | existingObserving token =>
    obtain rfl := some.inj hrun
    obtain helim | ⟨outcome, -, helim⟩ := choice.elim_cases (.existingObserved token) .done <;>
      rw [helim] <;> exact h.proceed hc rfl (nil_subset _) trivial
  | existingObserved token =>
    obtain rfl := some.inj hrun
    exact h.proceed hc rfl (nil_subset _) trivial
  | creating =>
    obtain rfl := some.inj hrun
    obtain helim | ⟨outcome, hfail, helim⟩ := choice.elim_cases .inserting (.unwinding reservation) <;>
      rw [helim]
    · exact h.proceed hc rfl (List.Subset.refl _) trivial
    · exact h.unwind hc hfail (List.Subset.refl _) (.inl (suffix_append _ _))
  | inserting =>
    cases choice with
    | ok =>
      obtain rfl := some.inj hrun
      -- It answers for the binding before there is one.
      have hinserted : Inv (s.goto i ⟨thread, key, generation, .inserting⟩ .provisioning) :=
        h.proceed hc rfl (subset_append_right _ _) trivial
      exact hinserted.bind (find_goto hc) (mem_cons_of_mem _ mem_cons_self)
    | error | panic =>
      obtain rfl := some.inj hrun
      exact h.unwind hc rfl (List.Subset.refl _) (.inl (suffix_append _ _))
  | provisioning =>
    dsimp only [Service.run] at hrun
    split at hrun
    · next t ht =>
      obtain rfl := some.inj hrun
      have ht' := h.insertProvisional hc mem_cons_self ht
      obtain ⟨-, -, rfl⟩ := insertProvisional_ok ht
      exact ht'.proceed hc rfl (List.Subset.refl _) trivial
    · obtain rfl := some.inj hrun
      exact h.unwind hc rfl (List.Subset.refl _) (.inl (suffix_refl _))
  | checking | observed =>
    dsimp only [Service.run] at hrun
    split at hrun
    · obtain rfl := some.inj hrun
      exact h.proceed hc rfl (List.Subset.refl _) trivial
    · obtain rfl := some.inj hrun
      exact h.unwind hc rfl (List.Subset.refl _) (.inl (suffix_refl _))
  | observing =>
    obtain rfl := some.inj hrun
    obtain helim | ⟨outcome, hfail, helim⟩ :=
      choice.elim_cases .observed (.unwinding (provisional ++ reservation)) <;> rw [helim]
    · exact h.proceed hc rfl (List.Subset.refl _) trivial
    · exact h.unwind hc hfail (List.Subset.refl _) (.inl (suffix_refl _))
  | committing =>
    dsimp only [Service.run] at hrun
    split at hrun
    · next t ht =>
      obtain rfl := some.inj hrun
      have ht' := h.commitPublication ht
      obtain ⟨-, -, rfl⟩ := commitPublication_ok ht
      -- The commit has taken the marker away; the rest is still the call's to undo.
      refine ht'.goto hc rfl (fun g hg => ?_) trivial
      cases g with
      | finishInitialization => exact .inr (by simp [Clean])
      | _ => exact .inl (by decide)
    · obtain rfl := some.inj hrun
      -- `commit` drops the reservation first, but what is to be undone is the same.
      have hsame : provisional ++ reservation ⊆ reservation ++ provisional := by decide
      exact h.unwind hc rfl hsame (.inr (suffix_refl _))
  | committed =>
    obtain rfl := some.inj hrun
    -- What it published stays; only the waiters are still to be woken.
    refine (h.complete i).goto (find_notify hc (by simp)) rfl (fun g hg => ?_) trivial
    cases g with
    | finishInitialization => cases hg with | _ => contradiction
    | complete => exact .inr (update_self ..)
    | _ => exact .inl (by decide)
  | unwinding todo outcome =>
    obtain ⟨hfail, htodo⟩ := hpc
    cases todo with
    | nil =>
      obtain rfl := some.inj hrun
      exact h.proceed hc rfl (nil_subset _) trivial
    | cons first todo =>
      obtain rfl := some.inj hrun
      -- One guard is dropped; what it was for is clean, and the others are still to come.
      refine (h.cleanup i key choice first).goto (find_cleanup hc (by simp) choice first) rfl
        (fun g hg => ?_) ⟨hfail, htodo.imp ?_ ?_⟩
      · rcases mem_cons.mp hg with rfl | hg
        · exact .inr (cleanup_clean s i key choice g)
        · exact .inl hg
      · exact (suffix_cons first todo).trans
      · exact (suffix_cons first todo).trans
  | done outcome => cases hrun

-- ---- The steps of the service.

theorem Inv.removeTopic (h : Inv s) (key : K) : Inv (s.removeTopic lifetimeKey key) := by
  unfold Service.removeTopic
  split
  · exact h
  · have hremoved : Inv (s.removeTopicLocked lifetimeKey key) := h.removeTopicLocked key
    exact ⟨hremoved.topics, hremoved.bindings, hremoved.markers, hremoved.pcs, hremoved.live,
      hremoved.published, hremoved.closed⟩

/-- **One step.** -/
theorem Inv.step {a : Action K} (h : Inv s) (hstep : s.step lifetimeKey a = some s') : Inv s' := by
  cases a with
  | call thread key =>
    obtain ⟨-, ⟨⟩⟩ := ite_none_right_eq_some.mp hstep
    exact h.enter thread key
  | run i choice =>
    obtain ⟨c, hc, hrun⟩ := bind_eq_some_iff.mp hstep
    exact h.run hc (ite_none_right_eq_some.mp hrun).2
  | removeTopic key =>
    obtain rfl := some.inj hstep
    exact h.removeTopic key
  | removeBinding token choice =>
    obtain ⟨-, ⟨⟩⟩ := ite_none_right_eq_some.mp hstep
    exact h.removeBinding token choice
  | sealNext => exact h.sealNext hstep
  | notifyClosed p =>
    obtain ⟨-, ⟨⟩⟩ := ite_none_right_eq_some.mp hstep
    exact h.notify p

variable {actions : List (Action K)}

/-- **Every run.** -/
theorem inv_of_run (hrun : Lib.run (step lifetimeKey) new actions = some s) : Inv s :=
  run_invariant (fun _ _ _ h hstep => Inv.step h hstep) Inv.new hrun

/-- **The indexes of the topics agree**, through every interleaving. What is published is current,
what is live has a topic, no two keys have the same topic, the call that made it asked for its key,
and a closed table has none. -/
theorem topic_indexes_agree (hrun : Lib.run (step lifetimeKey) new actions = some s) :
    (∀ k p, s.published k = some p → s.byKey k = some p) ∧
    (∀ p, s.states p = .live → ∃ k, s.byKey k = some p) ∧
    (∀ k k' p, s.byKey k = some p → s.byKey k' = some p → k = k') ∧
    (∀ k p, s.byKey k = some p → ∃ c : Call K, s.calls[p]? = some c ∧ c.key = k) ∧
    (s.closed = true → ∀ k, s.byKey k = none ∧ s.published k = none) := by
  have h := inv_of_run hrun
  refine ⟨h.published, h.live, fun k k' p hk hk' => ?_, fun k p hk => ?_, fun hclosed k => ?_⟩
  · obtain ⟨c, hc, rfl, -⟩ := h.topics k p hk
    obtain ⟨d, hd, rfl, -⟩ := h.topics k' p hk'
    exact congrArg Call.key (some.inj (hc.symm.trans hd))
  · obtain ⟨c, hc, hkey, -⟩ := h.topics k p hk
    exact ⟨c, hc, hkey⟩
  · refine ⟨h.closed hclosed k, eq_none_iff_forall_ne_some.mpr fun p hp => ?_⟩
    cases (h.published k p hp).symm.trans (h.closed hclosed k)

-- ---- How a call came where it is.

/-- What was before call `i` came to a place. -/
def Came (s : Service K L) (i : Nat) (c : Call K) : Pc → Prop
  | .committed => c.pc = .committing ∧ s.isCurrent c.key c.generation i = .ok ()
  | .done .published => c.pc = .committed
  | .done (.reused token) => (c.pc = .warmObserved token ∧ s.states token = .live) ∨
      (c.pc = .existingObserved token ∧ s.isCurrent c.key c.generation token = .ok ())
  | _ => True

/-- What a step of call `i` does to the calls. -/
theorem calls_run (h : Inv s) (hc : s.calls[i]? = some c)
    (hrun : s.run lifetimeKey i c choice = some s') :
    ∃ (calls : List (Call K)) (d : Call K), s'.calls = calls.set i d ∧ d.key = c.key ∧
      (calls = s.calls ∨ calls = s.calls.map (Call.notify i)) ∧ s.Came i c d.pc := by
  have hpc := h.pcs i c hc
  obtain ⟨thread, key, generation, pc⟩ := c
  cases pc with
  | entering =>
    obtain rfl := some.inj hrun
    exact ⟨_, _, rfl, rfl, .inl rfl, by dsimp only; split <;> trivial⟩
  | warm =>
    obtain rfl := some.inj hrun
    refine ⟨_, _, rfl, rfl, .inl rfl, ?_⟩
    unfold Service.prepareWarm
    split
    · trivial
    · split
      · split <;> trivial
      · trivial
  | warmObserving p | existingObserving p | creating | observing =>
    obtain rfl := some.inj hrun
    cases choice <;> exact ⟨_, _, rfl, rfl, .inl rfl, trivial⟩
  | warmObserved p =>
    obtain rfl := some.inj hrun
    refine ⟨_, _, rfl, rfl, .inl rfl, ?_⟩
    dsimp only [warmOutcome]
    split
    · next hlive => exact .inl ⟨rfl, hlive⟩
    · trivial
    · trivial
  | deciding =>
    dsimp only [Service.run] at hrun
    split at hrun <;> cases hrun <;> exact ⟨_, _, rfl, rfl, .inl rfl, trivial⟩
  | waiting j =>
    obtain rfl := some.inj hrun
    exact ⟨_, _, rfl, rfl, .inl rfl, by dsimp only; split <;> trivial⟩
  | parked j => cases hrun
  | existingObserved token =>
    obtain rfl := some.inj hrun
    refine ⟨_, _, rfl, rfl, .inl rfl, ?_⟩
    dsimp only
    split
    · next hcurrent => exact .inr ⟨rfl, hcurrent⟩
    · trivial
  | inserting =>
    cases choice <;> cases hrun <;> exact ⟨_, _, rfl, rfl, .inl rfl, trivial⟩
  | provisioning =>
    dsimp only [Service.run] at hrun
    split at hrun
    · next t ht =>
      cases hrun
      obtain ⟨-, -, rfl⟩ := insertProvisional_ok ht
      exact ⟨_, _, rfl, rfl, .inl rfl, trivial⟩
    · cases hrun
      exact ⟨_, _, rfl, rfl, .inl rfl, trivial⟩
  | checking | observed =>
    dsimp only [Service.run] at hrun
    split at hrun <;> cases hrun <;> exact ⟨_, _, rfl, rfl, .inl rfl, trivial⟩
  | committing =>
    dsimp only [Service.run] at hrun
    split at hrun
    · next t ht =>
      cases hrun
      obtain ⟨hcurrent, -, rfl⟩ := commitPublication_ok ht
      exact ⟨_, _, rfl, rfl, .inl rfl, rfl, hcurrent⟩
    · cases hrun
      exact ⟨_, _, rfl, rfl, .inl rfl, trivial⟩
  | committed =>
    obtain rfl := some.inj hrun
    exact ⟨_, _, rfl, rfl, .inr rfl, rfl⟩
  | unwinding todo outcome =>
    cases todo with
    | nil =>
      obtain rfl := some.inj hrun
      refine ⟨_, _, rfl, rfl, .inl rfl, ?_⟩
      cases outcome with
      | published | reused token => cases hpc.1
      | error error | panicked => trivial
    | cons first todo =>
      obtain rfl := some.inj hrun
      exact ⟨_, _, rfl, rfl, calls_cleanup lifetimeKey s i key choice first, trivial⟩
  | done outcome => cases hrun

/-- **Where a call is after a step.** It was there, it has just begun, or it is the call
that ran. -/
theorem call_of_step {a : Action K} (h : Inv s) (hstep : s.step lifetimeKey a = some s')
    (hc' : s'.calls[i]? = some c') :
    s.Stood i c' ∨ (c'.pc = .entering ∨ c'.pc = .done (.error .reentrantCall)) ∨
      ∃ choice c, a = .run i choice ∧ s.calls[i]? = some c ∧ c.key = c'.key ∧
        s.Came i c c'.pc := by
  cases a with
  | call thread key =>
    obtain ⟨-, ⟨⟩⟩ := ite_none_right_eq_some.mp hstep
    rcases Nat.lt_or_ge i s.calls.length with hi | hi
    · rw [Service.enter, getElem?_append_left hi] at hc'
      exact .inl (stood_of_calls rfl hc')
    · rw [Service.enter, getElem?_append_right hi] at hc'
      obtain rfl := mem_singleton.mp (mem_of_getElem? hc')
      dsimp only
      split
      · exact .inr (.inl (.inr rfl))
      · exact .inr (.inl (.inl rfl))
  | run j choice =>
    obtain ⟨c, hc, hrun⟩ := bind_eq_some_iff.mp hstep
    obtain ⟨calls, d, hcalls, hkey, hold, hcame⟩ :=
      calls_run h hc (ite_none_right_eq_some.mp hrun).2
    rw [hcalls] at hc'
    by_cases hij : j = i
    · subst hij
      rw [getElem?_set_self'] at hc'
      obtain ⟨-, -, rfl⟩ := map_eq_some_iff.mp hc'
      exact .inr (.inr ⟨choice, c, rfl, hc, hkey.symm, hcame⟩)
    · rw [getElem?_set_ne hij] at hc'
      rcases hold with rfl | rfl
      · exact .inl (stood_of_calls rfl hc')
      · exact .inl (stood_of_notify hc')
  | removeTopic key =>
    obtain rfl := some.inj hstep
    exact .inl (stood_of_calls (calls_removeTopic s key) hc')
  | removeBinding token choice =>
    obtain ⟨-, ⟨⟩⟩ := ite_none_right_eq_some.mp hstep
    exact .inl (stood_of_calls (calls_removeBinding s token choice) hc')
  | sealNext => exact .inl (stood_of_calls (calls_sealNext hstep) hc')
  | notifyClosed p =>
    obtain ⟨-, ⟨⟩⟩ := ite_none_right_eq_some.mp hstep
    exact .inl (stood_of_notify hc')

/-- Where a call is that it was not at from the start, it came by a step of its own. -/
theorem exists_step_of_came (hrun : Lib.run (step lifetimeKey) new actions = some s)
    (hc : s.calls[i]? = some c) (hentering : c.pc ≠ .entering)
    (hreentrant : c.pc ≠ .done (.error .reentrantCall)) (hwaiting : ∀ p, c.pc ≠ .waiting p) :
    ∃ before choice after t d, actions = before ++ .run i choice :: after ∧
      Lib.run (step lifetimeKey) new before = some t ∧ t.calls[i]? = some d ∧ d.key = c.key ∧
      t.Came i d c.pc := by
  obtain ⟨before, a, after, t, t', rfl, ht, hstep, hnot, c', hc', hkey, hpc⟩ :=
    exists_step_of_run (P := fun s : Service K L =>
      ∃ c' : Call K, s.calls[i]? = some c' ∧ c'.key = c.key ∧ c'.pc = c.pc) hrun
      (by rintro ⟨c', hc', -⟩; cases hc') ⟨c, hc, rfl, rfl⟩
  -- It was not in this place before the step, so it did not stand there.
  rcases call_of_step (inv_of_run ht) hstep hc' with
    ⟨d, hd, hdkey, hsame | ⟨p, hp⟩⟩ | hnew | ⟨choice, d, rfl, hd, hdkey, hcame⟩
  · exact absurd ⟨d, hd, hdkey.trans hkey, hsame.trans hpc⟩ hnot
  · exact absurd (hpc.symm.trans hp) (hwaiting p)
  · rw [hpc] at hnew
    exact (hnew.elim hentering hreentrant).elim
  · exact ⟨before, choice, after, t, d, rfl, ht, hd, hdkey.trans hkey, hpc ▸ hcame⟩

/-- **A preparation is a transaction.** Where it failed, nothing is left of it. Where it
published, its topic was current at its commit, and where it took over a token, the topic was
current with it when it was checked last. -/
theorem prepare_observed_transaction (hrun : Lib.run (step lifetimeKey) new actions = some s)
    (hc : s.calls[i]? = some c) :
    (∀ outcome, c.pc = .done outcome → outcome.isFailure = true → s.RolledBack i) ∧
    (c.pc = .done .published → ∃ before choice after t d,
      actions = before ++ .run i choice :: after ∧
      Lib.run (step lifetimeKey) new before = some t ∧ t.calls[i]? = some d ∧ d.key = c.key ∧
      d.pc = .committing ∧ t.isCurrent c.key d.generation i = .ok ()) ∧
    (∀ token, c.pc = .done (.reused token) → ∃ before choice after t d,
      actions = before ++ .run i choice :: after ∧
      Lib.run (step lifetimeKey) new before = some t ∧ t.calls[i]? = some d ∧ d.key = c.key ∧
      (d.pc = .warmObserved token ∨ d.pc = .existingObserved token) ∧
      t.isCurrent c.key t.generation token = .ok ()) := by
  refine ⟨fun outcome hdone hfail => ?_, fun hdone => ?_, fun token hdone => ?_⟩
  · refine (inv_of_run hrun).rolledBack hc ?_
    rw [hdone]
    cases outcome with
    | published | reused token => cases hfail
    | error error | panicked => rfl
  · obtain ⟨before, choice, after, t, d, rfl, ht, hd, hkey, hcame⟩ :=
      exists_step_of_came hrun hc (by simp [hdone]) (by simp [hdone]) (by simp [hdone])
    have hcommitted : d.pc = .committed := by
      rw [hdone] at hcame
      exact hcame
    -- Before it was done it had committed.
    obtain ⟨before, choice, after', t, d, rfl, ht, hd, hkey', hcame⟩ :=
      exists_step_of_came ht hd (by simp [hcommitted]) (by simp [hcommitted]) (by simp [hcommitted])
    rw [hcommitted] at hcame
    refine ⟨before, choice, _, t, d, append_assoc .., ht, hd, hkey'.trans hkey, hcame.1, ?_⟩
    rw [← hkey, ← hkey']
    exact hcame.2
  · obtain ⟨before, choice, after, t, d, rfl, ht, hd, hkey, hcame⟩ :=
      exists_step_of_came hrun hc (by simp [hdone]) (by simp [hdone]) (by simp [hdone])
    rw [hdone] at hcame
    rw [← hkey]
    refine ⟨before, choice, after, t, d, rfl, ht, hd, rfl, hcame.imp (·.1) (·.1), ?_⟩
    rcases hcame with ⟨hplace, hlive⟩ | ⟨-, hcurrent⟩
    · exact (inv_of_run ht).isCurrent_of_warm hd hplace hlive
    · obtain ⟨hopen, -, htopic⟩ := isCurrent_iff.mp hcurrent
      exact isCurrent_iff.mpr ⟨hopen, rfl, htopic⟩

/-- A call panics in its observation, and another that waited for it publishes. -/
def retryRun : List (Action Nat) :=
  [.call 0 7] ++ replicate 3 (.run 0 .ok) ++ [.call 1 7] ++ replicate 4 (.run 1 .ok) ++
    replicate 4 (.run 0 .ok) ++ [.run 0 .panic] ++ replicate 5 (.run 0 .ok) ++
    replicate 10 (.run 1 .ok)

theorem prepare_observed_transaction_retry : ∃ (s : Service Nat Nat) (c d : Call Nat),
    Lib.run (step id) new retryRun = some s ∧
    s.calls[0]? = some c ∧ c.pc = .done .panicked ∧ s.RolledBack 0 ∧
    s.calls[1]? = some d ∧ d.pc = .done .published ∧
    ∃ before choice after t d', retryRun = before ++ .run 1 choice :: after ∧
      Lib.run (step (id : Nat → Nat)) new before = some t ∧ t.calls[1]? = some d' ∧ d'.key = d.key ∧
      d'.pc = .committing ∧ t.isCurrent d.key d'.generation 1 = .ok () := by
  have hrun : Lib.run (step (id : Nat → Nat)) new retryRun = some _ := rfl
  exact ⟨_, _, _, hrun, rfl, rfl, (prepare_observed_transaction hrun rfl).1 .panicked rfl rfl, rfl,
    rfl, (prepare_observed_transaction hrun rfl).2.1 rfl⟩

theorem topic_indexes_agree_retryRun : ∃ s : Service Nat Nat,
    Lib.run (step id) new retryRun = some s ∧ s.byKey 7 = some 1 ∧
    ∀ k, s.byKey k = some 1 → k = 7 := by
  have hrun : Lib.run (step (id : Nat → Nat)) new retryRun = some _ := rfl
  exact ⟨_, hrun, rfl, fun k hk => (topic_indexes_agree hrun).2.2.1 k 7 1 hk rfl⟩

end Service

end Preparation

end Xlfn.Handle
