import Xlfn.Subscription.Multiplex

/-!
# Xlfn — what the control stream of a multiplexed source keeps

Every subscription that is registered leaves the same trace in the stream: a
`Subscribe`, and, if it went while the source was open, one `Unsubscribe` behind it. So
an unread `Subscribe` belongs to a registration that is active or whose `Unsubscribe` is
unread, too; there are no more unread `Subscribe`s than active registrations and unread
removals (`SourceWf.fits`), and the storage that `register` reserves holds them all.

* `SourceWf` — the invariant, kept by every step (`SourceWf.step`).
-/

namespace Xlfn.Subscription.Multiplex

open Lib Kernel List Option Table SubscriptionPc

-- ---- The invariant.

namespace SubscriptionPc

/-- The call or its subscription holds a permit. -/
def holds : SubscriptionPc → Bool
  | .attached | .failing _ | .live _ | .releasing _ => true
  | .refused _ | .removed _ | .released _ => false

def isLive : SubscriptionPc → Bool
  | .live _ => true
  | _ => false

/-- The call has a permit and is not registered. -/
def isPending : SubscriptionPc → Bool
  | .attached | .failing _ => true
  | _ => false

/-- The subscription went after the source had closed. -/
def isLate : SubscriptionPc → Bool
  | .releasing _ | .released _ => true
  | _ => false

def id : SubscriptionPc → Option Nat
  | .live id | .removed id | .releasing id | .released id => some id
  | .attached | .failing _ | .refused _ => none

/-- The events of the subscription at the place `sub`. -/
def trace (sub : Nat) : SubscriptionPc → List ControlEvent
  | .live id | .releasing id | .released id => [.subscribe id sub]
  | .removed id => [.subscribe id sub, .unsubscribe id]
  | .attached | .failing _ | .refused _ => []

end SubscriptionPc

/-- The call holds the permit of a removal. -/
def RecvPc.holds : RecvPc → Bool
  | .returning _ => true
  | _ => false

/-- The permits of the removals a `stop` or `complete` took. -/
def Closer.permits (c : Closer) : Nat := c.events.countP ControlEvent.isUnsubscribe

/-- The events of an id. -/
def ofId (id : Nat) (events : List ControlEvent) : List ControlEvent :=
  events.filter fun event => event.id == id

/-- The invariant of a multiplexed source. -/
structure SourceWf (p : MultiplexedSource) : Prop where
  sound      : p.aborted = false ∧ p.underflow = false ∧ p.grew = false
  permits    : p.permits = p.subscriptions.countP holds +
    p.state.events.countP ControlEvent.isUnsubscribe + p.receivers.countP RecvPc.holds +
    (p.closers.map Closer.permits).sum
  removals   : p.state.removals = p.state.events.countP ControlEvent.isUnsubscribe
  shut       : p.state.closed = true → p.state.active = ∅ ∧ p.state.events = []
  capacity   : p.state.closed = false →
    2 * (p.state.active.size + p.state.removals) ≤ p.state.eventsCapacity
  registered : p.state.closed = false → ∀ sub id, p.subscriptions[sub]? = some (.live id) →
    p.state.active.lookup id = some sub
  actives    : p.state.closed = false → p.state.active.size = p.subscriptions.countP isLive
  early      : p.state.closed = false → ∀ pc ∈ p.subscriptions, pc.isLate = false
  known      : ∀ id, (p.state.active.lookup id).isSome → id ≤ p.state.nextId
  issued     : p.issued = List.range' 1 p.state.nextId ∧
    p.queued.filterMap ControlEvent.subscribed = p.issued
  owned      : ∀ event ∈ p.queued,
    ∃ (sub : Nat) (pc : SubscriptionPc), p.subscriptions[sub]? = some pc ∧ pc.id = some event.id
  history    : ∀ (sub : Nat) (pc : SubscriptionPc) (id : Nat),
    p.subscriptions[sub]? = some pc → pc.id = some id →
    id ≤ p.state.nextId ∧ ofId id p.queued = pc.trace sub
  unread     : p.state.closed = false → p.queued = p.delivered ++ p.state.events
  unclosed   : p.state.closed = false → p.closers = []
  read       : p.delivered <+: p.queued

namespace SourceWf

variable {p : MultiplexedSource} {sub : Nat} {pc : SubscriptionPc}

theorem new : SourceWf MultiplexedSource.new where
  sound := ⟨rfl, rfl, rfl⟩
  permits := rfl
  removals := rfl
  shut := nofun
  capacity := fun _ => Nat.le_refl 0
  registered := fun _ sub id hsub => by cases hsub
  actives := fun _ => rfl
  early := fun _ pc hpc => by cases hpc
  known := fun id hid => by cases hid
  issued := ⟨rfl, rfl⟩
  owned := fun event hevent => by cases hevent
  history := fun sub pc id hsub => by cases hsub
  unread := fun _ => rfl
  unclosed := fun _ => rfl
  read := nil_prefix

-- ---- The length of the queue.

variable {id : Nat}

theorem mem_ofId {event : ControlEvent} {events : List ControlEvent} :
    event ∈ ofId id events ↔ event ∈ events ∧ event.id = id := by
  rw [ofId, mem_filter, beq_iff_eq]

theorem ofId_append (id : Nat) (l l' : List ControlEvent) :
    ofId id (l ++ l') = ofId id l ++ ofId id l' :=
  filter_append ..

/-- Where a subscription is removed and its `Subscribe` is not read, its `Unsubscribe` is
not read either. -/
theorem unsubscribe_unread {l l' : List ControlEvent}
    (htrace : ofId id (l ++ l') = [.subscribe id sub, .unsubscribe id])
    (hmem : .subscribe id sub ∈ l') : .unsubscribe id ∈ l' := by
  rw [ofId_append] at htrace
  have hmem' : ControlEvent.subscribe id sub ∈ ofId id l' := mem_ofId.mpr ⟨hmem, rfl⟩
  cases hl : ofId id l with
  | nil =>
    rw [hl, nil_append] at htrace
    refine (mem_ofId.mp (?_ : ControlEvent.unsubscribe id ∈ ofId id l')).1
    rw [htrace]
    exact mem_cons_of_mem _ mem_cons_self
  | cons event rest =>
    -- What has been read begins with the `Subscribe`, so it is not among the rest.
    rw [hl, cons_append] at htrace
    obtain ⟨-, hrest⟩ := List.cons.inj htrace
    have hin : ControlEvent.subscribe id sub ∈ rest ++ ofId id l' := mem_append_right _ hmem'
    rw [hrest, mem_singleton] at hin
    cases hin

/-- The ids of the removals. -/
def removalIds (events : List ControlEvent) : List Nat :=
  (events.filter ControlEvent.isUnsubscribe).map ControlEvent.id

theorem length_removalIds (events : List ControlEvent) :
    (removalIds events).length = events.countP ControlEvent.isUnsubscribe := by
  rw [removalIds, length_map, countP_eq_length_filter]

theorem length_events (events : List ControlEvent) : events.length =
      (events.filterMap ControlEvent.subscribed).length + events.countP ControlEvent.isUnsubscribe := by
  induction events with
  | nil => rfl
  | cons event events ih =>
    have hcount : (event :: events).countP ControlEvent.isUnsubscribe =
        events.countP ControlEvent.isUnsubscribe + if event.isUnsubscribe then 1 else 0 :=
      countP_cons
    cases event with
    | subscribe id sub =>
      show events.length + 1 = (events.filterMap ControlEvent.subscribed).length + 1 + _
      rw [hcount, if_neg nofun]
      omega
    | unsubscribe id =>
      show events.length + 1 = (events.filterMap ControlEvent.subscribed).length + _
      rw [hcount, if_pos (by rfl)]
      omega

/-- No more unread `Subscribe`s than active registrations and unread removals. -/
theorem fits (h : SourceWf p) :
    p.state.events.length ≤ p.state.active.size + 2 * p.state.removals := by
  cases hclosed : p.state.closed with
  | true =>
    rw [(h.shut hclosed).2]
    exact Nat.zero_le _
  | false =>
    have hunread := h.unread hclosed
    have hnodup : (p.state.events.filterMap ControlEvent.subscribed).Nodup := by
      have hall : (p.queued.filterMap ControlEvent.subscribed).Nodup := by
        rw [h.issued.2, h.issued.1]
        exact nodup_range'
      refine hall.sublist (List.Sublist.filterMap _ ?_)
      rw [hunread]
      exact sublist_append_right ..
    have hsubset : p.state.events.filterMap ControlEvent.subscribed ⊆
        p.state.active.keys ++ removalIds p.state.events := by
      intro id hid
      obtain ⟨event, hevent, hsubscribed⟩ := mem_filterMap.mp hid
      cases event with
      | unsubscribe id' => cases hsubscribed
      | subscribe id' sub =>
        cases hsubscribed
        have hqueued : ControlEvent.subscribe id sub ∈ p.queued := by
          rw [hunread]
          exact mem_append_right _ hevent
        obtain ⟨sub', pc, hsub, hpc⟩ := h.owned _ hqueued
        have htrace := (h.history sub' pc id hsub hpc).2
        have hmem : ControlEvent.subscribe id sub ∈ pc.trace sub' := by
          rw [← htrace]
          exact mem_ofId.mpr ⟨hqueued, rfl⟩
        have hlate := h.early hclosed pc (mem_of_getElem? hsub)
        cases pc with
        | live id' =>
          cases hpc
          exact mem_append_left _ (mem_keys_of_lookup (h.registered hclosed sub' id hsub))
        | removed id' =>
          cases hpc
          have hsame : sub = sub' := by
            rcases mem_cons.mp hmem with heq | hin
            · cases heq
              rfl
            · cases mem_singleton.mp hin
          subst hsame
          rw [hunread] at htrace
          refine mem_append_right _ (List.mem_map.mpr ⟨.unsubscribe id, ?_, rfl⟩)
          exact mem_filter.mpr ⟨unsubscribe_unread htrace hevent, rfl⟩
        | releasing | released => cases hlate
        | attached | failing | refused => cases hpc
    have hle := (subperm_of_subset hnodup hsubset).length_le
    rw [length_append, length_removalIds, ← h.removals] at hle
    rw [length_events, ← h.removals]
    have hsize : p.state.active.size = p.state.active.keys.length := by
      rw [size, AList.keys, List.keys, length_map]
    omega

-- ---- The steps of a subscription.

theorem permits_pos (h : SourceWf p) (hsub : p.subscriptions[sub]? = some pc)
    (hholds : pc.holds = true) : 0 < p.permits := by
  have hpos : 0 < p.subscriptions.countP holds :=
    countP_pos_iff.mpr ⟨pc, mem_of_getElem? hsub, hholds⟩
  have hpermits := h.permits
  omega

theorem release_of_pos (hpos : 0 < p.permits) :
    p.release = { p with permits := p.permits - 1 } := by
  rw [MultiplexedSource.release, checkedSub, if_pos (show 1 ≤ p.permits from hpos)]

theorem repost (h : SourceWf p) (hsub : p.subscriptions[sub]? = some pc) {pc' : SubscriptionPc}
    {permits : Nat} (hid : pc'.id = pc.id) (htrace : pc'.trace sub = pc.trace sub)
    (hopen : p.state.closed = false → pc.isLive = false ∧ pc'.isLive = false ∧ pc'.isLate = false)
    (hpermits : permits + (if pc.holds then 1 else 0) = p.permits + if pc'.holds then 1 else 0) :
    SourceWf { p with permits, subscriptions := p.subscriptions.set sub pc' } :=
  { h with
    permits := by
      have hset := countP_set_add holds pc' hsub
      have hbefore := h.permits
      show permits = (p.subscriptions.set sub pc').countP holds +
        p.state.events.countP ControlEvent.isUnsubscribe + p.receivers.countP RecvPc.holds +
        (p.closers.map Closer.permits).sum
      omega
    registered := fun hclosed sub' id hsub' => by
      rcases getElem?_set_cases hsub hsub' with ⟨rfl, heq⟩ | ⟨-, hold⟩
      · have hlive := (hopen hclosed).2.1
        rw [← heq] at hlive
        cases hlive
      · exact h.registered hclosed sub' id hold
    actives := fun hclosed => by
      have hset := countP_set_add isLive pc' hsub
      rw [(hopen hclosed).1, (hopen hclosed).2.1] at hset
      exact (h.actives hclosed).trans (Nat.add_right_cancel hset).symm
    early := fun hclosed pc'' hpc'' => by
      rcases mem_or_eq_of_mem_set hpc'' with hpc'' | rfl
      · exact h.early hclosed pc'' hpc''
      · exact (hopen hclosed).2.2
    owned := fun event hevent => by
      obtain ⟨sub', pc'', hsub', hpc''⟩ := h.owned event hevent
      by_cases heq : sub = sub'
      · subst heq
        rw [hsub] at hsub'
        cases hsub'
        exact ⟨sub, pc', getElem?_set_self (List.getElem_of_getElem? hsub).1, hid.trans hpc''⟩
      · exact ⟨sub', pc'', (getElem?_set_ne heq).trans hsub', hpc''⟩
    history := fun sub' pc'' id hsub' hpc'' => by
      rcases getElem?_set_cases hsub hsub' with ⟨rfl, rfl⟩ | ⟨-, hold⟩
      · rw [htrace]
        exact h.history sub' pc id hsub (hid.symm.trans hpc'')
      · exact h.history sub' pc'' id hold hpc'' }

/-- A call that failed to register keeps its permit until it drops the channel. -/
theorem fail (h : SourceWf p) (hsub : p.subscriptions[sub]? = some .attached)
    (error : SourceError) : SourceWf (p.goto sub (.failing error)) :=
  h.repost hsub rfl rfl (fun _ => ⟨rfl, rfl, rfl⟩) rfl

theorem reserve (h : SourceWf p) {capacity : Nat} (hle : p.state.eventsCapacity ≤ capacity) :
    SourceWf { p with state := { p.state with eventsCapacity := capacity } } :=
  { h with capacity := fun hclosed => Nat.le_trans (h.capacity hclosed) hle }

theorem le_tryReserve {capacity length additional capacity' : Nat} {grown : Option Nat}
    (hreserve : tryReserve capacity length additional grown = some capacity') :
    capacity ≤ capacity' ∧ length + additional ≤ capacity' := by
  rw [tryReserve] at hreserve
  split at hreserve
  case isTrue hle =>
    cases hreserve
    exact ⟨Nat.le_refl _, hle⟩
  case isFalse hlt =>
    obtain ⟨-, hle⟩ := filter_eq_some_iff.mp hreserve
    have hle := of_decide_eq_true hle
    exact ⟨by omega, hle⟩

theorem controls_eq {s : State} {controls : Nat} (hcontrols : s.controls = some controls) :
    controls = 2 * (s.active.size + s.removals + 1) := by
  simp only [State.controls, checkedAdd, checkedMul, bind_eq_bind, bind_eq_some_iff,
    ite_none_right_eq_some, some.injEq] at hcontrols
  obtain ⟨used, ⟨-, rfl⟩, used', ⟨-, rfl⟩, -, rfl⟩ := hcontrols
  exact Nat.mul_comm _ 2

theorem ofId_fresh (h : SourceWf p) (hid : p.state.nextId < id) : ofId id p.queued = [] := by
  refine filter_eq_nil_iff.mpr fun event hevent => ?_
  obtain ⟨sub, pc, hsub, hpc⟩ := h.owned event hevent
  have hle := (h.history sub pc event.id hsub hpc).1
  rw [beq_iff_eq]
  omega

theorem ofId_push_same (events : List ControlEvent) (event : ControlEvent)
    (hevent : event.id = id) : ofId id (events ++ [event]) = ofId id events ++ [event] := by
  rw [ofId_append]
  congr 1
  exact filter_cons_of_pos (by rw [hevent]; exact beq_self_eq_true id)

theorem ofId_push_other (events : List ControlEvent) (event : ControlEvent)
    (hevent : event.id ≠ id) : ofId id (events ++ [event]) = ofId id events := by
  rw [ofId_append]
  have hnone : ofId id [event] = [] :=
    filter_cons_of_neg (by rw [beq_iff_eq]; exact hevent)
  rw [hnone, append_nil]

section

variable (h : SourceWf p)
include h

theorem enroll (hclosed : p.state.closed = false) (hsub : p.subscriptions[sub]? = some .attached)
    (hcapacity : 2 * (p.state.active.size + p.state.removals + 1) ≤ p.state.eventsCapacity) :
    SourceWf (p.enroll sub (p.state.nextId + 1)) := by
  have hlt : sub < p.subscriptions.length := (List.getElem_of_getElem? hsub).1
  have hset : (p.subscriptions.set sub (.live (p.state.nextId + 1)))[sub]? =
      some (.live (p.state.nextId + 1)) := getElem?_set_self hlt
  have hnew : p.state.active.lookup (p.state.nextId + 1) = none := by
    cases hlookup : p.state.active.lookup (p.state.nextId + 1) with
    | none => rfl
    | some sub' =>
      have hle := h.known (p.state.nextId + 1) (by rw [hlookup]; rfl)
      omega
  have hsize := size_insert_new sub hnew
  have hfits := h.fits
  have hother {sub' : Nat} {pc : SubscriptionPc} {id : Nat} (hne : sub' ≠ sub)
      (hsub' : p.subscriptions[sub']? = some pc) (hpc : pc.id = some id) :
      id ≤ p.state.nextId := (h.history sub' pc id hsub' hpc).1
  exact
    { h with
      sound := ⟨h.sound.1, h.sound.2.1, by
        show (p.grew || decide (p.state.eventsCapacity ≤ p.state.events.length)) = false
        rw [h.sound.2.2, Bool.false_or]
        exact decide_eq_false (by omega)⟩
      permits := by
        have hcount := countP_set_add holds (.live (p.state.nextId + 1)) hsub
        have hunsubscribe : (p.state.events ++
            [ControlEvent.subscribe (p.state.nextId + 1) sub]).countP ControlEvent.isUnsubscribe =
            p.state.events.countP ControlEvent.isUnsubscribe := countP_append
        have hbefore := h.permits
        show p.permits = (p.subscriptions.set sub _).countP holds +
          (p.state.events ++ [_]).countP ControlEvent.isUnsubscribe + _ + _
        rw [hunsubscribe]
        exact hbefore.trans (by
          congr 3
          exact (Nat.add_right_cancel hcount).symm)
      removals := by
        show p.state.removals = (p.state.events ++ [_]).countP ControlEvent.isUnsubscribe
        rw [countP_append]
        exact h.removals
      shut := fun hshut => absurd (hclosed.symm.trans hshut) nofun
      capacity := fun _ => by
        show 2 * (size (p.state.active.insert _ _) + p.state.removals) ≤ p.state.eventsCapacity
        omega
      registered := fun _ sub' id hsub' => by
        show (p.state.active.insert _ _).lookup id = some sub'
        rw [lookup_insert_ite]
        rcases getElem?_set_cases hsub hsub' with ⟨rfl, heq⟩ | ⟨hne, hold⟩
        · cases heq
          exact if_pos rfl
        · have hle := hother hne hold rfl
          rw [if_neg (by omega)]
          exact h.registered hclosed sub' id hold
      actives := fun _ => by
        have hcount := countP_set_add isLive (.live (p.state.nextId + 1)) hsub
        have hactives := h.actives hclosed
        show size (p.state.active.insert _ _) =
          (p.subscriptions.set sub _).countP isLive
        rw [hsize, hactives]
        exact hcount.symm
      early := fun _ pc hpc => by
        rcases mem_or_eq_of_mem_set hpc with hpc | rfl
        · exact h.early hclosed pc hpc
        · rfl
      known := fun id hid => by
        show id ≤ p.state.nextId + 1
        change ((p.state.active.insert _ _).lookup id).isSome at hid
        rw [lookup_insert_ite] at hid
        split at hid
        case isTrue heq => exact Nat.le_of_eq heq
        case isFalse => exact Nat.le_succ_of_le (h.known id hid)
      issued := by
        refine ⟨?_, ?_⟩
        · show p.issued ++ [_] = range' 1 (p.state.nextId + 1)
          rw [h.issued.1, range'_concat, Nat.one_mul, Nat.add_comm 1]
        · show (p.queued ++ [_]).filterMap ControlEvent.subscribed = p.issued ++ [_]
          rw [filterMap_append, h.issued.2]
          rfl
      owned := fun event hevent => by
        rcases mem_append.mp hevent with hevent | hevent
        · obtain ⟨sub', pc, hsub', hpc⟩ := h.owned event hevent
          refine ⟨sub', pc, (getElem?_set_ne ?_).trans hsub', hpc⟩
          rintro rfl
          rw [hsub] at hsub'
          cases hsub'
          cases hpc
        · cases mem_singleton.mp hevent
          exact ⟨sub, .live (p.state.nextId + 1), hset, rfl⟩
      history := fun sub' pc id hsub' hpc => by
        show id ≤ p.state.nextId + 1 ∧ ofId id (p.queued ++ [_]) = pc.trace sub'
        rcases getElem?_set_cases hsub hsub' with ⟨rfl, rfl⟩ | ⟨hne, hold⟩
        · cases hpc
          refine ⟨Nat.le_refl _, ?_⟩
          rw [ofId_push_same p.queued (.subscribe (p.state.nextId + 1) sub') (by rfl),
            h.ofId_fresh (Nat.lt_succ_self _)]
          rfl
        · obtain ⟨hle, htrace⟩ := h.history sub' pc id hold hpc
          refine ⟨Nat.le_succ_of_le hle, ?_⟩
          rw [ofId_push_other p.queued (.subscribe (p.state.nextId + 1) sub) (by
            show p.state.nextId + 1 ≠ id
            omega)]
          exact htrace
      unread := fun _ => by
        show p.queued ++ [_] = p.delivered ++ (p.state.events ++ [_])
        rw [← append_assoc, ← h.unread hclosed]
      read := h.read.trans (prefix_append _ _) }

theorem register (hsub : p.subscriptions[sub]? = some .attached)
    (input : MultiplexedSource.Input) : SourceWf (p.register sub input) := by
  rw [MultiplexedSource.register]
  split
  case isTrue => exact h.fail hsub .closing
  case isFalse hopen =>
    split
    case h_2 => exact h.fail hsub .overloaded
    case h_1 id controls hnext hcontrols =>
      dsimp only
      split
      case h_2 => exact h.fail hsub .overloaded
      case h_1 eventsCapacity hreserve =>
        obtain ⟨hle, hcovers⟩ := le_tryReserve hreserve
        have hreserved := h.reserve hle
        split
        case isFalse => exact hreserved.fail hsub .overloaded
        case isTrue =>
          have hid : id = p.state.nextId + 1 := by
            rw [checkedNext, ite_none_right_eq_some] at hnext
            exact (some.inj hnext.2).symm
          subst hid
          refine hreserved.enroll ?_ hsub ?_
          · exact Bool.eq_false_iff.mpr hopen
          · show 2 * (p.state.active.size + p.state.removals + 1) ≤ eventsCapacity
            have hcontrols := controls_eq hcontrols
            omega

/-- `Shared::unregister`: there is room for the event, since the registration is still
counted among the active ones. -/
theorem unregister (hsub : p.subscriptions[sub]? = some (.live id)) :
    SourceWf (p.unregister sub id) := by
  rw [MultiplexedSource.unregister]
  dsimp only
  split
  case isTrue hclosed =>
    have hempty : p.state.active.erase id = p.state.active := by
      rw [(h.shut hclosed).1]
      rfl
    rw [hempty]
    exact h.repost hsub rfl rfl (fun hopen => absurd (hclosed.symm.trans hopen) nofun) rfl
  case isFalse hopen =>
    have hclosed : p.state.closed = false := Bool.eq_false_iff.mpr hopen
    have hlookup := h.registered hclosed sub id hsub
    have hlt : sub < p.subscriptions.length := (List.getElem_of_getElem? hsub).1
    have hset : (p.subscriptions.set sub (.removed id))[sub]? = some (.removed id) :=
      getElem?_set_self hlt
    have hsize := size_erase hlookup
    have hfits := h.fits
    have hcapacity := h.capacity hclosed
    have htrace := (h.history sub (.live id) id hsub rfl).2
    exact
      { h with
        sound := ⟨h.sound.1, h.sound.2.1, by
          show (p.grew || decide (p.state.eventsCapacity ≤ p.state.events.length)) = false
          rw [h.sound.2.2, Bool.false_or]
          exact decide_eq_false (by omega)⟩
        permits := by
          have hcount := countP_set_add holds (.removed id) hsub
          have hunsubscribe : (p.state.events ++ [ControlEvent.unsubscribe id]).countP
              ControlEvent.isUnsubscribe = p.state.events.countP ControlEvent.isUnsubscribe + 1 :=
            countP_append
          have hbefore := h.permits
          show p.permits = (p.subscriptions.set sub _).countP holds +
            (p.state.events ++ [_]).countP ControlEvent.isUnsubscribe +
            p.receivers.countP RecvPc.holds + (p.closers.map Closer.permits).sum
          rw [hunsubscribe]
          have hless : (p.subscriptions.set sub (.removed id)).countP holds + 1 =
            p.subscriptions.countP holds := hcount
          omega
        removals := by
          show p.state.removals + 1 = (p.state.events ++ [_]).countP ControlEvent.isUnsubscribe
          rw [countP_append, h.removals]
          rfl
        shut := fun hshut => absurd hshut hopen
        capacity := fun _ => by
          show 2 * (size (p.state.active.erase id) + (p.state.removals + 1)) ≤ p.state.eventsCapacity
          omega
        registered := fun _ sub' id' hsub' => by
          show (p.state.active.erase id).lookup id' = some sub'
          rw [lookup_erase_ite]
          rcases getElem?_set_cases hsub hsub' with ⟨rfl, heq⟩ | ⟨hne, hold⟩
          · cases heq
          · have hlookup' := h.registered hclosed sub' id' hold
            rw [if_neg, hlookup']
            rintro rfl
            rw [hlookup] at hlookup'
            exact hne (some.inj hlookup').symm
        actives := fun _ => by
          have hcount : (p.subscriptions.set sub (.removed id)).countP isLive + 1 =
              p.subscriptions.countP isLive :=
            countP_set_add isLive (.removed id) hsub
          have hactives := h.actives hclosed
          show size (p.state.active.erase id) =
            (p.subscriptions.set sub _).countP isLive
          omega
        early := fun _ pc hpc => by
          rcases mem_or_eq_of_mem_set hpc with hpc | rfl
          · exact h.early hclosed pc hpc
          · rfl
        known := fun id' hid' => by
          change ((p.state.active.erase id).lookup id').isSome at hid'
          rw [lookup_erase_ite] at hid'
          split at hid'
          case isTrue => cases hid'
          case isFalse => exact h.known id' hid'
        issued := by
          refine ⟨h.issued.1, ?_⟩
          show (p.queued ++ [_]).filterMap ControlEvent.subscribed = p.issued
          rw [filterMap_append, h.issued.2]
          exact append_nil _
        owned := fun event hevent => by
          rcases mem_append.mp hevent with hevent | hevent
          · obtain ⟨sub', pc, hsub', hpc⟩ := h.owned event hevent
            by_cases heq : sub = sub'
            · subst heq
              rw [hsub] at hsub'
              cases hsub'
              exact ⟨sub, .removed id, hset, hpc⟩
            · exact ⟨sub', pc, (getElem?_set_ne heq).trans hsub', hpc⟩
          · cases mem_singleton.mp hevent
            exact ⟨sub, .removed id, hset, rfl⟩
        history := fun sub' pc id' hsub' hpc => by
          show id' ≤ p.state.nextId ∧ ofId id' (p.queued ++ [_]) = pc.trace sub'
          rcases getElem?_set_cases hsub hsub' with ⟨rfl, rfl⟩ | ⟨hne, hold⟩
          · cases hpc
            refine ⟨(h.history sub' (.live id) id hsub rfl).1, ?_⟩
            rw [ofId_push_same p.queued (.unsubscribe id) (by rfl), htrace]
            rfl
          · obtain ⟨hle, htrace'⟩ := h.history sub' pc id' hold hpc
            refine ⟨hle, ?_⟩
            rw [ofId_push_other]
            · exact htrace'
            -- Two subscriptions with one id would both begin its trace.
            · rintro rfl
              refine hne ?_
              change ofId id p.queued = _ at htrace'
              rw [htrace] at htrace'
              cases pc with
              | live | releasing | released =>
                cases hpc
                cases htrace'
                rfl
              | removed => cases htrace'
              | attached | failing | refused => cases hpc
        unread := fun _ => by
          show p.queued ++ [_] = p.delivered ++ (p.state.events ++ [_])
          rw [← append_assoc, ← h.unread hclosed]
        read := h.read.trans (prefix_append _ _) }

-- ---- The producer, and the end of the source.

theorem received {receiver : Nat} {call : RecvPc}
    (hcall : p.receivers[receiver]? = some .waiting) (hholds : call.holds = false) :
    SourceWf { p with receivers := p.receivers.set receiver call } :=
  { h with
    permits := by
      have hset := countP_set_add RecvPc.holds call hcall
      rw [hholds] at hset
      show p.permits = p.subscriptions.countP holds +
        p.state.events.countP ControlEvent.isUnsubscribe +
        (p.receivers.set receiver call).countP RecvPc.holds + (p.closers.map Closer.permits).sum
      rw [show (p.receivers.set receiver call).countP RecvPc.holds =
        p.receivers.countP RecvPc.holds from Nat.add_right_cancel hset]
      exact h.permits }

theorem delivered_front (hclosed : p.state.closed = false)
    {event : ControlEvent} {events : List ControlEvent} (hevents : p.state.events = event :: events) :
    p.queued = (p.delivered ++ [event]) ++ events := by
  rw [h.unread hclosed, hevents, append_assoc]
  rfl

theorem poll {receiver : Nat} {timedOut : Bool} {p' : MultiplexedSource}
    (hcall : p.receivers[receiver]? = some .waiting)
    (hs : p.poll receiver timedOut = some p') : SourceWf p' := by
  rw [MultiplexedSource.poll] at hs
  split at hs
  case isTrue =>
    cases hs
    exact h.received hcall rfl
  case isFalse hopen =>
    have hclosed : p.state.closed = false := Bool.eq_false_iff.mpr hopen
    cases hevents : p.state.events with
    | nil =>
      rw [hevents] at hs
      dsimp only at hs
      split at hs
      case isTrue =>
        cases hs
        exact h.received hcall rfl
      case isFalse => cases hs
    | cons event events =>
      have hqueued := h.delivered_front hclosed hevents
      have hread : p.delivered ++ [event] <+: p.queued := by
        rw [hqueued]
        exact prefix_append _ _
      have hpermits := h.permits
      have hremovals := h.removals
      have hcapacity := h.capacity hclosed
      have hcount : p.state.events.countP ControlEvent.isUnsubscribe =
          events.countP ControlEvent.isUnsubscribe + if event.isUnsubscribe then 1 else 0 := by
        rw [hevents]
        exact countP_cons
      rw [hevents] at hs
      cases event with
      | subscribe id sub =>
        cases hs
        have hcount : p.state.events.countP ControlEvent.isUnsubscribe =
          events.countP ControlEvent.isUnsubscribe := hcount
        have hset : (p.receivers.set receiver (.returned (some (.subscribe id sub)))).countP
            RecvPc.holds = p.receivers.countP RecvPc.holds :=
          countP_set_add RecvPc.holds (.returned (some (.subscribe id sub))) hcall
        exact
          { h with
            permits := by
              show p.permits = p.subscriptions.countP holds +
                events.countP ControlEvent.isUnsubscribe +
                (p.receivers.set receiver _).countP RecvPc.holds +
                (p.closers.map Closer.permits).sum
              rw [hset, ← hcount]
              exact hpermits
            removals := hremovals.trans hcount
            shut := fun hshut => absurd hshut hopen
            unread := fun _ => hqueued
            read := hread }
      | unsubscribe id =>
        have hcount : p.state.events.countP ControlEvent.isUnsubscribe =
          events.countP ControlEvent.isUnsubscribe + 1 := hcount
        have hset : (p.receivers.set receiver (.returning id)).countP RecvPc.holds =
            p.receivers.countP RecvPc.holds + 1 :=
          countP_set_add RecvPc.holds (.returning id) hcall
        dsimp only at hs
        rw [checkedSub, if_pos (show 1 ≤ p.state.removals by omega)] at hs
        cases hs
        exact
          { h with
            permits := by
              show p.permits = p.subscriptions.countP holds +
                events.countP ControlEvent.isUnsubscribe +
                (p.receivers.set receiver _).countP RecvPc.holds +
                (p.closers.map Closer.permits).sum
              rw [hset]
              omega
            removals := by
              show p.state.removals - 1 = events.countP ControlEvent.isUnsubscribe
              omega
            shut := fun hshut => absurd hshut hopen
            capacity := fun _ => by
              show 2 * (p.state.active.size + (p.state.removals - 1)) ≤ p.state.eventsCapacity
              omega
            unread := fun _ => hqueued
            read := hread }

/-- `stop` and `complete` take the active registrations and the events out. -/
theorem close (ending : Ending) (stopping : Bool) : SourceWf (p.close ending stopping) :=
  { h with
    permits := by
      show p.permits = p.subscriptions.countP holds + 0 +
        p.receivers.countP RecvPc.holds + ((p.closers ++ [_]).map Closer.permits).sum
      rw [map_append, sum_append, map_singleton, sum_singleton]
      have hpermits := h.permits
      show _ = _ + _ + _ + (_ + p.state.events.countP ControlEvent.isUnsubscribe)
      omega
    removals := rfl
    shut := fun _ => ⟨rfl, rfl⟩
    capacity := nofun
    registered := nofun
    actives := nofun
    early := nofun
    known := fun id hid => by cases hid
    unread := nofun
    unclosed := fun hclosed => by cases hclosed }

theorem unwind {closer : Nat} {call : Closer} (call' : Closer)
    (permits : Nat) (hcall : p.closers[closer]? = some call)
    (hpermits : permits + call.permits = p.permits + call'.permits) :
    SourceWf { p with permits, closers := p.closers.set closer call' } :=
  { h with
    permits := by
      have hset := sum_map_set_add Closer.permits call' hcall
      have hbefore := h.permits
      show permits = p.subscriptions.countP holds +
        p.state.events.countP ControlEvent.isUnsubscribe + p.receivers.countP RecvPc.holds +
        ((p.closers.set closer call').map Closer.permits).sum
      omega
    unclosed := fun hclosed => by
      rw [h.unclosed hclosed] at hcall
      cases hcall }

theorem live : ¬ (p.aborted || p.underflow) = true := by
  rw [h.sound.1, h.sound.2.1]
  rintro ⟨⟩

theorem step {action : MultiplexedSource.Action} {p' : MultiplexedSource}
    (hs : p.step action = some p') : SourceWf p' := by
  unfold MultiplexedSource.step at hs
  rw [if_neg h.live] at hs
  cases action with
  | attach =>
    cases hs
    have hpermits := h.permits
    have happend (f : SubscriptionPc → Bool) :
        (p.subscriptions ++ [attached]).countP f =
        p.subscriptions.countP f + if f .attached then 1 else 0 := by
      rw [countP_append, countP_singleton]
    have hkeep {sub : Nat} {pc : SubscriptionPc} (hsub : p.subscriptions[sub]? = some pc) :
        (p.subscriptions ++ [attached])[sub]? = some pc := by
      rw [getElem?_append_left (List.getElem_of_getElem? hsub).1]
      exact hsub
    exact
      { h with
        permits := by
          show p.permits + 1 = (p.subscriptions ++ [_]).countP holds +
            p.state.events.countP ControlEvent.isUnsubscribe + p.receivers.countP RecvPc.holds +
            (p.closers.map Closer.permits).sum
          rw [happend, if_pos (by rfl)]
          omega
        registered := fun hclosed sub id hsub => by
          rcases getElem?_append_singleton_cases hsub with hsub | ⟨-, heq⟩
          · exact h.registered hclosed sub id hsub
          · cases heq
        actives := fun hclosed => (h.actives hclosed).trans (happend isLive).symm
        early := fun hclosed pc hpc => by
          rcases mem_append.mp hpc with hpc | hpc
          · exact h.early hclosed pc hpc
          · cases mem_singleton.mp hpc
            rfl
        owned := fun event hevent => by
          obtain ⟨sub, pc, hsub, hpc⟩ := h.owned event hevent
          exact ⟨sub, pc, hkeep hsub, hpc⟩
        history := fun sub pc id hsub hpc => by
          rcases getElem?_append_singleton_cases hsub with hsub | ⟨-, rfl⟩
          · exact h.history sub pc id hsub hpc
          · cases hpc }
  | abandon sub error =>
    dsimp only at hs
    split at hs
    case isTrue hsub =>
      cases hs
      exact h.fail hsub error
    case isFalse => cases hs
  | register sub input =>
    dsimp only at hs
    split at hs
    case isTrue hsub =>
      cases hs
      exact h.register hsub input
    case isFalse => cases hs
  | unregister sub =>
    dsimp only at hs
    split at hs
    case h_1 id hsub =>
      cases hs
      exact h.unregister hsub
    case h_2 => cases hs
  | drop sub =>
    dsimp only at hs
    split at hs
    case h_1 error hsub =>
      cases hs
      have hpos := h.permits_pos hsub rfl
      rw [release_of_pos hpos]
      exact h.repost hsub rfl rfl (fun _ => ⟨rfl, rfl, rfl⟩) (Nat.sub_add_cancel hpos)
    case h_2 id hsub =>
      cases hs
      have hpos := h.permits_pos hsub rfl
      rw [release_of_pos hpos]
      refine h.repost hsub rfl rfl (fun hclosed => ?_) (Nat.sub_add_cancel hpos)
      cases h.early hclosed _ (mem_of_getElem? hsub)
    case h_3 => cases hs
  | recv =>
    cases hs
    exact
      { h with
        permits := by
          show p.permits = p.subscriptions.countP holds +
            p.state.events.countP ControlEvent.isUnsubscribe +
            (p.receivers ++ [RecvPc.waiting]).countP RecvPc.holds +
            (p.closers.map Closer.permits).sum
          rw [countP_append]
          exact h.permits }
  | poll receiver timedOut =>
    dsimp only at hs
    split at hs
    case isTrue hcall => exact h.poll hcall hs
    case isFalse => cases hs
  | giveBack receiver =>
    dsimp only at hs
    split at hs
    case h_1 id hcall =>
      cases hs
      have hset : (p.receivers.set receiver (.returned (some (.unsubscribe id)))).countP
          RecvPc.holds + 1 = p.receivers.countP RecvPc.holds :=
        countP_set_add RecvPc.holds (.returned (some (.unsubscribe id))) hcall
      have hpermits := h.permits
      rw [release_of_pos (by omega)]
      exact
        { h with
          permits := by
            show p.permits - 1 = p.subscriptions.countP holds +
              p.state.events.countP ControlEvent.isUnsubscribe +
              (p.receivers.set receiver _).countP RecvPc.holds +
              (p.closers.map Closer.permits).sum
            omega }
    case h_2 => cases hs
  | stop =>
    cases hs
    exact h.close .cancelled true
  | complete error =>
    cases hs
    have hclose := h.close (.completed error) false
    unfold MultiplexedSource.complete
    dsimp only
    split
    case h_1 =>
      split
      case isTrue => exact { hclose with }
      case isFalse => exact hclose
    case h_2 => exact hclose
  | terminate closer =>
    simp only [MultiplexedSource.terminate, bind_eq_bind, bind_eq_some_iff] at hs
    obtain ⟨call, hcall, hs⟩ := hs
    split at hs
    case h_1 => cases hs
    case h_2 id active hactive =>
      cases hs
      have hunwound := h.unwind { call with active } p.permits hcall rfl
      exact { hunwound with }
  | discard closer =>
    simp only [MultiplexedSource.discard, bind_eq_bind, bind_eq_some_iff] at hs
    obtain ⟨call, hcall, hs⟩ := hs
    split at hs
    case h_1 id sub events hactive hevents =>
      cases hs
      refine h.unwind { call with events } p.permits hcall ?_
      rw [Closer.permits, Closer.permits, hevents]
      rfl
    case h_2 id events hactive hevents =>
      cases hs
      have hcount : call.permits = Closer.permits { call with events } + 1 := by
        rw [Closer.permits, Closer.permits, hevents]
        exact countP_cons
      have hsum := sum_map_set_add Closer.permits { call with events } hcall
      have hpermits := h.permits
      rw [release_of_pos (by omega)]
      refine h.unwind { call with events } (p.permits - 1) hcall ?_
      omega
    case h_3 => cases hs

-- ---- What the invariant says.

/-- The events of an id, in order, are its `Subscribe` and then its `Unsubscribe`, or the
first of them, or none. -/
theorem stream_of_id (id : Nat) :
    ∃ sub, ofId id p.queued <+: [.subscribe id sub, .unsubscribe id] := by
  cases hqueued : ofId id p.queued with
  | nil => exact ⟨0, nil_prefix⟩
  | cons event rest =>
    have hmem : event ∈ ofId id p.queued := by
      rw [hqueued]
      exact mem_cons_self
    obtain ⟨hevent, hid⟩ := mem_ofId.mp hmem
    obtain ⟨sub, pc, hsub, hpc⟩ := h.owned event hevent
    rw [hid] at hpc
    have htrace := (h.history sub pc id hsub hpc).2
    rw [hqueued] at htrace
    refine ⟨sub, ?_⟩
    rw [htrace]
    cases pc with
    | live | releasing | released =>
      cases hpc
      exact prefix_append [ControlEvent.subscribe id sub] [ControlEvent.unsubscribe id]
    | removed =>
      cases hpc
      exact prefix_refl _
    | attached | failing | refused => cases hpc

/-- The `Unsubscribe` of a subscription that went while the source was open. -/
theorem unsubscribed_once (hsub : p.subscriptions[sub]? = some (.removed id)) :
    p.queued.count (.unsubscribe id) = 1 := by
  have htrace := (h.history sub (.removed id) id hsub rfl).2
  have hcount : (ofId id p.queued).count (.unsubscribe id) = p.queued.count (.unsubscribe id) :=
    count_filter (beq_self_eq_true id)
  rw [← hcount, htrace]
  exact count_cons_self

end

theorem holds_of_early {l : List SubscriptionPc} (hearly : ∀ pc ∈ l, pc.isLate = false) :
    l.countP holds =
      l.countP isLive + l.countP isPending := by
  induction l with
  | nil => rfl
  | cons pc l ih =>
    have hrest := ih fun pc' hpc' => hearly pc' (mem_cons_of_mem pc hpc')
    have hpc := hearly pc mem_cons_self
    rw [countP_cons, countP_cons, countP_cons, hrest]
    cases pc with
    | releasing | released => cases hpc
    | attached | failing | refused | live | removed =>
      simp only [holds, isLive, isPending, if_true,
        Bool.false_eq_true, if_false]
      omega

/-- While the source is open, the permits are those of the active registrations, of the
queued removals, and of the calls that are part-way. -/
theorem open_permits (h : SourceWf p) (hclosed : p.state.closed = false) :
    p.permits = p.state.active.size + p.state.removals +
      (p.subscriptions.countP isPending + p.receivers.countP RecvPc.holds) := by
  have hpermits := h.permits
  rw [h.unclosed hclosed, holds_of_early (h.early hclosed), ← h.actives hclosed,
    ← h.removals] at hpermits
  rw [hpermits, map_nil, sum_nil]
  omega

end SourceWf

-- ---- The control stream.

namespace MultiplexedSource

/-- **The control stream of a multiplexed source.** In every interleaving:

* no id is issued twice, and the events of an id that were queued or delivered are, in
  order, a beginning of its `Subscribe` and its `Unsubscribe`;
* a subscription that was unregistered while the source was open has exactly one
  `Unsubscribe` queued;
* the removals counter is the number of queued `Unsubscribe`s and does not underflow;
* a permit is held by each subscription that is not finished and by each removal that is
  queued or taken out and not dropped yet; while the source is open, that is one for each
  active registration, for each queued removal and for each call that is part-way;
* the queue is at most twice as long as there are active registrations and queued
  removals, and no event is ever pushed on a full queue. -/
theorem control_stream {p : MultiplexedSource} (hp : Reachable step MultiplexedSource.new p) :
    p.issued.Nodup ∧
    (∀ id, ∃ sub, ofId id p.queued <+: [.subscribe id sub, .unsubscribe id] ∧
      ofId id p.delivered <+: [.subscribe id sub, .unsubscribe id]) ∧
    (∀ (sub id : Nat), p.subscriptions[sub]? = some (.removed id) →
      p.queued.count (.unsubscribe id) = 1) ∧
    (p.state.removals = p.state.events.countP ControlEvent.isUnsubscribe ∧ p.underflow = false) ∧
    (p.permits = p.subscriptions.countP SubscriptionPc.holds + p.state.removals +
        p.receivers.countP RecvPc.holds + (p.closers.map Closer.permits).sum ∧
      (p.state.closed = false → p.permits = p.state.active.size + p.state.removals +
          (p.subscriptions.countP SubscriptionPc.isPending + p.receivers.countP RecvPc.holds)) ∧
      p.aborted = false) ∧
    p.state.events.length ≤ 2 * (p.state.active.size + p.state.removals) ∧ p.grew = false := by
  have h : SourceWf p := hp.invariant (fun s a s' hs hstep => hs.step hstep) .new
  have hissued : p.issued.Nodup := by
    rw [h.issued.1]
    exact nodup_range'
  have hpermits := h.permits
  rw [← h.removals] at hpermits
  have hfits := h.fits
  refine ⟨hissued, fun id => ?_, fun sub id hsub => h.unsubscribed_once hsub,
    ⟨h.removals, h.sound.2.1⟩, ⟨hpermits, h.open_permits, h.sound.1⟩, by omega, h.sound.2.2⟩
  obtain ⟨sub, hstream⟩ := h.stream_of_id id
  exact ⟨sub, hstream, (h.read.filter _).trans hstream⟩

/-- Two subscriptions are registered; the first goes while its `Subscribe` is unread, the
producer reads both of its events, and the source stops with the second one live. -/
def reconnectRun : List Action :=
  [.attach, .register 0 ⟨some 2, true⟩, .attach, .register 1 ⟨some 4, true⟩, .unregister 0, .recv,
    .poll 0 false, .recv, .poll 1 false, .recv, .poll 2 false, .giveBack 2, .stop, .unregister 1]

theorem control_stream_reconnectRun : ∃ p, run step MultiplexedSource.new reconnectRun = some p ∧
      p.delivered = [.subscribe 1 0, .subscribe 2 1, .unsubscribe 1] ∧ p.issued.Nodup ∧
      p.queued.count (.unsubscribe 1) = 1 ∧ p.permits = 1 ∧ p.grew = false := by
  obtain ⟨p, hrun⟩ : ∃ p, run step MultiplexedSource.new reconnectRun = some p :=
    isSome_iff_exists.mp (by decide +kernel)
  have hp : (run step MultiplexedSource.new reconnectRun).map
      (fun p => (p.delivered, p.subscriptions, p.permits)) =
      some ([.subscribe 1 0, .subscribe 2 1, .unsubscribe 1], [.removed 1, .releasing 2], 1) := by
    decide +kernel
  rw [hrun] at hp
  simp only [map_some, some.injEq, Prod.mk.injEq] at hp
  have hstream := control_stream ⟨reconnectRun, hrun⟩
  refine ⟨p, hrun, hp.1, hstream.1, hstream.2.2.1 0 1 ?_, hp.2.2, hstream.2.2.2.2.2.2⟩
  rw [hp.2.1]
  rfl

/-- A source that stops gives up its active registrations at once; the subscription keeps
its permit until it is disconnected. -/
theorem permits_after_stop : ∃ p, Reachable step MultiplexedSource.new p ∧ p.permits = 1 ∧
      p.permits ≠ p.state.active.size + p.state.removals := by
  obtain ⟨p, hrun⟩ : ∃ p, run step MultiplexedSource.new
      [.attach, .register 0 ⟨some 2, true⟩, .stop, .terminate 0, .discard 0] = some p :=
    isSome_iff_exists.mp (by decide +kernel)
  have hp : (run step MultiplexedSource.new
      [.attach, .register 0 ⟨some 2, true⟩, .stop, .terminate 0, .discard 0]).map
      (fun p => (p.permits, p.state.active.size, p.state.removals)) = some (1, 0, 0) := by
    decide +kernel
  rw [hrun] at hp
  simp only [map_some, some.injEq, Prod.mk.injEq] at hp
  refine ⟨p, ⟨_, hrun⟩, hp.1, ?_⟩
  rw [hp.1, hp.2.1, hp.2.2]
  rintro ⟨⟩

end MultiplexedSource

end Xlfn.Subscription.Multiplex
