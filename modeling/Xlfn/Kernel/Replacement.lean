import Xlfn.Kernel.ReplaceableSlot

/-!
# Xlfn — replacing a service under its readers

The invariant of `ReplaceableSlot.lean` is kept by every step, and what follows
for readers and for the owners of services.

The argument is about one lane at a time: its pointer is stored while the lane
is drained, and taken away while it is drained again, so it cannot change under
a reader that has a permit; and the lane a replacement moves into is the one the
slot owns nothing in.
-/

namespace Xlfn.Kernel

open Lib StripedDrainGate GateSystem List Option

namespace ReplaceableServiceSlot

variable {w N : Nat} {s s' : ReplaceableServiceSlot w N}

@[simp] theorem setLane_self (s : ReplaceableServiceSlot w N) (lane : LaneIndex)
    (gate : GateSystem w N) : (s.setLane lane gate).lanes lane = gate := Function.update_self ..

variable {lane : LaneIndex} {gate : GateSystem w N} {x : SlotReader N} {t : SlotTransition}
  {stage : TransitionStage}

theorem setLane_ne (s : ReplaceableServiceSlot w N) {lane' : LaneIndex} (gate : GateSystem w N)
    (h : lane' ≠ lane) :
    (s.setLane lane gate).lanes lane' = s.lanes lane' := Function.update_of_ne h ..

/-- A property of both lanes survives a write that has it at the written one. -/
theorem forall_setLane {P : LaneIndex → GateSystem w N → Prop} (hall : ∀ l, P l (s.lanes l))
    (hlane : P lane gate) : ∀ l, P l ((s.setLane lane gate).lanes l) := by
  intro l
  by_cases h : l = lane
  · subst h
    rwa [setLane_self]
  · rw [setLane_ne s gate h]
    exact hall l

variable {k : Nat}

theorem ref_getElem? (hx : s.readers[k]? = some x) : (s.readers.map (·.ref))[k]? = some x.ref := by
  rw [getElem?_map, hx]
  rfl

-- ---- Readers keep the invariant.

/-- The stages speak of the gates only through the claims and the idle lanes. -/
theorem Stage.of_visits {lanes : LaneIndex → GateSystem w N} {readers : List (SlotReader N)}
    (h : s.Stage t) (hvisits : ∀ lane, Visits (s.lanes lane) (lanes lane)) :
    ({ s with lanes := lanes, readers := readers } : ReplaceableServiceSlot w N).Stage t := by
  have hun : s.Unclaimed → ∀ lane, (lanes lane).manager = none :=
    fun hu lane => (hvisits lane).manager.trans (hu lane)
  have hclaims : ∀ {errand lane stage}, s.Claims errand lane stage →
      errand.Inv (lanes lane) stage ∧ (lanes (!lane)).manager = none :=
    fun hc => ⟨hc.1.of_visits (hvisits _), (hvisits _).manager.trans hc.2⟩
  unfold Stage at h ⊢
  cases hstage : t.stage with
  | checkSealed candidate i | checkActive candidate i | checkLane candidate
  | precommit candidate | storePublished service | storeActive | withdraw =>
    rw [hstage] at h; exact ⟨hun h.1, h.2⟩
  | reopen stage => rw [hstage] at h; exact ⟨hclaims h.1, h.2⟩
  | sealPrevious stage | waitPrevious stage =>
    rw [hstage] at h
    obtain ⟨⟨previous, hp, hc⟩, hrest⟩ := h
    exact ⟨⟨previous, hp, hclaims hc⟩, hrest⟩
  | reclaim =>
    rw [hstage] at h
    exact ⟨hun h.1, fun previous hp i => (hvisits _).keep.stays (h.2.1 previous hp i), h.2.2⟩

/-- Readers change nothing but their own places and the words of the gates. -/
theorem Inv.of_visits (hinv : s.Inv) (lanes : LaneIndex → GateSystem w N)
    (readers : List (SlotReader N)) (hgates : ∀ lane, (lanes lane).Inv)
    (hvisits : ∀ lane, Visits (s.lanes lane) (lanes lane))
    (hplaces : Places (fun lane => (lanes lane).users.length) (readers.map (·.ref)))
    (hreaders : ∀ (k : Nat) x, readers[k]? = some x →
      ({ s with lanes := lanes, readers := readers } : ReplaceableServiceSlot w N).ReaderOk x) :
    ({ s with lanes := lanes, readers := readers } : ReplaceableServiceSlot w N).Inv :=
  { hinv with
    gates := hgates
    places := hplaces
    readersOk := hreaders
    unpublished lane hp i := (hvisits lane).keep.stays (hinv.unpublished lane hp i)
    stage t ht := (hinv.stage t ht).of_visits hvisits
    unclaimed ht lane := (hvisits lane).manager.trans (hinv.unclaimed ht lane) }

theorem ReaderOk.mono (h : s.ReaderOk x)
    (hholds : ∀ lane user, x.ref = some (lane, user) → s.Holds lane user → s'.Holds lane user)
    (hpublished : ∀ lane user, x.ref = some (lane, user) → s.Holds lane user →
      s'.published lane = s.published lane) : s'.ReaderOk x := by
  cases x with
  | validate stripe lane user | pointer stripe lane user => exact hholds lane user rfl h
  | reading lane user service =>
    exact ⟨hholds lane user rfl h.1, (hpublished lane user rfl h.1).trans h.2⟩
  | _ => exact trivial

theorem Inv.of_quiet (hinv : s.Inv) {x' : SlotReader N} (hx : s.readers[k]? = some x)
    (href : x'.ref = none ∨ x'.ref = x.ref) (hok : s.ReaderOk x') : (s.setReader k x').Inv := by
  refine hinv.of_visits s.lanes (s.readers.set k x') hinv.gates (fun _ => ⟨.refl _, rfl⟩) ?_ ?_
  · rw [map_set]
    refine hinv.places.set (href.imp_right fun h => ?_)
    rw [h]
    exact ref_getElem? hx
  · intro j y hy
    rcases getElem?_set_cases hx hy with ⟨rfl, rfl⟩ | ⟨hjk, hold⟩
    · exact ReaderOk.mono hok (fun _ _ _ h => h) (fun _ _ _ _ => rfl)
    · exact ReaderOk.mono (hinv.readersOk j y hold) (fun _ _ _ h => h) (fun _ _ _ _ => rfl)

theorem Inv.of_admit (hinv : s.Inv) (hx : s.readers[k]? = some x) {stripe : Fin N}
    (habort : (s.lanes lane).aborted = none) :
    ((s.setLane lane ((s.lanes lane).admitted stripe)).setReader k
      (.enter stripe lane (s.lanes lane).users.length)).Inv := by
  have hlen : ∀ l, (s.lanes l).users.length ≤
      ((s.setLane lane ((s.lanes lane).admitted stripe)).lanes l).users.length :=
    forall_setLane (P := fun l g => (s.lanes l).users.length ≤ g.users.length)
      (fun _ => Nat.le_refl _) (by simp [admitted])
  refine hinv.of_visits (s.setLane lane _).lanes (s.readers.set k _) ?_ ?_ ?_ ?_
  · exact forall_setLane (P := fun _ g => g.Inv) hinv.gates
      (admitted_inv (hinv.gates lane) stripe habort)
  · exact forall_setLane (P := fun l g => Visits (s.lanes l) g) (fun l => ⟨.refl _, rfl⟩)
      (admitted_visits stripe)
  · rw [List.map_set]
    refine hinv.places.set_fresh hlen ?_
    show _ < ((s.setLane lane _).lanes lane).users.length
    rw [setLane_self]
    simp [admitted]
  · intro j y hy
    rcases getElem?_set_cases hx hy with ⟨rfl, rfl⟩ | ⟨hjk, hold⟩
    · exact trivial
    · refine ReaderOk.mono (hinv.readersOk j y hold) ?_ (fun _ _ _ _ => rfl)
      rintro l u - ⟨st, hst⟩
      refine ⟨st, ?_⟩
      exact forall_setLane (P := fun l g => (s.lanes l).users[u]? = some (.holding st) →
        g.users[u]? = some (.holding st)) (fun _ h => h)
        (fun h => by
          obtain ⟨hlt, -⟩ := List.getElem_of_getElem? h
          exact (List.getElem?_append_left hlt).trans h) l hst

theorem Inv.of_user (hinv : s.Inv) {x' : SlotReader N} (hx : s.readers[k]? = some x) {user : Nat}
    (href : x.ref = some (lane, user))
    (hstep : (s.lanes lane).step .striped (.user user) = some gate)
    (href' : x'.ref = none ∨ x'.ref = x.ref)
    (hok : ∀ stripe, x' = .validate stripe lane user → gate.users[user]? = some (.holding stripe))
    (hshape : (∃ stripe, x' = .validate stripe lane user) ∨ ∀ s' : ReplaceableServiceSlot w N,
      s'.ReaderOk x') : ((s.setLane lane gate).setReader k x').Inv := by
  obtain ⟨hlen, hothers⟩ := users_of_user hstep
  refine hinv.of_visits (s.setLane lane gate).lanes (s.readers.set k x') ?_ ?_ ?_ ?_
  · exact forall_setLane (P := fun _ g => g.Inv) hinv.gates ((hinv.gates lane).step hstep)
  · exact forall_setLane (P := fun l g => Visits (s.lanes l) g) (fun l => ⟨.refl _, rfl⟩)
      (visits_of_user (hinv.gates lane) hstep)
  · rw [map_set]
    refine (hinv.places.set (href'.imp_right fun h => ?_)).mono ?_
    · rw [h]
      exact ref_getElem? hx
    · exact forall_setLane (P := fun l g => (s.lanes l).users.length ≤ g.users.length)
        (fun _ => Nat.le_refl _) (Nat.le_of_eq hlen.symm)
  · intro j y hy
    rcases getElem?_set_cases hx hy with ⟨rfl, rfl⟩ | ⟨hjk, hold⟩
    · rcases hshape with ⟨stripe, rfl⟩ | hany
      · exact ⟨stripe, by
          show ((s.setLane lane gate).lanes lane).users[user]? = _
          rw [setLane_self]
          exact hok stripe rfl⟩
      · exact hany _
    · refine ReaderOk.mono (hinv.readersOk j y hold) ?_ (fun _ _ _ _ => rfl)
      rintro l u hy' ⟨st, hst⟩
      refine ⟨st, ?_⟩
      by_cases hl : l = lane
      · subst hl
        show ((s.setLane l gate).lanes l).users[u]? = _
        rw [setLane_self]
        -- another reader has another place
        have hne : u ≠ user := by
          intro hu
          subst hu
          have hj := ref_getElem? (s := s) hold
          rw [hy'] at hj
          have hk := ref_getElem? (s := s) hx
          rw [href] at hk
          exact hjk (hinv.places.distinct j k _ hj hk)
        rw [hothers u hne]
        exact hst
      · show ((s.setLane lane gate).lanes l).users[u]? = _
        rw [setLane_ne s gate hl]
        exact hst

/-- **A permit keeps the pointer.** Where a reader has one, a service is published. -/
theorem Inv.published_of_holds (hinv : s.Inv) {user : Nat} (h : s.Holds lane user) :
    ∃ service, s.published lane = some service := by
  obtain ⟨stripe, hx⟩ := h
  cases hp : s.published lane with
  | some service => exact ⟨service, rfl⟩
  | none =>
    exact absurd (hinv.unpublished lane hp)
      ((hinv.gates lane).not_allIdle hx (i := stripe) (by simp [GateUser.holds]))

/-- **A step of a reader.** -/
theorem Inv.of_reader (hinv : s.Inv) (hgates : ∀ lane, (s.lanes lane).aborted = none)
    (h : s.readerStep k = some s') : s'.Inv := by
  -- the next access of a permit that is being dropped
  have hrelease : ∀ {x : SlotReader N} {lane user retry}, s.readers[k]? = some x →
      x.ref = some (lane, user) → s.releaseStep k lane user retry = some s' → s'.Inv := by
    intro x lane user retry hx href h
    unfold releaseStep at h
    obtain ⟨gate, hgate, rfl⟩ := map_eq_some_iff.mp h
    split
    next =>
      cases retry with
      | some stripe | none =>
        exact hinv.of_user hx href hgate (.inl rfl) nofun (.inr fun _ => trivial)
    next => exact hinv.of_user hx href hgate (.inr href.symm) nofun (.inr fun _ => trivial)
  unfold readerStep at h
  split at h
  next => cases h
  next stripe hx =>
    split at h
    next =>
      cases h
      exact hinv.of_quiet hx (.inl rfl) trivial
    next lane hactive =>
      cases h
      exact hinv.of_admit hx (hgates lane)
  next stripe lane user hx =>
    obtain ⟨gate, hgate, rfl⟩ := map_eq_some_iff.mp h
    split
    next hholding =>
      refine hinv.of_user hx rfl hgate (.inr rfl) ?_ (.inl ⟨stripe, rfl⟩)
      intro stripe' heq
      cases heq
      exact hholding
    next => exact hinv.of_user hx rfl hgate (.inl rfl) nofun (.inr fun _ => trivial)
  next stripe lane user hx =>
    cases h
    have hok : s.Holds lane user := hinv.readersOk k _ hx
    split
    · exact hinv.of_quiet hx (.inr rfl) hok
    · exact hinv.of_quiet hx (.inr rfl) trivial
  next stripe lane user hx =>
    have hok : s.Holds lane user := hinv.readersOk k _ hx
    obtain ⟨service, hp⟩ := hinv.published_of_holds hok
    rw [hp] at h
    cases h
    exact hinv.of_quiet hx (.inr rfl) ⟨hok, hp⟩
  next lane user service hx => exact hrelease hx rfl h
  next lane user retry hx => exact hrelease hx rfl h
  next => cases h

-- ---- Who owns what.

theorem held_of_transition (ht : s.transition = some t) :
    s.held = s.current.toList ++ t.previous.toList := by
  simp [held, ht]

section

variable (hinv : s.Inv) (ht : s.transition = some t)
include hinv ht

/-- The slot owns nothing in the lane a preparing transition is about to use. -/
theorem Inv.target_free (hcurrent : s.current = none) : s.published t.target = none := by
  rcases hinv.owners t.target with h | h
  · rw [h, ownerAt, held_of_transition ht, hcurrent]
    cases hp : t.previous with
    | none => rfl
    | some previous =>
      have htarget := hinv.target t ht previous hp
      have hne : (previous.index == t.target) = false := by
        rw [htarget]
        cases previous.index <;> rfl
      simp [hne]
  · exact h.1

/-- The previous service is published where it was until it is reclaimed. -/
theorem Inv.previous_published {previous : OwnedLane}
    (hp : t.previous = some previous) (hcurrent : s.current = none ∨ s.Replaced t) :
    s.published previous.index = some previous.owner := by
  have htarget := hinv.target t ht previous hp
  have howner : s.ownerAt previous.index = some previous.owner := by
    rw [ownerAt, held_of_transition ht, hp]
    rcases hcurrent with hnone | ⟨current, hc, hindex⟩
    · simp [hnone]
    · have hne : (current.index == previous.index) = false := by
        rw [hindex, htarget]
        cases previous.index <;> rfl
      simp [hc, hne]
  rcases hinv.owners previous.index with h | ⟨-, t', service, ht', -, hlane⟩
  · rw [h, howner]
  · rw [ht] at ht'
    cases ht'
    rw [htarget] at hlane
    cases hi : previous.index <;> rw [hi] at hlane <;> cases hlane

/-- Outside `storePublished` a lane publishes what it owns. -/
theorem Inv.owned (hstage : ∀ service, t.stage ≠ .storePublished service) (lane : LaneIndex) :
    s.published lane = s.ownerAt lane := by
  rcases hinv.owners lane with h | ⟨-, t', service, ht', hst, -⟩
  · exact h
  · rw [ht] at ht'
    cases ht'
    exact absurd hst (hstage service)

theorem Inv.target_published
    (hstage : ∀ service, t.stage ≠ .storePublished service) (hreplaced : s.Replaced t) :
    s.published t.target ≠ none := by
  obtain ⟨current, hc, hindex⟩ := hreplaced
  have howner : s.ownerAt t.target = some current.owner := by
    rw [ownerAt, held_of_transition ht, hc]
    simp [hindex]
  rw [hinv.owned ht hstage, howner]
  exact nofun

-- ---- Transitions keep the invariant.

theorem Inv.owners_goto (stage : TransitionStage)
    (hstage : ∀ service, t.stage ≠ .storePublished service) (lane : LaneIndex) :
    s.published lane = (s.goto t stage).ownerAt lane := by
  have hheld : (s.goto t stage).held = s.held := by
    rw [held_of_transition ht]
    rfl
  rw [ownerAt, hheld]
  exact hinv.owned ht hstage lane

theorem Inv.of_move
    (lanes : LaneIndex → GateSystem w N) (active : Option LaneIndex) (stage : TransitionStage)
    (hgates : ∀ lane, (lanes lane).Inv)
    (husers : ∀ lane, (lanes lane).users = (s.lanes lane).users)
    (hidle : ∀ lane, s.published lane = none → (lanes lane).gate.AllIdle)
    (hstage : ∀ service, t.stage ≠ .storePublished service)
    (hnext : ({ s with lanes := lanes, active := active }.goto t stage).Stage
      { t with stage := stage }) :
    ({ s with lanes := lanes, active := active }.goto t stage).Inv where
  gates := hgates
  places := hinv.places.mono fun lane => Nat.le_of_eq (by
    show _ = (lanes lane).users.length
    rw [husers])
  readersOk k x hx := by
    refine ReaderOk.mono (hinv.readersOk k x hx) ?_ (fun _ _ _ _ => rfl)
    rintro lane user - ⟨stripe, h⟩
    exact ⟨stripe, (congrArg (·[user]?) (husers lane)).trans h⟩
  unpublished := hidle
  owners lane := .inl (hinv.owners_goto ht stage hstage lane)
  notRetained := hinv.notRetained
  target t' ht' := by
    cases ht'
    exact hinv.target t ht
  stage t' ht' := by
    cases ht'
    exact hnext
  unclaimed h := by cases h
  conserved := by
    have h := hinv.conserved
    rw [held_of_transition ht] at h
    exact h
  fresh := hinv.fresh
  sound := hinv.sound

theorem Inv.of_goto (hstage : ∀ service, t.stage ≠ .storePublished service)
    (hnext : (s.goto t stage).Stage { t with stage := stage }) : (s.goto t stage).Inv :=
  hinv.of_move ht s.lanes s.active stage hinv.gates (fun _ => rfl) hinv.unpublished hstage hnext

/-- One step of a chain on the gate of a lane that publishes a service. -/
theorem Inv.of_drives (hgate : gate.Inv)
    (hdrives : Drives (s.lanes lane) gate) (hlane : s.published lane ≠ none)
    (hstage : ∀ service, t.stage ≠ .storePublished service)
    (hnext : ((s.setLane lane gate).goto t stage).Stage { t with stage := stage }) :
    ((s.setLane lane gate).goto t stage).Inv := by
  refine hinv.of_move ht (s.setLane lane gate).lanes s.active stage ?_ ?_ ?_ hstage hnext
  · exact forall_setLane (P := fun _ g => g.Inv) hinv.gates hgate
  · exact forall_setLane (P := fun l g => g.users = (s.lanes l).users) (fun _ => rfl) hdrives.users
  · exact forall_setLane (P := fun l g => s.published l = none → g.gate.AllIdle) hinv.unpublished
      fun h => absurd h hlane

theorem Inv.of_drive {errand : GateErrand}
    {stage : ErrandStage} (habort : (s.lanes lane).aborted = none)
    (hclaims : s.Claims errand lane stage) (hlane : s.published lane ≠ none)
    {running : ErrandStage → TransitionStage} {finished : TransitionStage}
    {out : Progress (GateSystem w N) ErrandStage}
    (hstage : ∀ service, t.stage ≠ .storePublished service)
    (hrunning : ∀ gate stage', ((s.setLane lane gate).goto t (running stage')).Claims errand lane
      stage' → ((s.setLane lane gate).goto t (running stage')).Stage { t with stage := running stage' })
    (hfinished : ∀ gate : GateSystem w N, errand.Post gate →
      ((s.setLane lane gate).goto t finished).Unclaimed →
      ((s.setLane lane gate).goto t finished).Stage { t with stage := finished })
    (hout : errand.step (s.lanes lane) stage = some out) :
    (s.drive t lane running finished out).Inv := by
  have hyields := GateErrand.step_yields (hinv.gates lane) habort hclaims.1 hout
  have hother : ∀ gate : GateSystem w N, ((s.setLane lane gate).lanes (!lane)).manager = none := by
    intro gate
    rw [setLane_ne s gate (by cases lane <;> decide)]
    exact hclaims.2
  cases out with
  | running gate stage' =>
    obtain ⟨hgate, hdrives, hinv'⟩ := hyields
    refine hinv.of_drives ht hgate hdrives hlane hstage (hrunning gate stage' ⟨?_, hother gate⟩)
    show errand.Inv ((s.setLane lane gate).lanes lane) stage'
    rw [setLane_self]
    exact hinv'
  | done gate ok =>
    obtain ⟨hgate, hdrives, hmanager, hpost⟩ := hyields
    refine hinv.of_drives ht hgate hdrives hlane hstage (hfinished gate hpost ?_)
    intro l
    show ((s.setLane lane gate).lanes l).manager = none
    by_cases hl : l = lane
    · subst hl
      rw [setLane_self]
      exact hmanager
    · have hl' : l = !lane := by cases l <;> cases lane <;> simp_all
      subst hl'
      exact hother gate
  | failStop => exact hyields.elim

end

/-- The pointer of a lane is changed while the lane is drained, so that no reader
with a permit of it notices. -/
theorem readersOk_setPublished (hinv : s.Inv) (hidle : (s.lanes lane).gate.AllIdle)
    {published : LaneIndex → Option Nat} (hother : ∀ l, l ≠ lane → published l = s.published l)
    (h : s.ReaderOk x) (hlanes : s'.lanes = s.lanes) (hpublished : s'.published = published) :
    s'.ReaderOk x := by
  refine ReaderOk.mono h (fun l u _ hh => ?_) (fun l u _ hh => ?_)
  · obtain ⟨stripe, hx⟩ := hh
    exact ⟨stripe, by rw [hlanes]; exact hx⟩
  · rw [hpublished]
    refine hother l ?_
    intro hl
    subst hl
    obtain ⟨stripe, hx⟩ := hh
    exact (hinv.gates l).not_allIdle hx (i := stripe) (by simp [GateUser.holds]) hidle

section

variable (hinv : s.Inv) (ht : s.transition = some t)
include hinv ht

theorem Inv.target_idle (hcurrent : s.current = none) : (s.lanes t.target).gate.AllIdle :=
  hinv.unpublished _ (hinv.target_free ht hcurrent)

/-- **`publish`, first half**: the candidate becomes the current owner. -/
theorem Inv.of_precommit {candidate : Nat}
    (hprep : s.Preparing t candidate) (hstage : ∀ service, t.stage ≠ .storePublished service) :
    ({ s with
      current   := some { index := t.target, owner := candidate }
      installed := s.installed ++ [candidate] }.goto t (.storePublished candidate)).Inv := by
  obtain ⟨hun, hcurrent, -, hlt, hnew⟩ := hprep
  have hfree := hinv.target_free ht hcurrent
  refine ⟨hinv.gates, hinv.places, ?_, hinv.unpublished, ?_, hinv.notRetained, ?_, ?_, nofun, ?_,
    ?_, hinv.sound⟩
  · exact fun k x hx =>
      ReaderOk.mono (hinv.readersOk k x hx) (fun _ _ _ h => h) (fun _ _ _ _ => rfl)
  · intro lane
    by_cases hlane : lane = t.target
    · subst hlane
      exact .inr ⟨hfree, _, candidate, rfl, rfl, rfl⟩
    · left
      have hne : (t.target == lane) = false := by simpa using Ne.symm hlane
      refine (hinv.owners_goto ht t.stage hstage lane).trans ?_
      simp [ownerAt, held, goto, hcurrent, hne]
  · intro t' ht'
    cases ht'
    exact hinv.target t ht
  · intro t' ht'
    cases ht'
    exact ⟨hun, rfl, hfree⟩
  · have hperm := hinv.conserved
    rw [held_of_transition ht, hcurrent] at hperm
    refine (hperm.append_right [candidate]).trans ?_
    show (s.retired ++ t.previous.toList.map _ ++ [candidate]).Perm
      (s.retired ++ (candidate :: t.previous.toList.map _))
    rw [append_assoc]
    exact List.Perm.append_left _ perm_append_comm
  · refine ⟨?_, ?_⟩
    · refine nodup_append.mpr ⟨hinv.fresh.1, nodup_singleton _, ?_⟩
      intro a ha b hb hab
      rw [mem_singleton] at hb
      subst hb hab
      exact hnew ha
    · intro service hs
      rcases mem_append.mp hs with hs | hs
      · exact hinv.fresh.2 service hs
      · rw [mem_singleton] at hs
        subst hs
        exact hlt

/-- **`publish`, second half**: the pointer is stored in the drained lane. -/
theorem Inv.of_storePublished {service : Nat}
    (hun : s.Unclaimed) (hcurrent : s.current = some { index := t.target, owner := service })
    (hfree : s.published t.target = none) :
    ((s.setPublished t.target (some service)).goto t (.reopen .claim)).Inv := by
  have hidle := hinv.unpublished _ hfree
  have hother : ∀ l, l ≠ t.target →
      Function.update s.published t.target (some service) l = s.published l :=
    fun l hl => Function.update_of_ne hl ..
  have hheld : ((s.setPublished t.target (some service)).goto t (.reopen .claim)).held = s.held := by
    rw [held_of_transition ht]
    rfl
  refine ⟨hinv.gates, hinv.places, ?_, ?_, ?_, hinv.notRetained, ?_, ?_, nofun, ?_, hinv.fresh,
    hinv.sound⟩
  · exact fun k x hx => readersOk_setPublished hinv hidle hother (hinv.readersOk k x hx) rfl rfl
  · intro lane hlane
    have hne : lane ≠ t.target := by
      intro h
      subst h
      have hsome : Function.update s.published t.target (some service) t.target = none := hlane
      rw [Function.update_self] at hsome
      cases hsome
    exact hinv.unpublished lane ((hother lane hne).symm.trans hlane)
  · intro lane
    left
    rw [ownerAt, hheld]
    by_cases hne : lane = t.target
    · subst hne
      refine (Function.update_self ..).trans ?_
      rw [held_of_transition ht, hcurrent]
      simp
    · refine (hother lane hne).trans ?_
      rcases hinv.owners lane with h | ⟨-, t', service', ht', -, hlane⟩
      · exact h
      · rw [ht] at ht'
        cases ht'
        exact absurd hlane hne
  · intro t' ht'
    cases ht'
    exact hinv.target t ht
  · intro t' ht'
    cases ht'
    exact ⟨⟨⟨hun _, hidle⟩, hun _⟩, _, hcurrent, rfl⟩
  · have h := hinv.conserved
    rw [← hheld] at h
    exact h

/-- **`reclaim`**: the drained lane is emptied and its service handed back. -/
theorem Inv.of_reclaim {previous : OwnedLane} (hp : t.previous = some previous) (hun : s.Unclaimed)
    (hidle : (s.lanes previous.index).gate.AllIdle) (hcurrent : s.current = none ∨ s.Replaced t)
    (hstage : ∀ service, t.stage ≠ .storePublished service) :
    ({ s.setPublished previous.index none with
      retired    := s.retired ++ [previous.owner]
      transition := none } : ReplaceableServiceSlot w N).Inv := by
  have htarget := hinv.target t ht previous hp
  have hother : ∀ l, l ≠ previous.index →
      Function.update s.published previous.index none l = s.published l :=
    fun l hl => Function.update_of_ne hl ..
  refine ⟨hinv.gates, hinv.places, ?_, ?_, ?_, hinv.notRetained, (fun _ ht => nomatch ht),
    (fun _ ht => nomatch ht), fun _ => hun, ?_,
    hinv.fresh, hinv.sound⟩
  · exact fun k x hx => readersOk_setPublished hinv hidle hother (hinv.readersOk k x hx) rfl rfl
  · intro lane hlane
    by_cases hne : lane = previous.index
    · subst hne
      exact hidle
    · exact hinv.unpublished lane ((hother lane hne).symm.trans hlane)
  · intro lane
    left
    show Function.update s.published previous.index none lane =
      ((s.current.toList ++ []).find? _).map _
    rw [append_nil]
    by_cases hne : lane = previous.index
    · subst hne
      rw [Function.update_self]
      rcases hcurrent with hnone | ⟨current, hc, hindex⟩
      · simp [hnone]
      · have hdiff : (current.index == previous.index) = false := by
          rw [hindex, htarget]
          cases previous.index <;> rfl
        simp [hc, hdiff]
    · have hdiff : (previous.index == lane) = false := by simpa using Ne.symm hne
      refine (hother lane hne).trans ((hinv.owners_goto ht t.stage hstage lane).trans ?_)
      show ((s.current.toList ++ t.previous.toList).find? _).map _ = _
      rw [hp, find?_append]
      simp [hdiff]
  · have hperm := hinv.conserved
    rw [held_of_transition ht, hp] at hperm
    refine hperm.trans ?_
    show (s.retired ++ (s.current.toList ++ [previous]).map _).Perm
      (s.retired ++ [previous.owner] ++ (s.current.toList ++ []).map _)
    rw [map_append, append_nil, append_assoc]
    exact List.Perm.append_left _ perm_append_comm

theorem Inv.of_unlock (hp : t.previous = none)
    (hun : s.Unclaimed) (hstage : ∀ service, t.stage ≠ .storePublished service) :
    ({ s with transition := none } : ReplaceableServiceSlot w N).Inv := by
  have hheld : s.held = s.current.toList := by
    rw [held_of_transition ht, hp]
    simp
  refine ⟨hinv.gates, hinv.places, ?_, hinv.unpublished, ?_, hinv.notRetained, (fun _ ht => nomatch ht),
    (fun _ ht => nomatch ht),
    fun _ => hun, ?_, hinv.fresh, hinv.sound⟩
  · exact fun k x hx =>
      ReaderOk.mono (hinv.readersOk k x hx) (fun _ _ _ h => h) (fun _ _ _ _ => rfl)
  · intro lane
    left
    refine (hinv.owners_goto ht t.stage hstage lane).trans ?_
    show ((s.current.toList ++ t.previous.toList).find? _).map _ = _
    rw [hp]
    rfl
  · have h := hinv.conserved
    rw [hheld] at h
    simpa [held] using h

end

theorem retire_stage {active : Option LaneIndex} (hun : s.Unclaimed)
    (hcurrent : s.current = none ∨ s.Replaced t) :
    ({ s with active := active }.goto t (retire t)).Stage { t with stage := retire t } := by
  unfold Stage retire
  cases hp : t.previous with
  | none => exact ⟨hun, nofun, hcurrent⟩
  | some previous => exact ⟨⟨previous, rfl, hun _, hun _⟩, hcurrent⟩

/-- **Transitions keep the invariant.** -/
theorem Inv.of_transition (hinv : s.Inv) (hgates : ∀ lane, (s.lanes lane).aborted = none)
    (ht : s.transition = some t) (h : s.transitionStep t = some s') : s'.Inv := by
  have hstage := hinv.stage t ht
  unfold transitionStep at h
  unfold Stage at hstage
  cases hst : t.stage with
  | checkSealed candidate i =>
    rw [hst] at h hstage
    have hnot : ∀ service, t.stage ≠ .storePublished service := by simp [hst]
    have hidle := hinv.target_idle ht hstage.2.1
    simp only [] at h
    split at h
    next hi =>
      have hs : isSealed ((s.lanes t.target).gate.counters ⟨i, hi⟩) = true := (hidle ⟨i, hi⟩).1
      rw [if_pos hs] at h
      cases h
      exact hinv.of_goto ht hnot hstage
    next =>
      cases h
      exact hinv.of_goto ht hnot hstage
  | checkActive candidate i =>
    rw [hst] at h hstage
    have hnot : ∀ service, t.stage ≠ .storePublished service := by simp [hst]
    have hidle := hinv.target_idle ht hstage.2.1
    simp only [] at h
    split at h
    next hi =>
      rw [if_pos (hidle ⟨i, hi⟩).2] at h
      cases h
      exact hinv.of_goto ht hnot hstage
    next =>
      cases h
      exact hinv.of_goto ht hnot hstage
  | checkLane candidate =>
    rw [hst] at h hstage
    have hnot : ∀ service, t.stage ≠ .storePublished service := by simp [hst]
    simp only [] at h
    rw [if_pos ⟨hinv.target_free ht hstage.2.1, hinv.notRetained _⟩] at h
    cases h
    exact hinv.of_goto ht hnot hstage
  | precommit candidate =>
    rw [hst] at h hstage
    cases h
    exact hinv.of_precommit ht hstage (by simp [hst])
  | storePublished service =>
    rw [hst] at h hstage
    cases h
    exact hinv.of_storePublished ht hstage.1 hstage.2.1 hstage.2.2
  | reopen stage =>
    rw [hst] at h hstage
    have hnot : ∀ service, t.stage ≠ .storePublished service := by simp [hst]
    obtain ⟨hclaims, hreplaced⟩ := hstage
    obtain ⟨out, hout, rfl⟩ := map_eq_some_iff.mp h
    exact hinv.of_drive ht (hgates _) hclaims (hinv.target_published ht hnot hreplaced) hnot
      (fun gate stage' hc => ⟨hc, hreplaced⟩) (fun gate _ hu => ⟨hu, hreplaced⟩) hout
  | storeActive =>
    rw [hst] at h hstage
    have hnot : ∀ service, t.stage ≠ .storePublished service := by simp [hst]
    cases h
    refine hinv.of_move ht s.lanes _ (retire t) hinv.gates (fun _ => rfl) hinv.unpublished hnot ?_
    exact retire_stage hstage.1 (.inr hstage.2)
  | withdraw =>
    rw [hst] at h hstage
    have hnot : ∀ service, t.stage ≠ .storePublished service := by simp [hst]
    cases h
    refine hinv.of_move ht s.lanes _ (retire t) hinv.gates (fun _ => rfl) hinv.unpublished hnot ?_
    exact retire_stage hstage.1 (.inl hstage.2)
  | sealPrevious stage =>
    rw [hst] at h hstage
    have hnot : ∀ service, t.stage ≠ .storePublished service := by simp [hst]
    obtain ⟨⟨previous, hp, hclaims⟩, hcurrent⟩ := hstage
    have hpub : s.published previous.index ≠ none := by
      rw [hinv.previous_published ht hp hcurrent]
      exact nofun
    rw [hp] at h
    obtain ⟨out, hout, rfl⟩ := map_eq_some_iff.mp h
    exact hinv.of_drive ht (hgates _) hclaims hpub hnot
      (fun gate stage' hc => ⟨⟨previous, hp, hc⟩, hcurrent⟩)
      (fun gate _ hu => ⟨⟨previous, hp, hu _, hu _⟩, hcurrent⟩) hout
  | waitPrevious stage =>
    rw [hst] at h hstage
    have hnot : ∀ service, t.stage ≠ .storePublished service := by simp [hst]
    obtain ⟨⟨previous, hp, hclaims⟩, hcurrent⟩ := hstage
    have hpub : s.published previous.index ≠ none := by
      rw [hinv.previous_published ht hp hcurrent]
      exact nofun
    rw [hp] at h
    obtain ⟨out, hout, rfl⟩ := map_eq_some_iff.mp h
    refine hinv.of_drive ht (hgates _) hclaims hpub hnot
      (fun gate stage' hc => ⟨⟨previous, hp, hc⟩, hcurrent⟩)
      (fun gate hpost hu => ⟨hu, fun previous' hp' => ?_, hcurrent⟩) hout
    have heq : previous = previous' := some.inj (hp.symm.trans hp')
    subst heq
    show ((s.setLane previous.index gate).lanes previous.index).gate.AllIdle
    rw [setLane_self]
    exact hpost
  | reclaim =>
    rw [hst] at h hstage
    have hnot : ∀ service, t.stage ≠ .storePublished service := by simp [hst]
    obtain ⟨hun, hidle, hcurrent⟩ := hstage
    cases hp : t.previous with
    | none =>
      rw [hp] at h
      cases h
      exact hinv.of_unlock ht hp hun hnot
    | some previous =>
      rw [hp] at h
      cases h
      exact hinv.of_reclaim ht hp hun (hidle previous hp) hcurrent hnot

-- ---- The machine.

/-- Taking the transition lock moves the current owner into the transition. -/
theorem Inv.of_lock (hinv : s.Inv) (hfree : s.transition = none) {candidates : Nat}
    (hle : s.candidates ≤ candidates)
    (hstage : ∀ t, ({ s.lock stage with candidates := candidates }).transition = some t →
      ({ s.lock stage with candidates := candidates }).Stage t) :
    ({ s.lock stage with candidates := candidates } : ReplaceableServiceSlot w N).Inv := by
  have hheld : ({ s.lock stage with candidates := candidates }).held = s.held := by
    simp [held, lock, hfree]
  refine ⟨hinv.gates, hinv.places, ?_, hinv.unpublished, ?_, hinv.notRetained, ?_, hstage, nofun,
    ?_, ⟨hinv.fresh.1, fun service hs => Nat.lt_of_lt_of_le (hinv.fresh.2 service hs) hle⟩,
    hinv.sound⟩
  · exact fun k x hx =>
      ReaderOk.mono (hinv.readersOk k x hx) (fun _ _ _ h => h) (fun _ _ _ _ => rfl)
  · intro lane
    left
    rw [ownerAt, hheld]
    rcases hinv.owners lane with h | ⟨-, t, service, ht, -⟩
    · exact h
    · rw [hfree] at ht
      cases ht
  · intro t ht previous hp
    cases ht
    have hcur : s.current = some previous := hp
    simp [hcur]
  · have h := hinv.conserved
    rw [← hheld] at h
    exact h

theorem Inv.of_precommitFails (hinv : s.Inv) (ht : s.transition = some t) {candidate : Nat}
    (hstage : t.stage = .precommit candidate) :
    ({ s with current := t.previous, transition := none } : ReplaceableServiceSlot w N).Inv ∧
    ({ s with current := t.previous, transition := none } : ReplaceableServiceSlot w N).view =
      t.before := by
  have hprep : s.Preparing t candidate := by
    have h := hinv.stage t ht
    unfold Stage at h
    rw [hstage] at h
    exact h
  obtain ⟨hun, hcurrent, hbefore, -, -⟩ := hprep
  have hheld : ({ s with current := t.previous, transition := none } :
      ReplaceableServiceSlot w N).held = s.held := by
    rw [held_of_transition ht, hcurrent]
    simp [held]
  have hnot : ∀ service, t.stage ≠ .storePublished service := by simp [hstage]
  refine ⟨⟨hinv.gates, hinv.places, ?_, hinv.unpublished, ?_, hinv.notRetained, (fun _ ht => nomatch ht),
    (fun _ ht => nomatch ht),
    fun _ => hun, ?_, hinv.fresh, hinv.sound⟩, hbefore.symm⟩
  · exact fun k x hx =>
      ReaderOk.mono (hinv.readersOk k x hx) (fun _ _ _ h => h) (fun _ _ _ _ => rfl)
  · intro lane
    left
    rw [ownerAt, hheld]
    exact hinv.owned ht hnot lane
  · have h := hinv.conserved
    rw [← hheld] at h
    exact h

/-- **The invariant is kept by every step.** -/
theorem Inv.step (hinv : s.Inv) {action : Action N} (h : s.step action = some s') : s'.Inv := by
  unfold ReplaceableServiceSlot.step at h
  split at h
  next => cases h
  next hguard =>
    have hgates : ∀ lane, (s.lanes lane).aborted = none := by
      intro lane
      cases ha : (s.lanes lane).aborted with
      | none => rfl
      | some why => exact absurd (.inr ⟨lane, by rw [ha]; rfl⟩) hguard
    cases action with
    | read stripe =>
      cases h
      refine ⟨hinv.gates, ?_, ?_, hinv.unpublished, hinv.owners, hinv.notRetained, hinv.target,
        hinv.stage, hinv.unclaimed, hinv.conserved, hinv.fresh, hinv.sound⟩
      · show Places _ ((s.readers ++ [_]).map _)
        rw [map_append]
        exact hinv.places.append
      · intro k x hx
        rcases getElem?_append_singleton_cases hx with hold | ⟨-, rfl⟩
        · exact ReaderOk.mono (hinv.readersOk k x hold) (fun _ _ _ h => h) (fun _ _ _ _ => rfl)
        · exact trivial
    | reader k => exact hinv.of_reader hgates h
    | replace =>
      simp only [] at h
      split at h
      next hnone =>
        cases h
        have hfree := isNone_iff_eq_none.mp hnone
        refine hinv.of_lock hfree (Nat.le_succ _) ?_
        intro t ht
        cases ht
        refine ⟨hinv.unclaimed hfree, rfl, rfl, Nat.lt_succ_self _, fun hmem => ?_⟩
        exact Nat.lt_irrefl _ (hinv.fresh.2 _ hmem)
      next => cases h
    | close =>
      simp only [] at h
      split at h
      next hnone =>
        cases h
        have hfree := isNone_iff_eq_none.mp hnone
        refine hinv.of_lock hfree (Nat.le_refl _) ?_
        intro t ht
        cases ht
        exact ⟨hinv.unclaimed hfree, rfl⟩
      next => cases h
    | transition =>
      simp only [] at h
      split at h
      next t ht => exact hinv.of_transition hgates ht h
      next => cases h
    | precommitFails =>
      simp only [] at h
      split at h
      next t ht =>
        split at h
        next candidate hst =>
          cases h
          exact (hinv.of_precommitFails ht hst).1
        next => cases h
      next => cases h

/-- **Replacing a service under its readers.** In every state that any
interleaving of reads, replacements, failing callbacks and closings reaches:

* a reader that has a read of a service holds a permit of the lane that publishes
  it, and the service has not been handed back;
* no `fail_stop` branch of `read_if_ready`, `prepare` or `publish` was taken;
* every installed service was handed back once, or the slot still owns it, and
  not both;
* a replacement whose callback fails leaves the active index, the published
  pointers and the owners as they were when it took the lock, and the gates and
  the services handed back as they are. -/
theorem replaceable_slot (h : Reachable step (new : ReplaceableServiceSlot w N) s) :
    (∀ (k : Nat) lane user service, s.readers[k]? = some (.reading lane user service) →
      s.Holds lane user ∧ s.published lane = some service ∧ service ∉ s.retired) ∧
    s.aborted = none ∧
    (s.installed.Nodup ∧ s.installed.Perm (s.retired ++ s.held.map (·.owner))) ∧
    (∀ t s', s.transition = some t → step s .precommitFails = some s' →
      s'.view = t.before ∧ s'.lanes = s.lanes ∧ s'.installed = s.installed ∧
        s'.retired = s.retired ∧ s'.transition = none) := by
  have hinv : s.Inv := Reachable.invariant (fun _ _ _ hi hs => hi.step hs) new_inv h
  refine ⟨?_, hinv.sound, ⟨hinv.fresh.1, hinv.conserved⟩, ?_⟩
  · intro k lane user service hk
    obtain ⟨hholds, hp⟩ := hinv.readersOk k _ hk
    refine ⟨hholds, hp, fun hretired => ?_⟩
    -- a published service is owned, and the owned are not among the handed back
    have hnodup : (s.retired ++ s.held.map (·.owner)).Nodup :=
      hinv.conserved.nodup_iff.mp hinv.fresh.1
    rcases hinv.owners lane with howner | ⟨hnone, -⟩
    · rw [hp, ownerAt] at howner
      obtain ⟨owned, hfind, rfl⟩ := map_eq_some_iff.mp howner.symm
      have hmem : owned.owner ∈ s.held.map (·.owner) :=
        mem_map_of_mem (mem_of_find?_eq_some hfind)
      exact (nodup_append.mp hnodup).2.2 _ hretired _ hmem rfl
    · rw [hnone] at hp
      cases hp
  · intro t s' ht hstep
    unfold step at hstep
    split at hstep
    next => cases hstep
    next =>
      simp only [ht] at hstep
      split at hstep
      next candidate hst =>
        cases hstep
        exact ⟨(hinv.of_precommitFails ht hst).2, rfl, rfl, rfl, rfl⟩
      next => cases hstep

/-- Two stripes. A first service is installed and read; a second replacement is
about to run its callback, which is going to fail. -/
def failingRun : List (Action 2) :=
  flatten [[.replace], .replicate 31 .transition,
    [.read ⟨0, Nat.two_pos⟩, .reader 0, .reader 0, .reader 0, .reader 0, .replace],
    .replicate 7 .transition]

theorem replaceable_slot_failingRun :
    ∃ s s' : ReplaceableServiceSlot 30 2, run step new failingRun = some s ∧
      step s .precommitFails = some s' ∧ s.readers = [.reading false 0 0] ∧
      s.published false = some 0 ∧ 0 ∉ s.retired ∧ s.aborted = none ∧
      ∃ t, s.transition = some t ∧ s'.view = t.before := by
  have hrun : ((run step (new : ReplaceableServiceSlot 30 2) failingRun).bind fun s =>
      (step s .precommitFails).map fun _ => (s.readers, s.transition.isSome)) =
      some ([.reading false 0 0], true) := by
    decide +kernel
  obtain ⟨s, hs, hval⟩ := bind_eq_some_iff.mp hrun
  obtain ⟨s', hs', hval⟩ := map_eq_some_iff.mp hval
  rw [Prod.mk.injEq] at hval
  obtain ⟨t, ht⟩ := isSome_iff_exists.mp hval.2
  obtain ⟨hreaders, hsound, -, hfails⟩ := replaceable_slot ⟨failingRun, hs⟩
  obtain ⟨-, hp, hnot⟩ := hreaders 0 false 0 0 (by rw [hval.1]; rfl)
  exact ⟨s, s', hs, hs', hval.1, hp, hnot, hsound, t, ht, (hfails t s' ht hs').1⟩

end ReplaceableServiceSlot

end Xlfn.Kernel
