import Xlfn.Handle.ObjectLifetime

/-!
# Xlfn — sealing an arena and finding it quiescent

`seal` and `finish_quiescence` hold all mutexes while they write or read the shards.
A section of a shard needs its mutex, so what a sweep has read stays true until it
unlocks; what it concluded stays true after that, because an object that is gone has
no capability and no entry from which a new one could be made.

* `Swept` — what one step of a sweep can do.
* `SweepWf` — what a sweep has established so far; kept by every step of the system.
-/

namespace Xlfn.Handle

open Lib Kernel ArenaSystem Function List Option

-- ---- One step of a sweep.

/-- The first step of a sweep that holds all mutexes. -/
def SweepKind.body : SweepKind → SweepPc
  | .seal => .sealing 0
  | .finishQuiescence => .pins 0

namespace ArenaSystem

/-- The system after a sweep `n` has moved on, with the shards in `states`. -/
def sweptTo (s : ArenaSystem) (n : Nat) (sweep : Sweep)
    (states : Fin objectShardCount → ObjectArenaState) : ArenaSystem :=
  { s with arena := { s.arena with states }, sweeps := s.sweeps.set n sweep }

end ArenaSystem

/-- **Inversion.** What one step of the sweep `n` does to the shards and where it
leaves the sweep. -/
inductive Swept (s : ArenaSystem) (n : Nat) (q : Sweep) :
    Sweep → (Fin objectShardCount → ObjectArenaState) → Prop
  | locked (i : Fin objectShardCount) (hpc : q.pc = .locking i)
    (hlock : (s.arena.states i).lock = none) :
    Swept s n q { q with pc := .locking (i + 1) }
      (Function.update s.arena.states i { s.arena.states i with lock := some n })
  | taken {next : Nat} (hpc : q.pc = .locking next) (hall : objectShardCount ≤ next) :
    Swept s n q ⟨q.kind, q.kind.body, s.inserted⟩ s.arena.states
  | closed (i : Fin objectShardCount) (hpc : q.pc = .sealing i) :
    Swept s n q { q with pc := .sealing (i + 1) }
      (Function.update s.arena.states i { s.arena.states i with isSealed := true })
  | closedAll {next : Nat} (hpc : q.pc = .sealing next) (hall : objectShardCount ≤ next) :
    Swept s n q { q with pc := .unlocking 0 (some (.ok ())) } s.arena.states
  | noPins (i : Fin objectShardCount) (hpc : q.pc = .pins i) :
    Swept s n q { q with pc := .pins (i + 1) } s.arena.states
  | pinsLeft {next : Nat} (hpc : q.pc = .pins next) :
    Swept s n q { q with pc := .unlocking 0 (some (.error (.internal .handlePins))) }
      s.arena.states
  | noPinsAll {next : Nat} (hpc : q.pc = .pins next) :
    Swept s n q { q with pc := .objects 0 } s.arena.states
  | noObjects (i : Fin objectShardCount) (hpc : q.pc = .objects i)
    (hkeys : (s.arena.states i).objects.keys = [])
    (hreleases : (s.arena.states i).activeReleases = 0) :
    Swept s n q { q with pc := .objects (i + 1) } s.arena.states
  | objectsLeft {next : Nat} (hpc : q.pc = .objects next) :
    Swept s n q { q with pc := .unlocking 0 (some (.error (.internal .handleObjects))) }
      s.arena.states
  | noObjectsAll {next : Nat} (hpc : q.pc = .objects next) (hall : objectShardCount ≤ next) :
    Swept s n q { q with pc := .unlocking 0 none } s.arena.states
  | unlocked (i : Fin objectShardCount) {result : Option (Except XllError Unit)}
    (hpc : q.pc = .unlocking i result) :
    Swept s n q { q with pc := .unlocking (i + 1) result }
      (Function.update s.arena.states i { s.arena.states i with lock := none })
  | returned {next : Nat} {result : Except XllError Unit}
    (hpc : q.pc = .unlocking next (some result)) :
    Swept s n q { q with pc := .done result } s.arena.states
  | quiet {next : Nat} (hpc : q.pc = .unlocking next none) :
    Swept s n q { q with pc := .cleanup } s.arena.states
  | cleaned (hpc : q.pc = .cleanup) :
    Swept s n q { q with pc := .done s.arena.cleanupResult } s.arena.states

variable {s s' : ArenaSystem} {n : Nat} {q q' : Sweep}
  {states : Fin objectShardCount → ObjectArenaState}

theorem Swept.of_sweep (hs : s.sweep n = some s') :
    ∃ q q' states, s.sweeps[n]? = some q ∧ Swept s n q q' states ∧
      s' = s.sweptTo n q' states := by
  unfold ArenaSystem.sweep at hs
  simp only [bind_eq_bind, bind_eq_some_iff] at hs
  obtain ⟨q, hq, hs⟩ := hs
  split at hs
  case h_1 next hpc =>
    split at hs
    · rename_i hlt
      simp only [bind_eq_some_iff, guard_eq_some', exists_const] at hs
      obtain ⟨hlock, hs⟩ := hs
      cases hs
      exact ⟨q, _, _, hq, .locked ⟨next, hlt⟩ hpc (isNone_iff_eq_none.mp hlock), rfl⟩
    · rename_i hge
      cases hs
      refine ⟨q, _, _, hq, .taken hpc (Nat.le_of_not_lt hge), ?_⟩
      rw [ArenaSystem.sweptTo]
      cases q.kind <;> rfl
  case h_2 next hpc =>
    split at hs
    · rename_i hlt
      cases hs
      exact ⟨q, _, _, hq, .closed ⟨next, hlt⟩ hpc, rfl⟩
    · rename_i hge
      cases hs
      exact ⟨q, _, _, hq, .closedAll hpc (Nat.le_of_not_lt hge), rfl⟩
  case h_3 next hpc =>
    split at hs
    · rename_i hlt
      split at hs
      · cases hs
        exact ⟨q, _, _, hq, .pinsLeft hpc, rfl⟩
      · cases hs
        exact ⟨q, _, _, hq, .noPins ⟨next, hlt⟩ hpc, rfl⟩
    · cases hs
      exact ⟨q, _, _, hq, .noPinsAll hpc, rfl⟩
  case h_4 next hpc =>
    split at hs
    · rename_i hlt
      split at hs
      · cases hs
        exact ⟨q, _, _, hq, .objectsLeft hpc, rfl⟩
      · rename_i hempty
        obtain ⟨hkeys, hreleases⟩ := not_or.mp hempty
        cases hs
        exact ⟨q, _, _, hq, .noObjects ⟨next, hlt⟩ hpc (not_not.mp hkeys) (not_not.mp hreleases),
          rfl⟩
    · rename_i hge
      cases hs
      exact ⟨q, _, _, hq, .noObjectsAll hpc (Nat.le_of_not_lt hge), rfl⟩
  case h_5 next result hpc =>
    split at hs
    · rename_i hlt
      cases hs
      exact ⟨q, _, _, hq, .unlocked ⟨next, hlt⟩ hpc, rfl⟩
    · split at hs
      · cases hs
        exact ⟨q, _, _, hq, .returned hpc, rfl⟩
      · cases hs
        exact ⟨q, _, _, hq, .quiet hpc, rfl⟩
  case h_6 hpc =>
    cases hs
    exact ⟨q, _, _, hq, .cleaned hpc, rfl⟩
  case h_7 => cases hs

theorem update_keeps {β : Type} (f : ObjectArenaState → β) {j : Fin objectShardCount}
    {state : ObjectArenaState} (hf : f state = f (states j)) (i : Fin objectShardCount) :
    f (update states j state i) = f (states i) := by
  by_cases hij : i = j
  · subst hij
    rw [update_self, hf]
  · rw [update_of_ne hij]

namespace Swept

theorem counters (h : Swept s n q q' states) (i : Fin objectShardCount) :
    (states i).objects = (s.arena.states i).objects ∧
      (states i).activePins = (s.arena.states i).activePins ∧
      (states i).activeReleases = (s.arena.states i).activeReleases := by
  have hkeep : ∀ (j : Fin objectShardCount) (state : ObjectArenaState),
      state.objects = (s.arena.states j).objects →
      state.activePins = (s.arena.states j).activePins →
      state.activeReleases = (s.arena.states j).activeReleases →
      (update s.arena.states j state i).objects = (s.arena.states i).objects ∧
      (update s.arena.states j state i).activePins = (s.arena.states i).activePins ∧
      (update s.arena.states j state i).activeReleases =
        (s.arena.states i).activeReleases :=
    fun j state ho hp hr => ⟨update_keeps (·.objects) ho i, update_keeps (·.activePins) hp i,
      update_keeps (·.activeReleases) hr i⟩
  cases h
  case locked j hpc hlock => exact hkeep j _ rfl rfl rfl
  case closed j hpc => exact hkeep j _ rfl rfl rfl
  case unlocked j result hpc => exact hkeep j _ rfl rfl rfl
  all_goals exact ⟨rfl, rfl, rfl⟩

theorem seals (h : Swept s n q q' states) (i : Fin objectShardCount)
    (hi : (s.arena.states i).isSealed = true) : (states i).isSealed = true := by
  cases h
  case locked j hpc hlock => exact (update_keeps (·.isSealed) (by rfl) i).trans hi
  case unlocked j result hpc => exact (update_keeps (·.isSealed) (by rfl) i).trans hi
  case closed j hpc =>
    by_cases hij : i = j
    · rw [hij, update_self]
    · rw [update_of_ne hij]
      exact hi
  all_goals exact hi

/-- A sweep takes note of the inserted objects when it has the last mutex, and keeps
that note. -/
theorem seen (h : Swept s n q q' states) : (∃ next, q'.pc = .locking next) ∨ q'.seen = s.inserted ∨
      (q'.seen = q.seen ∧ ∀ next, q.pc ≠ .locking next) := by
  cases h
  case locked i hpc hlock => exact .inl ⟨_, rfl⟩
  case taken => exact .inr (.inl rfl)
  all_goals
    have hpc := ‹q.pc = _›
    refine .inr (.inr ⟨rfl, fun next hlocking => ?_⟩)
    rw [hlocking] at hpc
    cases hpc

end Swept

theorem CountsWf.swept (h : CountsWf s) (hswept : Swept s n q q' states) :
    CountsWf (s.sweptTo n q' states) :=
  h.congr hswept.counters _

/-- **Every step keeps the counters.** -/
theorem CountsWf.moved (h : CountsWf s) (hs : Moved s s') : CountsWf s' := by
  cases hs
  case refused => exact h
  case reserved session => exact h.reserved session
  case discarded hn => exact h.discarded hn
  case inserted cell hn _ _ => exact h.inserted cell hn
  case duplicated hentry _ _ => exact h.duplicated hentry
  case pinned hentry _ _ => exact h.pinned hentry
  case unbound hn hentry _ hmore => exact h.unbound hn hentry hmore
  case unboundLast hn hentry _ hlast => exact h.unboundLast hn hentry hlast
  case unpinned hn hentry _ hmore => exact h.unpinned hn hentry hmore
  case unpinnedObserved hn hentry _ hmore => exact h.unpinnedObserved hn hentry hmore
  case unpinnedLast observed n c entry hn hentry _ hlast => exact h.unpinnedLast observed hn hentry hlast
  case recorded hn howes =>
    refine h.goto_release hn _ rfl (fun id' => ?_) rfl rfl ⟨rfl, rfl, rfl, rfl, rfl, rfl⟩
    rw [howes]
  case destroyed hn howes hdone =>
    refine h.goto_release hn _ rfl (fun id' => ?_) rfl rfl ⟨rfl, rfl, rfl, rfl, rfl, rfl⟩
    rw [hdone, howes]
    simp only [count_append_singleton, Bool.false_eq_true, and_false, if_false, and_true]
    rfl
  case reported hn howes =>
    refine h.goto_release hn .finishing rfl (fun id' => ?_) rfl rfl ⟨rfl, rfl, rfl, rfl, rfl, rfl⟩
    rw [howes]
    rfl
  case finished hn howes _ => exact h.finished hn howes
  case started kind => exact ⟨h.running, h.tallies, h.pins, h.releases, h.fate, h.unique, h.issued⟩
  case swept n hs =>
    obtain ⟨q, q', states, -, hswept, rfl⟩ := Swept.of_sweep hs
    exact h.swept hswept

-- ---- What a sweep has established.

/-- Nothing is left of an inserted object: no entry, and no release call of its. -/
def ArenaSystem.Gone (s : ArenaSystem) (id : ObjectId) : Prop :=
  id ∈ s.inserted ∧ s.arena.entry id = none ∧ ∀ r ∈ s.releases, r.id ≠ id

/-- What a sweep that has left its shards with this result tells about the arena. -/
def Concluded (s : ArenaSystem) (q : Sweep) (result : Option (Except XllError Unit)) : Prop :=
  (q.kind = .seal → ∀ i, (s.arena.states i).isSealed = true) ∧
  (q.kind = .finishQuiescence → (∀ e, result ≠ some (.error e)) → ∀ id ∈ q.seen, s.Gone id)

/-- The sweep `n` holds the mutex of every shard. -/
def HoldsAll (s : ArenaSystem) (n : Nat) : Prop := ∀ i, (s.arena.states i).lock = some n

/-- The mutexes a sweep holds, and what it has found or written so far. -/
def SweepWf (s : ArenaSystem) (n : Nat) (q : Sweep) : Prop :=
  match q.pc with
  | .locking next => ∀ i : Fin objectShardCount, i < next → (s.arena.states i).lock = some n
  | .sealing next => q.kind = .seal ∧ HoldsAll s n ∧
    ∀ i : Fin objectShardCount, i < next → (s.arena.states i).isSealed = true
  | .pins _ => q.kind = .finishQuiescence ∧ HoldsAll s n ∧ q.seen = s.inserted
  | .objects next => q.kind = .finishQuiescence ∧ HoldsAll s n ∧ q.seen = s.inserted ∧
    ∀ i : Fin objectShardCount, i < next →
      (s.arena.states i).objects.keys = [] ∧ (s.arena.states i).activeReleases = 0
  | .unlocking next result =>
    (∀ i : Fin objectShardCount, next ≤ i → (s.arena.states i).lock = some n) ∧
      Concluded s q result
  | .cleanup => Concluded s q none
  | .done result => Concluded s q (some result)

/-- What a step of the others leaves to the sweep `n`. -/
structure Frame (s s' : ArenaSystem) (n : Nat) : Prop where
  locks : ∀ i, (s.arena.states i).lock = some n → (s'.arena.states i).lock = some n
  seals : ∀ i, (s.arena.states i).isSealed = true → (s'.arena.states i).isSealed = true
  still : HoldsAll s n → s'.inserted = s.inserted ∧ ∀ i,
    (s'.arena.states i).objects = (s.arena.states i).objects ∧
      (s'.arena.states i).activeReleases = (s.arena.states i).activeReleases
  gone  : ∀ id, s.Gone id → s'.Gone id

theorem Concluded.frame {result : Option (Except XllError Unit)} (h : Concluded s q result)
    (hf : Frame s s' n) : Concluded s' q result :=
  ⟨fun hk i => hf.seals i (h.1 hk i), fun hk hr id hid => hf.gone id (h.2 hk hr id hid)⟩

theorem SweepWf.frame (h : SweepWf s n q) (hf : Frame s s' n) : SweepWf s' n q := by
  unfold SweepWf at h ⊢
  split
  case h_1 next hpc =>
    rw [hpc] at h
    exact fun i hi => hf.locks i (h i hi)
  case h_2 next hpc =>
    rw [hpc] at h
    exact ⟨h.1, fun i => hf.locks i (h.2.1 i), fun i hi => hf.seals i (h.2.2 i hi)⟩
  case h_3 next hpc =>
    rw [hpc] at h
    exact ⟨h.1, fun i => hf.locks i (h.2.1 i), h.2.2.trans (hf.still h.2.1).1.symm⟩
  case h_4 next hpc =>
    rw [hpc] at h
    obtain ⟨hkind, hall, hseen, hempty⟩ := h
    refine ⟨hkind, fun i => hf.locks i (hall i), hseen.trans (hf.still hall).1.symm, fun i hi => ?_⟩
    obtain ⟨hobjects, hreleases⟩ := (hf.still hall).2 i
    rw [hobjects, hreleases]
    exact hempty i hi
  case h_5 next result hpc =>
    rw [hpc] at h
    exact ⟨fun i hi => hf.locks i (h.1 i hi), h.2.frame hf⟩
  case h_6 hpc =>
    rw [hpc] at h
    exact Concluded.frame h hf
  case h_7 result hpc =>
    rw [hpc] at h
    exact Concluded.frame h hf

-- ---- The frame of every step.

variable {id : ObjectId}

namespace Frame

variable {state : ObjectArenaState}

theorem of_still (hstates : s'.arena.states = s.arena.states) (hinserted : s'.inserted = s.inserted)
    (hreleases : ∀ r ∈ s'.releases, ∃ r' ∈ s.releases, r'.id = r.id) : Frame s s' n where
  locks := by rw [hstates]; exact fun _ h => h
  seals := by rw [hstates]; exact fun _ h => h
  still := by rw [hstates]; exact fun _ => ⟨hinserted, fun _ => ⟨rfl, rfl⟩⟩
  gone := by
    rintro id ⟨hmem, hentry, hcalls⟩
    refine ⟨hinserted ▸ hmem, ?_, fun r hr heq => ?_⟩
    · rw [ObjectArena.entry, ObjectArena.state, hstates]
      exact hentry
    · obtain ⟨r', hr', hid⟩ := hreleases r hr
      exact hcalls r' hr' (hid.trans heq)

/-- A section of the shard of an object that is not gone. It runs while no sweep
holds the shard's mutex. -/
theorem of_section (hlock : (s.arena.state id).lock = none) (halive : ¬s.Gone id)
    (harena : s'.arena = (s.store id state).arena)
    (hmarks : state.lock = (s.arena.state id).lock ∧ state.isSealed = (s.arena.state id).isSealed)
    (hentries : ∀ id' ≠ id, (s.store id state).arena.entry id' = s.arena.entry id')
    (hinserted : ∀ id' ∈ s.inserted, id' ∈ s'.inserted)
    (hreleases : ∀ r ∈ s'.releases, r ∈ s.releases ∨ r.id = id) : Frame s s' n where
  locks := by
    intro i hi
    rw [harena]
    exact (states_store_same (·.lock) hmarks.1 i).trans hi
  seals := by
    intro i hi
    rw [harena]
    exact (states_store_same (·.isSealed) hmarks.2 i).trans hi
  still := by
    intro hall
    have hheld := hall id.shardIndex
    rw [ObjectArena.state] at hlock
    rw [hlock] at hheld
    cases hheld
  gone := by
    rintro id' ⟨hmem, hentry, hcalls⟩
    have hne : id' ≠ id := by
      rintro rfl
      exact halive ⟨hmem, hentry, hcalls⟩
    refine ⟨hinserted id' hmem, ?_, fun r hr heq => ?_⟩
    · rw [harena, hentries id' hne]
      exact hentry
    · rcases hreleases r hr with hr | hr
      · exact hcalls r hr heq
      · exact hne (heq.symm.trans hr)

/-- A step of another sweep. It takes a free mutex, or gives back one of its own. -/
theorem of_swept {m : Nat} (hwf : SweepWf s m q) (h : Swept s m q q' states) (hne : n ≠ m) :
    Frame s (s.sweptTo m q' states) n where
  locks := by
    intro i hi
    show (states i).lock = some n
    cases h
    case locked j hpc hlock =>
      have hij : i ≠ j := by
        rintro rfl
        rw [hlock] at hi
        cases hi
      rw [update_of_ne hij]
      exact hi
    case unlocked j result hpc =>
      have hij : i ≠ j := by
        rintro rfl
        unfold SweepWf at hwf
        rw [hpc] at hwf
        exact hne (some.inj (hi.symm.trans (hwf.1 i (Nat.le_refl _))))
      rw [update_of_ne hij]
      exact hi
    case closed j hpc => exact (update_keeps (·.lock) (by rfl) i).trans hi
    all_goals exact hi
  seals := fun i hi => h.seals i hi
  still := fun _ => ⟨rfl, fun i => ⟨(h.counters i).1, (h.counters i).2.2⟩⟩
  gone := by
    rintro id ⟨hmem, hentry, hcalls⟩
    refine ⟨hmem, ?_, hcalls⟩
    show (states id.shardIndex).objects.lookup id = none
    rw [(h.counters _).1]
    exact hentry

end Frame

-- ---- Every step keeps what the sweeps know.

theorem CountsWf.gone_of_empty (h : CountsWf s)
    (hempty : ∀ i, (s.arena.states i).objects.keys = [] ∧ (s.arena.states i).activeReleases = 0) (hid : id ∈ s.inserted) : s.Gone id := by
  refine ⟨hid, ?_, fun r hr _ => ?_⟩
  · cases hentry : s.arena.entry id with
    | none => rfl
    | some entry =>
      have hkey := Table.mem_keys_of_lookup hentry
      rw [ObjectArena.state, (hempty _).1] at hkey
      cases hkey
  · have hcount := h.releases r.id.shardIndex
    rw [(hempty _).2, eq_comm, countP_eq_zero] at hcount
    exact hcount r hr (beq_self_eq_true _)

theorem SweepWf.swept (hcounts : CountsWf s) (hwf : SweepWf s n q) (h : Swept s n q q' states) :
    SweepWf (s.sweptTo n q' states) n q' := by
  have hgone : ∀ id, s.Gone id → (s.sweptTo n q' states).Gone id := by
    rintro id ⟨hmem, hentry, hcalls⟩
    refine ⟨hmem, ?_, hcalls⟩
    show (states id.shardIndex).objects.lookup id = none
    rw [(h.counters _).1]
    exact hentry
  unfold SweepWf at hwf
  cases h
  case locked j hpc hlock =>
    rw [hpc] at hwf
    intro i hi
    show (update s.arena.states j _ i).lock = some n
    by_cases hij : i = j
    · rw [hij, update_self]
    · rw [update_of_ne hij]
      have hval : i.val ≠ j.val := fun hval => hij (Fin.ext hval)
      exact hwf i (by omega)
  case taken next hpc hall =>
    rw [hpc] at hwf
    have hheld : ∀ i : Fin objectShardCount, (s.arena.states i).lock = some n :=
      fun i => hwf i (Nat.lt_of_lt_of_le i.isLt hall)
    obtain ⟨kind, pc, seen⟩ := q
    cases kind
    · exact ⟨rfl, hheld, fun i hi => absurd hi (Nat.not_lt_zero _)⟩
    · exact ⟨rfl, hheld, rfl⟩
  case closed j hpc =>
    rw [hpc] at hwf
    obtain ⟨hkind, hheld, hsealed⟩ := hwf
    refine ⟨hkind, fun i => (update_keeps (·.lock) (by rfl) i).trans (hheld i), fun i hi => ?_⟩
    show (update s.arena.states j _ i).isSealed = true
    by_cases hij : i = j
    · rw [hij, update_self]
    · rw [update_of_ne hij]
      have hval : i.val ≠ j.val := fun hval => hij (Fin.ext hval)
      exact hsealed i (by omega)
  case closedAll next hpc hall =>
    rw [hpc] at hwf
    obtain ⟨hkind, hheld, hsealed⟩ := hwf
    refine ⟨fun i _ => hheld i, fun _ i => hsealed i (Nat.lt_of_lt_of_le i.isLt hall), ?_⟩
    intro hfinish
    rw [show q.kind = .seal from hkind] at hfinish
    cases hfinish
  case noPins j hpc =>
    rw [hpc] at hwf
    exact hwf
  case noPinsAll next hpc =>
    rw [hpc] at hwf
    obtain ⟨hkind, hheld, hseen⟩ := hwf
    exact ⟨hkind, hheld, hseen, fun i hi => absurd hi (Nat.not_lt_zero _)⟩
  case noObjects j hpc hkeys hreleases =>
    rw [hpc] at hwf
    obtain ⟨hkind, hheld, hseen, hempty⟩ := hwf
    refine ⟨hkind, hheld, hseen, fun i hi => ?_⟩
    by_cases hij : i = j
    · rw [hij]
      exact ⟨hkeys, hreleases⟩
    · have hval : i.val ≠ j.val := fun hval => hij (Fin.ext hval)
      exact hempty i (by omega)
  case pinsLeft next hpc | objectsLeft next hpc =>
    rw [hpc] at hwf
    obtain ⟨hkind, hheld, -⟩ := hwf
    refine ⟨fun i _ => hheld i, fun hseal => ?_, fun _ hok => absurd rfl (hok _)⟩
    rw [show q.kind = .finishQuiescence from hkind] at hseal
    cases hseal
  case noObjectsAll next hpc hall =>
    rw [hpc] at hwf
    obtain ⟨hkind, hheld, hseen, hempty⟩ := hwf
    refine ⟨fun i _ => hheld i, fun hseal => ?_, fun _ _ id hid => ?_⟩
    · rw [show q.kind = .finishQuiescence from hkind] at hseal
      cases hseal
    · exact hgone id (hcounts.gone_of_empty
        (fun i => hempty i (Nat.lt_of_lt_of_le i.isLt hall)) (hseen ▸ hid))
  case unlocked j result hpc =>
    rw [hpc] at hwf
    obtain ⟨hheld, hseals, hconcluded⟩ := hwf
    refine ⟨fun i hi => ?_, fun hk i => ?_, fun hk hr id hid => hgone id (hconcluded hk hr id hid)⟩
    · show (update s.arena.states j _ i).lock = some n
      have hval : i.val ≠ j.val := by
        have hle : j.val + 1 ≤ i.val := hi
        omega
      rw [update_of_ne fun hij => hval (congrArg Fin.val hij)]
      exact hheld i (Nat.le_of_succ_le hi)
    · exact (update_keeps (·.isSealed) (by rfl) i).trans (hseals hk i)
  case returned next result hpc =>
    rw [hpc] at hwf
    exact hwf.2
  case quiet next hpc =>
    rw [hpc] at hwf
    exact hwf.2
  case cleaned hpc =>
    rw [hpc] at hwf
    refine ⟨hwf.1, fun hk _ => hwf.2 hk ?_⟩
    rintro e ⟨⟩

/-- The invariant of the system. -/
structure ArenaInv (s : ArenaSystem) : Prop where
  counts : CountsWf s
  sweeps : ∀ n q, s.sweeps[n]? = some q → SweepWf s n q
  calls  : ∀ r ∈ s.releases, r.id ∈ s.inserted

namespace ArenaInv

variable {usizeMax : Nat}

theorem new : ArenaInv ArenaSystem.new where
  counts := by
    refine ⟨rfl, fun id => ?_, fun i => rfl, fun i => rfl, fun id => rfl, fun id => Nat.zero_le _,
      fun id hpos => absurd hpos (Nat.lt_irrefl 0)⟩
    exact ⟨rfl, rfl⟩
  sweeps := fun n q hq => by cases hq
  calls := fun r hr => by cases hr

theorem inserted_of_entry (h : CountsWf s) {entry : ObjectEntry}
    (hentry : s.arena.entry id = some entry) : id ∈ s.inserted ∧ ¬s.Gone id := by
  have hfate := h.fate id
  rw [hentry, present] at hfate
  refine ⟨count_pos_iff.mp (by omega), fun hgone => ?_⟩
  obtain ⟨-, hnone, -⟩ := hgone
  rw [hentry] at hnone
  cases hnone

theorem of_frame (h : ArenaInv s) (hcounts : CountsWf s') (hsweeps : s'.sweeps = s.sweeps)
    (hframe : ∀ n, Frame s s' n) (hcalls : ∀ r ∈ s'.releases, r.id ∈ s'.inserted) : ArenaInv s' :=
  ⟨hcounts, fun n q hq => (h.sweeps n q (hsweeps ▸ hq)).frame (hframe n), hcalls⟩

theorem of_section (h : ArenaInv s) (hcounts : CountsWf s') (hsweeps : s'.sweeps = s.sweeps)
    {entry : ObjectEntry} (hentry : s.arena.entry id = some entry)
    (hlock : (s.arena.state id).lock = none) {state : ObjectArenaState}
    (harena : s'.arena = (s.store id state).arena)
    (hmarks : state.lock = (s.arena.state id).lock ∧ state.isSealed = (s.arena.state id).isSealed)
    (hentries : ∀ id' ≠ id, (s.store id state).arena.entry id' = s.arena.entry id')
    (hinserted : s'.inserted = s.inserted)
    (hreleases : ∀ r ∈ s'.releases, r ∈ s.releases ∨ r.id = id) : ArenaInv s' := by
  obtain ⟨hmem, halive⟩ := inserted_of_entry h.counts hentry
  refine h.of_frame hcounts hsweeps (fun n => ?_) (fun r hr => ?_)
  · exact .of_section hlock halive harena hmarks hentries (hinserted ▸ fun _ hid => hid) hreleases
  · rw [hinserted]
    rcases hreleases r hr with hr | hr
    · exact h.calls r hr
    · exact hr ▸ hmem

theorem mem_append_retiring {r r' : Release} {l : List Release} (hr : r ∈ l ++ [r']) :
    r ∈ l ∨ r.id = r'.id := by
  rcases mem_append.mp hr with hr | hr
  · exact .inl hr
  · exact .inr (congrArg Release.id (mem_singleton.mp hr))

theorem mem_set_release {r r' : Release} {l : List Release} {phase : ReleasePhase}
    (hn : l[n]? = some r') (hr : r ∈ l.set n ⟨r'.id, phase⟩) : ∃ r'' ∈ l, r''.id = r.id := by
  rcases mem_or_eq_of_mem_set hr with hr | rfl
  · exact ⟨r, hr, rfl⟩
  · exact ⟨r', mem_of_getElem? hn, rfl⟩

theorem moved (h : ArenaInv s) (hs : Moved s s') : ArenaInv s' := by
  have hcounts := h.counts.moved hs
  -- A release call that only moves on keeps its identity.
  have hphase : ∀ {n : Nat} {r : Release} {phase : ReleasePhase}, s.releases[n]? = some r →
      s'.sweeps = s.sweeps → s'.arena.states = s.arena.states → s'.inserted = s.inserted →
      s'.releases = s.releases.set n ⟨r.id, phase⟩ → ArenaInv s' := by
    intro n r phase hn hsweeps hstates hinserted hreleases
    have hids : ∀ r ∈ s'.releases, ∃ r' ∈ s.releases, r'.id = r.id := by
      intro r hr
      exact mem_set_release hn (hreleases ▸ hr)
    refine h.of_frame hcounts hsweeps (fun m => .of_still hstates hinserted hids) fun r hr => ?_
    obtain ⟨r', hr', hid⟩ := hids r hr
    rw [hinserted, ← hid]
    exact h.calls r' hr'
  cases hs
  case refused => exact h
  case reserved session | discarded n id hn =>
    exact h.of_frame hcounts rfl (fun n => .of_still rfl rfl fun r hr => ⟨r, hr, rfl⟩) h.calls
  case inserted n id cell hn hlock hopen =>
    obtain ⟨hfresh, -⟩ := h.counts.entry_of_fresh hn
    refine h.of_frame hcounts rfl (fun m => ?_) fun r hr => ?_
    · refine .of_section hlock (fun hgone => hfresh hgone.1) rfl ⟨rfl, rfl⟩ (fun id' hid' => ?_)
        (fun id' hid' => mem_append_left _ hid') (fun r hr => .inl hr)
      rw [entry_store_insert rfl, if_neg hid']
    · exact mem_append_left _ (h.calls r hr)
  case duplicated hentry hlock hopen | pinned hentry hlock hopen
    | unbound hn hentry hlock hmore | unpinned hn hentry hlock hmore =>
    refine h.of_section hcounts rfl hentry hlock rfl ⟨rfl, rfl⟩ (fun id' hid' => ?_) rfl
      (fun r hr => .inl hr)
    rw [entry_store_insert rfl, if_neg hid']
  case unpinnedObserved hn hentry hlock hmore =>
    refine h.of_section hcounts rfl hentry hlock rfl ⟨rfl, rfl⟩ (fun id' hid' => ?_) rfl
      (fun r hr => mem_append_retiring hr)
    rw [entry_store_insert rfl, if_neg hid']
  case unboundLast hn hentry hlock hlast | unpinnedLast hn hentry hlock hlast =>
    refine h.of_section hcounts rfl hentry hlock rfl ⟨rfl, rfl⟩ (fun id' hid' => ?_) rfl
      (fun r hr => mem_append_retiring hr)
    rw [entry_store_erase rfl, if_neg hid']
  case recorded hn howes => exact hphase hn rfl rfl rfl rfl
  case destroyed hn howes hdone => exact hphase hn rfl rfl rfl rfl
  case reported hn howes => exact hphase hn rfl rfl rfl rfl
  case finished n r hn howes hlock =>
    have hmem : ∀ r' ∈ s.releases.eraseIdx n, r' ∈ s.releases := fun r' hr' =>
      mem_of_mem_eraseIdx hr'
    refine h.of_frame hcounts rfl (fun m => ?_) fun r' hr' => h.calls r' (hmem r' hr')
    refine .of_section hlock (fun hgone => ?_) rfl ⟨rfl, rfl⟩ (fun id' _ => ?_)
      (fun id' hid' => hid') (fun r' hr' => .inl (hmem r' hr'))
    · exact hgone.2.2 r (mem_of_getElem? hn) rfl
    · rw [entry_store_keep]
      rfl
  case started kind =>
    refine ⟨hcounts, fun n q hq => ?_, h.calls⟩
    rcases getElem?_append_singleton_cases hq with hq | ⟨-, rfl⟩
    · exact (h.sweeps n q hq).frame (.of_still rfl rfl fun r hr => ⟨r, hr, rfl⟩)
    · exact fun i hi => absurd hi (Nat.not_lt_zero _)
  case swept m hs =>
    obtain ⟨q, q', states, hq, hswept, rfl⟩ := Swept.of_sweep hs
    have hwf := h.sweeps m q hq
    refine ⟨hcounts, fun n p hp => ?_, h.calls⟩
    rcases getElem?_set_cases hq hp with ⟨rfl, rfl⟩ | ⟨hne, hp⟩
    · exact hwf.swept h.counts hswept
    · exact (h.sweeps n p hp).frame (.of_swept hwf hswept hne)

theorem step (h : ArenaInv s) {action : ArenaSystem.Action}
    (hs : s.step usizeMax action = some s') : ArenaInv s' :=
  h.moved (.of_step h.counts hs)

theorem of_reachable (h : Reachable (ArenaSystem.step usizeMax) ArenaSystem.new s) : ArenaInv s :=
  h.invariant (fun _ _ _ hinv hs => hinv.step hs) .new

end ArenaInv

-- ---- After the seal.

def AllSealed (s : ArenaSystem) : Prop := ∀ i, (s.arena.states i).isSealed = true

theorem Moved.of_allSealed (hs : Moved s s') (hall : AllSealed s) :
    AllSealed s' ∧ s'.inserted = s.inserted ∧ s'.admitted = s.admitted := by
  have hstore : ∀ {id : ObjectId} {state : ObjectArenaState},
      state.isSealed = (s.arena.state id).isSealed → AllSealed (s.store id state) :=
    fun hstate i => (states_store_same (·.isSealed) hstate i).trans (hall i)
  have hshut : ∀ id, (s.arena.state id).isSealed = false → False := by
    intro id hopen
    have hsealed := hall id.shardIndex
    rw [show (s.arena.states id.shardIndex).isSealed = false from hopen] at hsealed
    cases hsealed
  cases hs
  case inserted hopen => exact (hshut _ hopen).elim
  case duplicated hopen => exact (hshut _ hopen).elim
  case pinned hopen => exact (hshut _ hopen).elim
  case unbound => exact ⟨hstore (by rfl), rfl, rfl⟩
  case unboundLast => exact ⟨hstore (by rfl), rfl, rfl⟩
  case unpinned => exact ⟨hstore (by rfl), rfl, rfl⟩
  case unpinnedObserved => exact ⟨hstore (by rfl), rfl, rfl⟩
  case unpinnedLast => exact ⟨hstore (by rfl), rfl, rfl⟩
  case finished => exact ⟨hstore (by rfl), rfl, rfl⟩
  case swept n hs =>
    obtain ⟨q, q', states, -, hswept, rfl⟩ := Swept.of_sweep hs
    exact ⟨fun i => hswept.seals i (hall i), rfl, rfl⟩
  all_goals exact ⟨hall, rfl, rfl⟩

/-- What holds in every state after `s`, in which the arena was sealed: nothing more
is admitted, and a sweep that started later has seen every object there ever was. -/
structure SealedSince (s t : ArenaSystem) : Prop where
  inv      : ArenaInv t
  isSealed : AllSealed t
  inserted : t.inserted = s.inserted
  admitted : t.admitted = s.admitted
  seen     : ∀ n q, s.sweeps.length ≤ n → t.sweeps[n]? = some q →
    (∃ next, q.pc = .locking next) ∨ q.seen = s.inserted

namespace SealedSince

variable {usizeMax : Nat} {t t' : ArenaSystem}

theorem refl (hinv : ArenaInv s) (hall : AllSealed s) : SealedSince s s where
  inv := hinv
  isSealed := hall
  inserted := rfl
  admitted := rfl
  seen := by
    intro n q hn hq
    rw [getElem?_eq_none hn] at hq
    cases hq

theorem step (h : SealedSince s t) {action : ArenaSystem.Action}
    (hs : t.step usizeMax action = some t') : SealedSince s t' := by
  have hmoved : Moved t t' := .of_step h.inv.counts hs
  obtain ⟨hall, hinserted, hadmitted⟩ := hmoved.of_allSealed h.isSealed
  refine ⟨h.inv.step hs, hall, hinserted.trans h.inserted, hadmitted.trans h.admitted, ?_⟩
  intro n q hn hq
  cases hmoved
  case started kind =>
    rcases getElem?_append_singleton_cases hq with hq | ⟨-, rfl⟩
    · exact h.seen n q hn hq
    · exact .inl ⟨0, rfl⟩
  case swept m hs =>
    obtain ⟨p, p', states, hp, hswept, rfl⟩ := Swept.of_sweep hs
    rcases getElem?_set_cases hp hq with ⟨rfl, rfl⟩ | ⟨-, hq⟩
    · rcases hswept.seen with hlocking | htaken | ⟨hsame, hpast⟩
      · exact .inl hlocking
      · exact .inr (htaken.trans h.inserted)
      · rcases h.seen n p hn hp with ⟨next, hlocking⟩ | hseen
        · exact absurd hlocking (hpast next)
        · exact .inr (hsame.trans hseen)
    · exact h.seen n q hn hq
  all_goals exact h.seen n q hn hq

end SealedSince

-- ---- The lifetime of objects.

/-- What a sweep that has returned answered: whether it returned `Ok`. -/
def SweepPc.answer : SweepPc → Option Bool
  | .done (.ok _) => some true
  | .done (.error _) => some false
  | _ => none

theorem SweepPc.answer_eq_some {pc : SweepPc} {b : Bool} (h : pc.answer = some b) :
    ∃ result, pc = .done result ∧ b = result.isOk := by
  unfold answer at h
  split at h
  · exact ⟨_, rfl, (some.inj h).symm⟩
  · exact ⟨_, rfl, (some.inj h).symm⟩
  · cases h

namespace ArenaSystem

variable {usizeMax : Nat}

/-- A call that asks for a capability. -/
def Action.asks : Action → Prop
  | .insert _ _ | .duplicateBinding _ _ | .acquirePin _ _ => True
  | _ => False

/-- A call of `seal` has returned. -/
def sealReturned (s : ArenaSystem) : Prop :=
  ∃ q ∈ s.sweeps, q.kind = .seal ∧ ∃ result, q.pc = .done result

/-- A call of `finish_quiescence` has returned `Ok`. -/
def Sweep.foundQuiet (q : Sweep) : Prop := q.kind = .finishQuiescence ∧ q.pc = .done (.ok ())

/-- No object, capability or release call. -/
def quiescent (s : ArenaSystem) : Prop :=
  (∀ id, s.arena.entry id = none) ∧ s.bindings = [] ∧ s.pins = [] ∧ s.releases = []

theorem allSealed_of_sealReturned (h : ArenaInv s) (hseal : s.sealReturned) : AllSealed s := by
  obtain ⟨q, hq, hkind, result, hpc⟩ := hseal
  obtain ⟨n, hn⟩ := mem_iff_getElem?.mp hq
  have hwf := h.sweeps n q hn
  unfold SweepWf at hwf
  rw [hpc] at hwf
  exact hwf.1 hkind

theorem gone_of_foundQuiet (h : ArenaInv s) (hq : q ∈ s.sweeps) (hquiet : Sweep.foundQuiet q) :
    ∀ id ∈ q.seen, s.Gone id := by
  obtain ⟨n, hn⟩ := mem_iff_getElem?.mp hq
  have hwf := h.sweeps n q hn
  unfold SweepWf at hwf
  rw [hquiet.2] at hwf
  refine hwf.2 hquiet.1 ?_
  rintro e ⟨⟩

theorem counts_of_gone (h : CountsWf s) (hgone : s.Gone id) :
    s.bindingsOf id = 0 ∧ s.pinsOf id = 0 ∧ s.destroyed.count id = 1 := by
  obtain ⟨hmem, hentry, hcalls⟩ := hgone
  have htally := h.tallies id
  have hfate := h.fate id
  have hunique := h.unique id
  have howing : s.owing id = 0 := by
    rw [owing, countP_eq_zero]
    intro r hr
    simp [hcalls r hr]
  have hpos := count_pos_iff.mpr hmem
  rw [hentry, present] at hfate
  rw [hentry] at htally
  exact ⟨htally.1, htally.2, by omega⟩

theorem quiescent_of_gone (h : ArenaInv s) (hgone : ∀ id ∈ s.inserted, s.Gone id) :
    s.quiescent := by
  have hentry : ∀ id, s.arena.entry id = none := by
    intro id
    cases hentry : s.arena.entry id with
    | none => rfl
    | some entry =>
      obtain ⟨hmem, halive⟩ := ArenaInv.inserted_of_entry h.counts hentry
      exact absurd (hgone id hmem) halive
  refine ⟨hentry, ?_, ?_, ?_⟩
  · rw [eq_nil_iff_forall_not_mem]
    intro c hc
    obtain ⟨n, hn⟩ := mem_iff_getElem?.mp hc
    obtain ⟨entry, hsome, -⟩ := h.counts.entry_of_binding hn
    rw [hentry] at hsome
    cases hsome
  · rw [eq_nil_iff_forall_not_mem]
    intro c hc
    obtain ⟨n, hn⟩ := mem_iff_getElem?.mp hc
    obtain ⟨entry, hsome, -⟩ := h.counts.entry_of_pin hn
    rw [hentry] at hsome
    cases hsome
  · rw [eq_nil_iff_forall_not_mem]
    exact fun r hr => (hgone r.id (h.calls r hr)).2.2 r hr rfl

theorem refused_unchanged {action : Action} (hasks : action.asks)
    (hs : s.step usizeMax action = some s') (hrefused : s'.admitted = s.admitted) :
    s'.arena = s.arena ∧ s'.bindings = s.bindings ∧ s'.pins = s.pins := by
  have hmore : s.admitted + 1 ≠ s.admitted := Nat.succ_ne_self _
  unfold step at hs
  split at hs
  · cases hs
  · cases action <;> try exact hasks.elim
    case insert receipt cell =>
      simp only [insert, bind_eq_bind, bind_eq_some_iff] at hs
      obtain ⟨id, -, -, -, hs⟩ := hs
      split at hs
      · cases hs
        exact ⟨rfl, rfl, rfl⟩
      · cases hs
        exact absurd hrefused hmore
    case duplicateBinding id cell | acquirePin id cell =>
      simp only [duplicateBinding, acquirePin, bind_eq_bind, bind_eq_some_iff] at hs
      obtain ⟨-, -, hs⟩ := hs
      split at hs
      · cases hs
        exact ⟨rfl, rfl, rfl⟩
      · cases hs
        exact absurd hrefused hmore

/-- A release call that still has a payload to destroy takes its next step whatever
the others do. -/
theorem release_goes_on (h : CountsWf s) {r : Release} (hn : s.releases[n]? = some r)
    (howes : r.owes) (panicked : Bool) : ∃ s', s.step usizeMax (.release n panicked) = some s' := by
  unfold step
  rw [if_neg (by rw [h.running]; exact Bool.false_ne_true)]
  simp only [release, bind_eq_bind, hn, bind_some]
  cases hphase : r.phase with
  | recording retired | destroying cell => exact ⟨_, rfl⟩
  | reporting | finishing =>
    rw [Release.owes, hphase] at howes
    cases howes

/-- **The lifetime of objects.** In every state reached by any interleaving of
insertions, admissions, releases, destructors that return or unwind, `seal` and
`finish_quiescence`:

* the counts of an object's entry are the live bindings and pin guards of the object,
  and an object without an entry has none; each shard counts its pins;
* an inserted object with a capability has not been destroyed and no call is about to;
  without one, its payload was destroyed once, or exactly one release call is about to
  do so and can always go on; no other payload is ever destroyed;
* no release stops the process;
* a refused call leaves the arena and the capabilities as they are;
* once a `seal` has returned, no later step admits anything;
* when `finish_quiescence` has returned `Ok`, nothing remains of the objects inserted
  before it held all mutexes, and where it started after the seal, nothing at all. -/
theorem object_lifetime (h : Reachable (ArenaSystem.step usizeMax) ArenaSystem.new s) :
    (∀ id, Tally (s.bindingsOf id) (s.pinsOf id) (s.arena.entry id)) ∧
    (∀ i, (s.arena.states i).activePins = s.pins.countP fun c => c.id.shardIndex == i) ∧
    (∀ id ∈ s.inserted, s.inserted.count id = 1 ∧
      if 0 < s.bindingsOf id + s.pinsOf id then s.owing id = 0 ∧ s.destroyed.count id = 0
      else s.owing id + s.destroyed.count id = 1) ∧
    (∀ id ∈ s.destroyed, id ∈ s.inserted) ∧
    (∀ (n : Nat) (r : Release) (panicked : Bool), s.releases[n]? = some r → r.owes →
      ∃ s', s.step usizeMax (.release n panicked) = some s') ∧
    s.aborted = false ∧
    (∀ (action : Action) (s' : ArenaSystem), action.asks → s.step usizeMax action = some s' →
      s'.admitted = s.admitted →
      s'.arena = s.arena ∧ s'.bindings = s.bindings ∧ s'.pins = s.pins) ∧
    (s.sealReturned → ∀ (actions : List Action) (t : ArenaSystem),
      run (ArenaSystem.step usizeMax) s actions = some t → t.admitted = s.admitted) ∧
    (∀ q ∈ s.sweeps, Sweep.foundQuiet q → ∀ id ∈ q.seen, s.arena.entry id = none ∧
      s.bindingsOf id = 0 ∧ s.pinsOf id = 0 ∧ s.destroyed.count id = 1 ∧
      ∀ r ∈ s.releases, r.id ≠ id) ∧
    (s.sealReturned → ∀ (actions : List Action) (t : ArenaSystem) (n : Nat) (q : Sweep),
      run (ArenaSystem.step usizeMax) s actions = some t → s.sweeps.length ≤ n →
      t.sweeps[n]? = some q → Sweep.foundQuiet q → t.quiescent) := by
  have hinv := ArenaInv.of_reachable h
  have hsince : s.sealReturned → ∀ (actions : List Action) (t : ArenaSystem),
      run (ArenaSystem.step usizeMax) s actions = some t → SealedSince s t := by
    intro hseal actions t hrun
    exact run_invariant (fun _ _ _ hsince hs => hsince.step hs)
      (.refl hinv (allSealed_of_sealReturned hinv hseal)) hrun
  refine ⟨hinv.counts.tallies, hinv.counts.pins, fun id hid => ?_, fun id hid => ?_,
    fun n r panicked hn howes => release_goes_on hinv.counts hn howes panicked,
    hinv.counts.running, fun action s' => refused_unchanged,
    fun hseal actions t hrun => (hsince hseal actions t hrun).admitted, fun q hq hquiet id hid => ?_,
    fun hseal actions t n q hrun hn hq hquiet => ?_⟩
  · have htally := hinv.counts.tallies id
    have hfate := hinv.counts.fate id
    have hunique := hinv.counts.unique id
    have hpos := count_pos_iff.mpr hid
    refine ⟨by omega, ?_⟩
    cases hentry : s.arena.entry id with
    | none =>
      rw [hentry] at htally hfate
      rw [present] at hfate
      obtain ⟨hb, hp⟩ := htally
      rw [hb, hp, if_neg (Nat.lt_irrefl 0)]
      omega
    | some entry =>
      rw [hentry] at htally hfate
      rw [present] at hfate
      rw [if_pos htally.2.2]
      omega
  · have hfate := hinv.counts.fate id
    have hpos := count_pos_iff.mpr hid
    exact count_pos_iff.mp (by omega)
  · have hgone := gone_of_foundQuiet hinv hq hquiet id hid
    obtain ⟨hb, hp, hdestroyed⟩ := counts_of_gone hinv.counts hgone
    exact ⟨hgone.2.1, hb, hp, hdestroyed, hgone.2.2⟩
  · have hst := hsince hseal actions t hrun
    have hgone := gone_of_foundQuiet hst.inv (mem_of_getElem? hq) hquiet
    refine quiescent_of_gone hst.inv fun id hid => ?_
    rcases hst.seen n q hn hq with ⟨next, hlocking⟩ | hseen
    · rw [hquiet.2] at hlocking
      cases hlocking
    · exact hgone id (hseen ▸ hst.inserted ▸ hid)

/-- An object with two bindings and a pin, and a second object whose last binding is
dropped while the arena is being sealed. A pin for another allocation is refused. -/
def sealingRun : List Action :=
  List.flatten [[.reserve 7, .insert 0 40, .duplicateBinding ⟨7, 1⟩ 40, .acquirePin ⟨7, 1⟩ 40,
      .acquirePin ⟨7, 1⟩ 41, .reserve 7, .insert 0 50, .dropBinding 2, .startSweep .seal],
    .replicate 99 (.sweep 0)]

/-- The rest of it: the sealed arena refuses a duplicate, the last pin of the first
object is dropped after its bindings, and the arena is found quiescent. -/
def drainingRun : List Action :=
  List.flatten [[.duplicateBinding ⟨7, 1⟩ 40, .dropBinding 0, .dropBinding 0, .dropPin true 0],
    .replicate 3 (.release 1 false),
    .replicate 2 (.release 0 false),
    [.startSweep .finishQuiescence],
    .replicate 133 (.sweep 1)]

theorem object_lifetime_drainingRun :
    ∃ s t, run (ArenaSystem.step u64Max) ArenaSystem.new sealingRun = some s ∧
      s.admitted = 4 ∧ s.releases.length = 1 ∧ s.pins.length = 1 ∧
      run (ArenaSystem.step u64Max) s drainingRun = some t ∧
      t.admitted = 4 ∧ t.destroyed = [⟨7, 1⟩, ⟨7, 2⟩] ∧ t.quiescent := by
  have hrun : ((run (ArenaSystem.step u64Max) ArenaSystem.new sealingRun).bind fun s =>
      (run (ArenaSystem.step u64Max) s drainingRun).map fun t =>
        ((s.admitted, s.releases.length, s.pins.length, s.sweeps.length), t.destroyed,
          s.sweeps.all (fun q => q.kind = .seal && q.pc.answer.isSome),
          t.sweeps[1]?.any (fun q => q.kind = .finishQuiescence && q.pc.answer == some true))) =
      some ((4, 1, 1, 1), [⟨7, 1⟩, ⟨7, 2⟩], true, true) := by
    decide +kernel
  obtain ⟨s, hs, hrest⟩ := bind_eq_some_iff.mp hrun
  obtain ⟨t, ht, hval⟩ := map_eq_some_iff.mp hrest
  simp only [Prod.mk.injEq] at hval
  obtain ⟨⟨hadmitted, hreleases, hpins, hsweeps⟩, hdestroyed, hseal, hfound⟩ := hval
  have hsealed : s.sealReturned := by
    obtain ⟨q, hq⟩ := length_eq_one_iff.mp hsweeps
    rw [hq, all_cons, all_nil, Bool.and_true, Bool.and_eq_true] at hseal
    obtain ⟨hkind, hanswer⟩ := hseal
    obtain ⟨answer, hanswer⟩ := isSome_iff_exists.mp hanswer
    obtain ⟨result, hpc, -⟩ := SweepPc.answer_eq_some hanswer
    exact ⟨q, hq ▸ mem_singleton.mpr rfl, of_decide_eq_true hkind, result, hpc⟩
  obtain ⟨q, hq, hquiet⟩ := (any_eq_true _ _).mp hfound
  have hquiet : Sweep.foundQuiet q := by
    rw [Bool.and_eq_true, beq_iff_eq] at hquiet
    obtain ⟨hkind, hanswer⟩ := hquiet
    obtain ⟨result, hpc, hok⟩ := SweepPc.answer_eq_some hanswer
    cases result with
    | ok _ => exact ⟨of_decide_eq_true hkind, hpc⟩
    | error e => cases hok
  obtain ⟨-, -, -, -, -, -, -, hclosed, -, hgone⟩ := object_lifetime ⟨sealingRun, hs⟩
  exact ⟨s, t, hs, hadmitted, hreleases, hpins, ht,
    (hclosed hsealed drainingRun t ht).trans hadmitted, hdestroyed,
    hgone hsealed drainingRun t 1 q ht (Nat.le_of_eq hsweeps) hq hquiet⟩

end ArenaSystem

end Xlfn.Handle
