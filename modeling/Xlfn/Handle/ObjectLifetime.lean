import Xlfn.Handle.Object

/-!
# Xlfn — the lifetime of the objects of an arena

* `CountsWf` — the counters of every shard against the capabilities and release calls
  that exist, and the fate of every identity: kept by every step (`CountsWf.step`).
-/

namespace Xlfn.Handle

open Lib Kernel Function List Option ObjectArena ObjectArenaState

-- ---- The critical sections of a shard.

variable {usizeMax : Nat} {id : ObjectId}

namespace ObjectArenaState

variable {cell : Nat} {state state' : ObjectArenaState}

/-- What a successful insertion says. -/
theorem insert_ok (h : state.insert id cell = .ok state') : state.isSealed = false ∧
      state' = { state with objects := state.objects.insert id ⟨cell, 1, 0⟩ } := by
  unfold insert at h
  split at h
  · cases h
  · cases h
    exact ⟨by simpa using ‹¬state.isSealed = true›, rfl⟩

variable {entry : ObjectEntry}

/-- What a successful check of a capability says. -/
theorem entryOf_ok (h : state.entryOf id cell = .ok entry) :
    state.objects.lookup id = some entry ∧ entry.cell = cell := by
  unfold entryOf at h
  split at h
  · cases h
  · split at h
    · cases h
      exact ⟨‹_›, ‹_›⟩
    · cases h

/-- What a successful duplication says. -/
theorem duplicateBinding_ok (h : state.duplicateBinding id cell = .ok state') :
    state.isSealed = false ∧ ∃ entry, state.objects.lookup id = some entry ∧ entry.cell = cell ∧
      entry.bindings < u32Max ∧ state' = { state with
        objects := state.objects.insert id { entry with bindings := entry.bindings + 1 } } := by
  unfold duplicateBinding at h
  split at h
  · cases h
  · refine ⟨by simpa using ‹¬state.isSealed = true›, ?_⟩
    cases hentry : state.entryOf id cell with
    | error e => rw [hentry] at h; cases h
    | ok entry =>
      rw [hentry] at h
      obtain ⟨hlookup, hcell⟩ := entryOf_ok hentry
      simp only [bind, Except.bind] at h
      split at h
      · cases h
      · rename_i hadd
        obtain ⟨rfl, hlt⟩ := checkedAdd_eq_some hadd
        cases h
        exact ⟨entry, hlookup, hcell, hlt, rfl⟩

/-- What a successful pin says. -/
theorem acquirePin_ok (h : state.acquirePin usizeMax id cell = .ok state') :
    state.isSealed = false ∧ state.activePins < usizeMax ∧
      ∃ entry, state.objects.lookup id = some entry ∧ entry.cell = cell ∧
        entry.pins < u32Max ∧ state' = { state with
          objects    := state.objects.insert id { entry with pins := entry.pins + 1 }
          activePins := state.activePins + 1 } := by
  unfold acquirePin at h
  split at h
  · cases h
  · refine ⟨by simpa using ‹¬state.isSealed = true›, ?_⟩
    split at h
    · cases h
    · rename_i htotal
      obtain ⟨rfl, hroom⟩ := checkedAdd_eq_some htotal
      refine ⟨hroom, ?_⟩
      cases hentry : state.entryOf id cell with
      | error e => rw [hentry] at h; cases h
      | ok entry =>
        rw [hentry] at h
        obtain ⟨hlookup, hcell⟩ := entryOf_ok hentry
        simp only [bind, Except.bind] at h
        split at h
        · cases h
        · rename_i hadd
          obtain ⟨rfl, hlt⟩ := checkedAdd_eq_some hadd
          cases h
          exact ⟨entry, hlookup, hcell, hlt, rfl⟩

/-- A release begins while there is room. -/
theorem beginRelease_of_lt (h : state.activeReleases < usizeMax) : state.beginRelease usizeMax =
      some { state with activeReleases := state.activeReleases + 1 } := by
  rw [beginRelease, checkedAdd, if_pos h]
  rfl

/-- A release of a counted binding never stops the process; it retires the entry
exactly where it brings both counts to zero. -/
theorem releaseBinding_of_lookup (hentry : state.objects.lookup id = some entry)
    (hbindings : 0 < entry.bindings) (hroom : state.activeReleases < usizeMax) :
    state.releaseBinding usizeMax id =
      if entry.bindings = 1 ∧ entry.pins = 0 then
        some ({ state with
          objects        := state.objects.erase id
          activeReleases := state.activeReleases + 1 }, some entry.cell)
      else
        some ({ state with
          objects := state.objects.insert id { entry with bindings := entry.bindings - 1 } },
          none) := by
  rw [releaseBinding, hentry]
  simp only [bind_eq_bind, bind_some, checkedAtomicDec_of_pos hbindings]
  by_cases hlast : entry.bindings = 1 ∧ entry.pins = 0
  · rw [if_pos hlast, if_neg (by omega), beginRelease_of_lt hroom]
    rfl
  · rw [if_neg hlast, if_pos (by omega)]

theorem releasePinObserved_of_lookup (observed : Bool)
    (hentry : state.objects.lookup id = some entry) (hpins : 0 < entry.pins)
    (hactive : 0 < state.activePins) (hroom : state.activeReleases < usizeMax) :
    state.releasePinObserved observed usizeMax id =
      if entry.bindings = 0 ∧ entry.pins = 1 then
        some ({ state with
          objects        := state.objects.erase id
          activePins     := state.activePins - 1
          activeReleases := state.activeReleases + 1 }, some (some entry.cell))
      else if observed then
        some ({ state with
          objects        := state.objects.insert id { entry with pins := entry.pins - 1 }
          activePins     := state.activePins - 1
          activeReleases := state.activeReleases + 1 }, some none)
      else
        some ({ state with
          objects    := state.objects.insert id { entry with pins := entry.pins - 1 }
          activePins := state.activePins - 1 }, none) := by
  have hreclaim : (entry.bindings == 0 && entry.pins - 1 == 0) =
      decide (entry.bindings = 0 ∧ entry.pins = 1) := by
    rw [Bool.eq_iff_iff]
    simp only [Bool.and_eq_true, beq_iff_eq, decide_eq_true_eq]
    omega
  rw [releasePinObserved, hentry]
  simp only [bind_eq_bind, bind_some, checkedAtomicDec_of_pos hpins,
    checkedAtomicDec_of_pos hactive, hreclaim]
  by_cases hlast : entry.bindings = 0 ∧ entry.pins = 1
  · simp only [hlast, and_self, decide_true, Bool.not_true, Bool.false_and, Bool.false_eq_true,
      if_false, if_true]
    rw [beginRelease_of_lt (by exact hroom)]
    simp only [bind_some, Table.erase_insert]
  · simp only [hlast, decide_false, Bool.not_false, Bool.true_and, if_false]
    cases observed with
    | true =>
      rw [beginRelease_of_lt (by exact hroom)]
      rfl
    | false => rfl

end ObjectArenaState

-- ---- The counters.

/-- An entry against the number of bindings and of pin guards of its object. -/
def Tally (bindings pins : Nat) : Option ObjectEntry → Prop
  | none => bindings = 0 ∧ pins = 0
  | some entry => entry.bindings = bindings ∧ entry.pins = pins ∧ 0 < bindings + pins

/-- One where there is an entry. -/
def present : Option ObjectEntry → Nat
  | none => 0
  | some _ => 1

/-- The release calls that still have this object's payload to destroy. -/
def ArenaSystem.owing (s : ArenaSystem) (id : ObjectId) : Nat :=
  s.releases.countP fun r => r.id == id && r.owes

/-- The counters of the shards, the fate of every identity, and that no release has
stopped the process. -/
structure CountsWf (s : ArenaSystem) : Prop where
  running  : s.aborted = false
  tallies  : ∀ id, Tally (s.bindingsOf id) (s.pinsOf id) (s.arena.entry id)
  pins     : ∀ i, (s.arena.states i).activePins = s.pins.countP fun c => c.id.shardIndex == i
  releases : ∀ i, (s.arena.states i).activeReleases =
    s.releases.countP fun r => r.id.shardIndex == i
  fate     : ∀ id, present (s.arena.entry id) + s.owing id + s.destroyed.count id =
    s.inserted.count id
  unique   : ∀ id, s.fresh.count id + s.discarded.count id + s.inserted.count id ≤ 1
  issued   : ∀ id, 0 < s.fresh.count id + s.discarded.count id + s.inserted.count id →
    id.sequence < s.arena.nextObjectId

section Counts

variable {α β : Type} [DecidableEq β]

/-- One more to count. -/
theorem countP_append_singleton (p : α → Bool) (l : List α) (x : α) :
    (l ++ [x]).countP p = l.countP p + if p x then 1 else 0 := by
  rw [countP_append, countP_singleton]

theorem countP_key_append (f : α → β) (l : List α) (x : α) (k : β) :
    (l ++ [x]).countP (fun c => f c == k) =
      l.countP (fun c => f c == k) + if f x = k then 1 else 0 := by
  rw [countP_append_singleton]
  simp only [beq_iff_eq]

theorem countP_key_eraseIdx (f : α → β) {l : List α} {n : Nat} {x : α} (hn : l[n]? = some x)
    (k : β) :
    (l.eraseIdx n).countP (fun c => f c == k) + (if f x = k then 1 else 0) =
      l.countP fun c => f c == k := by
  have herase := countP_eraseIdx_add (fun c => f c == k) hn
  simpa only [beq_iff_eq] using herase

theorem count_append_singleton (l : List β) (x k : β) :
    (l ++ [x]).count k = l.count k + if x = k then 1 else 0 :=
  countP_key_append id l x k

/-- One less to count. -/
theorem count_eraseIdx_add {l : List β} {n : Nat} {x : β} (hn : l[n]? = some x) (k : β) :
    (l.eraseIdx n).count k + (if x = k then 1 else 0) = l.count k :=
  countP_key_eraseIdx id hn k

end Counts

namespace ArenaSystem

variable {s s' : ArenaSystem} {state : ObjectArenaState}

/-- The entries after one shard is stored. -/
theorem entry_store (id' : ObjectId) : (s.store id state).arena.entry id' =
      if id'.shardIndex = id.shardIndex then state.objects.lookup id' else s.arena.entry id' := by
  show (update s.arena.states id.shardIndex state id'.shardIndex).objects.lookup id' = _
  by_cases h : id'.shardIndex = id.shardIndex
  · rw [if_pos h, h, update_self]
  · rw [if_neg h, update_of_ne h]
    rfl

/-- The entries after a section that touches no entry but that of `id`. -/
theorem entry_store_of (h : ∀ id' ≠ id,
      state.objects.lookup id' = (s.arena.state id).objects.lookup id') (id' : ObjectId) :
    (s.store id state).arena.entry id' =
      if id' = id then state.objects.lookup id else s.arena.entry id' := by
  rw [entry_store]
  by_cases hid : id' = id
  · subst hid
    rw [if_pos rfl, if_pos rfl]
  · rw [if_neg hid]
    split
    · rename_i hshard
      rw [h id' hid, ObjectArena.entry, ObjectArena.state, ObjectArena.state, hshard]
    · rfl

/-- The entries after an insertion. -/
theorem entry_store_insert {entry : ObjectEntry}
    (h : state.objects = (s.arena.state id).objects.insert id entry) (id' : ObjectId) :
    (s.store id state).arena.entry id' = if id' = id then some entry else s.arena.entry id' := by
  have hlookup : ∀ k, state.objects.lookup k =
      if k = id then some entry else (s.arena.state id).objects.lookup k := by
    intro k
    rw [h, Table.lookup_insert_ite]
  rw [entry_store_of fun k hk => by rw [hlookup, if_neg hk], hlookup, if_pos rfl]

/-- The entries after an erasure. -/
theorem entry_store_erase (h : state.objects = (s.arena.state id).objects.erase id)
    (id' : ObjectId) :
    (s.store id state).arena.entry id' = if id' = id then none else s.arena.entry id' := by
  have hlookup : ∀ k, state.objects.lookup k =
      if k = id then none else (s.arena.state id).objects.lookup k := by
    intro k
    rw [h, Table.lookup_erase_ite]
  rw [entry_store_of fun k hk => by rw [hlookup, if_neg hk], hlookup, if_pos rfl]

theorem entry_store_keep (h : state.objects = (s.arena.state id).objects) (id' : ObjectId) :
    (s.store id state).arena.entry id' = s.arena.entry id' := by
  rw [entry_store_of fun k _ => by rw [h], h]
  split
  · rename_i hid
    rw [hid]
    rfl
  · rfl

/-- A field of every shard after one is stored. -/
theorem states_store {β : Type} (f : ObjectArenaState → β) (i : Fin objectShardCount) :
    f ((s.store id state).arena.states i) =
      if id.shardIndex = i then f state else f (s.arena.states i) := by
  show f (update s.arena.states id.shardIndex state i) = _
  by_cases h : id.shardIndex = i
  · rw [if_pos h, ← h, update_self]
  · rw [if_neg h, update_of_ne (Ne.symm h)]

theorem states_store_same {β : Type} (f : ObjectArenaState → β)
    (h : f state = f (s.arena.state id)) (i : Fin objectShardCount) :
    f ((s.store id state).arena.states i) = f (s.arena.states i) := by
  rw [states_store f]
  split
  · rename_i hi
    rw [h, ← hi]
    rfl
  · rfl

theorem owing_append (s : ArenaSystem) (r : Release) (id' : ObjectId) :
    (s.releases ++ [r]).countP (fun r => r.id == id' && r.owes) =
      if r.id = id' ∧ r.owes then s.owing id' + 1 else s.owing id' := by
  rw [countP_append_singleton]
  simp only [Bool.and_eq_true, beq_iff_eq]
  split
  · rfl
  · rfl

section ShardCounter

variable {α : Type} {l : List α} {f : ObjectArenaState → Nat} {g : α → Fin objectShardCount}

theorem states_store_add (hl : ∀ i, f (s.arena.states i) = l.countP fun c => g c == i) {x : α}
    (hx : g x = id.shardIndex) (hf : f state = f (s.arena.state id) + 1)
    (i : Fin objectShardCount) :
    f ((s.store id state).arena.states i) = (l ++ [x]).countP fun c => g c == i := by
  rw [states_store f, countP_key_append, ← hl, hx]
  by_cases hi : id.shardIndex = i
  · rw [if_pos hi, if_pos hi, hf, ← hi]
    rfl
  · rw [if_neg hi, if_neg hi, Nat.add_zero]

theorem states_store_sub (hl : ∀ i, f (s.arena.states i) = l.countP fun c => g c == i) {n : Nat}
    {x : α} (hn : l[n]? = some x) (hx : g x = id.shardIndex)
    (hf : f state = f (s.arena.state id) - 1) (i : Fin objectShardCount) :
    f ((s.store id state).arena.states i) = (l.eraseIdx n).countP fun c => g c == i := by
  have hcount := countP_key_eraseIdx g hn i
  rw [states_store f]
  rw [← hl, hx] at hcount
  by_cases hi : id.shardIndex = i
  · rw [if_pos hi] at hcount ⊢
    have hstate : f (s.arena.state id) = f (s.arena.states i) := by rw [← hi]; rfl
    omega
  · rw [if_neg hi] at hcount ⊢
    omega

end ShardCounter

end ArenaSystem

namespace CountsWf

open ArenaSystem

variable {s s' : ArenaSystem} {state : ObjectArenaState}

/-- **A section of one object.** What has to be shown of a step that changes the entry
and the capabilities of `id` only. -/
theorem at_object (h : CountsWf s) (entry : Option ObjectEntry) (hrunning : s'.aborted = s.aborted)
    (hentry : ∀ id', s'.arena.entry id' = if id' = id then entry else s.arena.entry id')
    (hother : ∀ id' ≠ id, s'.bindingsOf id' = s.bindingsOf id' ∧ s'.pinsOf id' = s.pinsOf id' ∧
      s'.owing id' = s.owing id' ∧ s'.inserted.count id' = s.inserted.count id')
    (htally : Tally (s'.bindingsOf id) (s'.pinsOf id) entry)
    (hfate : present entry + s'.owing id + s.destroyed.count id = s'.inserted.count id)
    (hdestroyed : s'.destroyed = s.destroyed)
    (hpins : ∀ i, (s'.arena.states i).activePins = s'.pins.countP fun c => c.id.shardIndex == i)
    (hreleases : ∀ i, (s'.arena.states i).activeReleases =
      s'.releases.countP fun r => r.id.shardIndex == i)
    (hunique : ∀ id', s'.fresh.count id' + s'.discarded.count id' + s'.inserted.count id' =
      s.fresh.count id' + s.discarded.count id' + s.inserted.count id')
    (hnext : s'.arena.nextObjectId = s.arena.nextObjectId) : CountsWf s' where
  running := hrunning.trans h.running
  tallies := by
    intro id'
    rw [hentry]
    by_cases hid : id' = id
    · rw [if_pos hid, hid]
      exact htally
    · rw [if_neg hid, (hother id' hid).1, (hother id' hid).2.1]
      exact h.tallies id'
  pins := hpins
  releases := hreleases
  fate := by
    intro id'
    rw [hentry, hdestroyed]
    by_cases hid : id' = id
    · rw [if_pos hid, hid]
      exact hfate
    · rw [if_neg hid, (hother id' hid).2.2.1, (hother id' hid).2.2.2]
      exact h.fate id'
  unique := fun id' => by
    rw [hunique]
    exact h.unique id'
  issued := fun id' => by
    rw [hunique, hnext]
    exact h.issued id'

/-- A binding's object is there, and counts it. -/
theorem entry_of_binding (h : CountsWf s) {n : Nat} {c : Capability}
    (hn : s.bindings[n]? = some c) :
    ∃ entry, s.arena.entry c.id = some entry ∧ 0 < entry.bindings ∧
      entry.bindings = s.bindingsOf c.id ∧ entry.pins = s.pinsOf c.id := by
  have hpos : 0 < s.bindingsOf c.id :=
    countP_pos_iff.mpr ⟨c, mem_of_getElem? hn, beq_self_eq_true _⟩
  have htally := h.tallies c.id
  cases hentry : s.arena.entry c.id with
  | none =>
    rw [hentry] at htally
    exact absurd htally.1 (Nat.ne_of_gt hpos)
  | some entry =>
    rw [hentry] at htally
    obtain ⟨hb, hp, -⟩ := htally
    exact ⟨entry, rfl, hb ▸ hpos, hb, hp⟩

/-- So is the object of a pin. -/
theorem entry_of_pin (h : CountsWf s) {n : Nat} {c : Capability} (hn : s.pins[n]? = some c) :
    ∃ entry, s.arena.entry c.id = some entry ∧ 0 < entry.pins ∧
      0 < (s.arena.state c.id).activePins ∧
      entry.bindings = s.bindingsOf c.id ∧ entry.pins = s.pinsOf c.id := by
  have hpos : 0 < s.pinsOf c.id :=
    countP_pos_iff.mpr ⟨c, mem_of_getElem? hn, beq_self_eq_true _⟩
  have hactive : 0 < (s.arena.state c.id).activePins := by
    rw [state, h.pins]
    exact countP_pos_iff.mpr ⟨c, mem_of_getElem? hn, beq_self_eq_true _⟩
  have htally := h.tallies c.id
  cases hentry : s.arena.entry c.id with
  | none =>
    rw [hentry] at htally
    exact absurd htally.2 (Nat.ne_of_gt hpos)
  | some entry =>
    rw [hentry] at htally
    obtain ⟨hb, hp, -⟩ := htally
    exact ⟨entry, rfl, hp ▸ hpos, hactive, hb, hp⟩

/-- There is room for a release in every shard. -/
theorem activeReleases_lt (h : CountsWf s) (hroom : s.releases.length < usizeMax) (id : ObjectId) :
    (s.arena.state id).activeReleases < usizeMax := by
  rw [state, h.releases]
  exact Nat.lt_of_le_of_lt countP_le_length hroom

end CountsWf

-- ---- What a step can do.

/-- The release call of a retired entry, in its first phase. -/
def retiring (observed : Bool) (id : ObjectId) (cell : Nat) : Release :=
  ⟨id, if observed then .recording (some cell) else .destroying cell⟩

theorem owes_retiring (observed : Bool) (id : ObjectId) (cell : Nat) :
    (retiring observed id cell).owes := by
  cases observed <;> rfl

/-- **Inversion.** One constructor for each branch a step can take; a release finds
its entry counted, so no branch stops the process. -/
inductive Moved (s : ArenaSystem) : ArenaSystem → Prop
  | refused : Moved s s
  | reserved (session : Nat) :
    Moved s { s with
      arena := { s.arena with nextObjectId := s.arena.nextObjectId + 1 }
      fresh := s.fresh ++ [⟨session, s.arena.nextObjectId⟩] }
  | discarded {n : Nat} {id : ObjectId} (hn : s.fresh[n]? = some id) :
    Moved s { s with fresh := s.fresh.eraseIdx n, discarded := s.discarded ++ [id] }
  | inserted {n : Nat} {id : ObjectId} (cell : Nat) (hn : s.fresh[n]? = some id)
    (hlock : (s.arena.state id).lock = none) (hopen : (s.arena.state id).isSealed = false) :
    Moved s { s.store id { s.arena.state id with
        objects := (s.arena.state id).objects.insert id ⟨cell, 1, 0⟩ } with
      fresh    := s.fresh.eraseIdx n
      bindings := s.bindings ++ [⟨id, cell⟩]
      inserted := s.inserted ++ [id]
      admitted := s.admitted + 1 }
  | duplicated {id : ObjectId} {entry : ObjectEntry} (hentry : s.arena.entry id = some entry)
    (hlock : (s.arena.state id).lock = none) (hopen : (s.arena.state id).isSealed = false) :
    Moved s { s.store id { s.arena.state id with
        objects := (s.arena.state id).objects.insert id
          { entry with bindings := entry.bindings + 1 } } with
      bindings := s.bindings ++ [⟨id, entry.cell⟩]
      admitted := s.admitted + 1 }
  | pinned {id : ObjectId} {entry : ObjectEntry} (hentry : s.arena.entry id = some entry)
    (hlock : (s.arena.state id).lock = none) (hopen : (s.arena.state id).isSealed = false) :
    Moved s { s.store id { s.arena.state id with
        objects    := (s.arena.state id).objects.insert id { entry with pins := entry.pins + 1 }
        activePins := (s.arena.state id).activePins + 1 } with
      pins     := s.pins ++ [⟨id, entry.cell⟩]
      admitted := s.admitted + 1 }
  | unbound {n : Nat} {c : Capability} {entry : ObjectEntry} (hn : s.bindings[n]? = some c)
    (hentry : s.arena.entry c.id = some entry) (hlock : (s.arena.state c.id).lock = none)
    (hmore : ¬(entry.bindings = 1 ∧ entry.pins = 0)) :
    Moved s { s.store c.id { s.arena.state c.id with
        objects := (s.arena.state c.id).objects.insert c.id
          { entry with bindings := entry.bindings - 1 } } with
      bindings := s.bindings.eraseIdx n }
  | unboundLast {n : Nat} {c : Capability} {entry : ObjectEntry} (hn : s.bindings[n]? = some c)
    (hentry : s.arena.entry c.id = some entry) (hlock : (s.arena.state c.id).lock = none)
    (hlast : entry.bindings = 1 ∧ entry.pins = 0) :
    Moved s { s.store c.id { s.arena.state c.id with
        objects        := (s.arena.state c.id).objects.erase c.id
        activeReleases := (s.arena.state c.id).activeReleases + 1 } with
      bindings := s.bindings.eraseIdx n
      releases := s.releases ++ [retiring false c.id entry.cell] }
  | unpinned {n : Nat} {c : Capability} {entry : ObjectEntry} (hn : s.pins[n]? = some c)
    (hentry : s.arena.entry c.id = some entry) (hlock : (s.arena.state c.id).lock = none)
    (hmore : ¬(entry.bindings = 0 ∧ entry.pins = 1)) :
    Moved s { s.store c.id { s.arena.state c.id with
        objects    := (s.arena.state c.id).objects.insert c.id
          { entry with pins := entry.pins - 1 }
        activePins := (s.arena.state c.id).activePins - 1 } with
      pins := s.pins.eraseIdx n }
  | unpinnedObserved {n : Nat} {c : Capability} {entry : ObjectEntry} (hn : s.pins[n]? = some c)
    (hentry : s.arena.entry c.id = some entry) (hlock : (s.arena.state c.id).lock = none)
    (hmore : ¬(entry.bindings = 0 ∧ entry.pins = 1)) :
    Moved s { s.store c.id { s.arena.state c.id with
        objects        := (s.arena.state c.id).objects.insert c.id
          { entry with pins := entry.pins - 1 }
        activePins     := (s.arena.state c.id).activePins - 1
        activeReleases := (s.arena.state c.id).activeReleases + 1 } with
      pins     := s.pins.eraseIdx n
      releases := s.releases ++ [⟨c.id, .recording none⟩] }
  | unpinnedLast (observed : Bool) {n : Nat} {c : Capability} {entry : ObjectEntry}
    (hn : s.pins[n]? = some c) (hentry : s.arena.entry c.id = some entry)
    (hlock : (s.arena.state c.id).lock = none) (hlast : entry.bindings = 0 ∧ entry.pins = 1) :
    Moved s { s.store c.id { s.arena.state c.id with
        objects        := (s.arena.state c.id).objects.erase c.id
        activePins     := (s.arena.state c.id).activePins - 1
        activeReleases := (s.arena.state c.id).activeReleases + 1 } with
      pins     := s.pins.eraseIdx n
      releases := s.releases ++ [retiring observed c.id entry.cell] }
  | recorded {n : Nat} {r : Release} {phase : ReleasePhase} (hn : s.releases[n]? = some r)
    (howes : (⟨r.id, phase⟩ : Release).owes = r.owes) :
    Moved s { s with releases := s.releases.set n ⟨r.id, phase⟩ }
  | destroyed {n : Nat} {r : Release} {phase : ReleasePhase} (hn : s.releases[n]? = some r)
    (howes : r.owes = true) (hdone : (⟨r.id, phase⟩ : Release).owes = false) :
    Moved s { s with
      releases  := s.releases.set n ⟨r.id, phase⟩
      destroyed := s.destroyed ++ [r.id] }
  | reported {n : Nat} {r : Release} (hn : s.releases[n]? = some r) (howes : r.owes = false) :
    Moved s { s with
      arena    := s.arena.recordFailure .panic
      releases := s.releases.set n ⟨r.id, .finishing⟩ }
  | finished {n : Nat} {r : Release} (hn : s.releases[n]? = some r) (howes : r.owes = false)
    (hlock : (s.arena.state r.id).lock = none) :
    Moved s { s.store r.id { s.arena.state r.id with
        activeReleases := (s.arena.state r.id).activeReleases - 1 } with
      releases := s.releases.eraseIdx n }
  | started (kind : SweepKind) :
    Moved s { s with sweeps := s.sweeps ++ [⟨kind, .locking 0, []⟩] }
  | swept {n : Nat} {s' : ArenaSystem} (hs : s.sweep n = some s') : Moved s s'

namespace Moved

variable {s s' : ArenaSystem}

theorem of_reserve (session : Nat) : Moved s (s.reserve session) := by
  unfold ArenaSystem.reserve reserve
  cases hnext : checkedIncrement s.arena.nextObjectId with
  | none => exact .refused
  | some next =>
    obtain ⟨rfl, -⟩ := checkedIncrement_eq_some hnext
    exact .reserved session

theorem of_insert {receipt cell : Nat} (hs : s.insert receipt cell = some s') : Moved s s' := by
  unfold ArenaSystem.insert at hs
  simp only [bind_eq_bind, bind_eq_some_iff, guard_eq_some', exists_const] at hs
  obtain ⟨id, hid, hlock, hs⟩ := hs
  split at hs
  · cases hs
    exact .discarded hid
  · rename_i state hstate
    obtain ⟨hopen, rfl⟩ := insert_ok hstate
    cases hs
    exact .inserted cell hid (isNone_iff_eq_none.mp hlock) hopen

theorem of_duplicateBinding {cell : Nat} (hs : s.duplicateBinding id cell = some s') :
    Moved s s' := by
  unfold ArenaSystem.duplicateBinding at hs
  simp only [bind_eq_bind, bind_eq_some_iff, guard_eq_some', exists_const] at hs
  obtain ⟨hlock, hs⟩ := hs
  split at hs
  · cases hs
    exact .refused
  · rename_i state hstate
    obtain ⟨hopen, entry, hentry, rfl, -, rfl⟩ := duplicateBinding_ok hstate
    cases hs
    exact .duplicated hentry (isNone_iff_eq_none.mp hlock) hopen

theorem of_acquirePin {cell : Nat} (hs : s.acquirePin usizeMax id cell = some s') : Moved s s' := by
  unfold ArenaSystem.acquirePin at hs
  simp only [bind_eq_bind, bind_eq_some_iff, guard_eq_some', exists_const] at hs
  obtain ⟨hlock, hs⟩ := hs
  split at hs
  · cases hs
    exact .refused
  · rename_i state hstate
    obtain ⟨hopen, -, entry, hentry, rfl, -, rfl⟩ := acquirePin_ok hstate
    cases hs
    exact .pinned hentry (isNone_iff_eq_none.mp hlock) hopen

theorem of_dropBinding (h : CountsWf s) {n : Nat} (hs : s.dropBinding usizeMax n = some s') :
    Moved s s' := by
  unfold ArenaSystem.dropBinding at hs
  simp only [bind_eq_bind, bind_eq_some_iff, guard_eq_some', exists_const] at hs
  obtain ⟨c, hc, ⟨hlock, hroom⟩, hs⟩ := hs
  have hlock := isNone_iff_eq_none.mp hlock
  obtain ⟨entry, hentry, hpos, -⟩ := h.entry_of_binding hc
  simp only [releaseBinding_of_lookup hentry hpos
    (h.activeReleases_lt hroom c.id)] at hs
  by_cases hlast : entry.bindings = 1 ∧ entry.pins = 0
  · rw [if_pos hlast] at hs
    cases hs
    exact .unboundLast hc hentry hlock hlast
  · rw [if_neg hlast] at hs
    cases hs
    exact .unbound hc hentry hlock hlast

theorem of_dropPin (h : CountsWf s) {observed : Bool} {n : Nat}
    (hs : s.dropPin observed usizeMax n = some s') : Moved s s' := by
  unfold ArenaSystem.dropPin at hs
  simp only [bind_eq_bind, bind_eq_some_iff, guard_eq_some', exists_const] at hs
  obtain ⟨c, hc, ⟨hlock, hroom⟩, hs⟩ := hs
  have hlock := isNone_iff_eq_none.mp hlock
  obtain ⟨entry, hentry, hpos, hactive, -⟩ := h.entry_of_pin hc
  simp only [releasePinObserved_of_lookup observed hentry hpos hactive
    (h.activeReleases_lt hroom c.id)] at hs
  by_cases hlast : entry.bindings = 0 ∧ entry.pins = 1
  · rw [if_pos hlast] at hs
    cases hs
    exact .unpinnedLast observed hc hentry hlock hlast
  · rw [if_neg hlast] at hs
    cases observed with
    | true =>
      cases hs
      exact .unpinnedObserved hc hentry hlock hlast
    | false =>
      cases hs
      exact .unpinned hc hentry hlock hlast

theorem of_release (h : CountsWf s) {n : Nat} {panicked : Bool}
    (hs : s.release n panicked = some s') : Moved s s' := by
  unfold ArenaSystem.release at hs
  simp only [bind_eq_bind, bind_eq_some_iff] at hs
  obtain ⟨r, hr, hs⟩ := hs
  split at hs
  case h_1 retired hphase =>
    cases hs
    refine .recorded hr ?_
    rw [Release.owes, Release.owes, hphase]
    cases retired <;> rfl
  case h_2 cell hphase =>
    cases hs
    refine .destroyed hr (by rw [Release.owes, hphase]) ?_
    cases panicked <;> rfl
  case h_3 hphase =>
    cases hs
    exact .reported hr (by rw [Release.owes, hphase])
  case h_4 hphase =>
    simp only [bind_eq_some_iff, guard_eq_some', exists_const] at hs
    obtain ⟨hlock, hs⟩ := hs
    have hpos : 0 < (s.arena.state r.id).activeReleases := by
      rw [state, h.releases]
      exact countP_pos_iff.mpr ⟨r, mem_of_getElem? hr, beq_self_eq_true _⟩
    rw [endRelease, checkedAtomicDec_of_pos hpos] at hs
    cases hs
    exact .finished hr (by rw [Release.owes, hphase]) (isNone_iff_eq_none.mp hlock)

/-- **What one step of the arena is.** -/
theorem of_step (h : CountsWf s) {action : ArenaSystem.Action}
    (hs : s.step usizeMax action = some s') : Moved s s' := by
  unfold ArenaSystem.step at hs
  rw [if_neg (by rw [h.running]; exact Bool.false_ne_true)] at hs
  cases action with
  | reserve session =>
    cases hs
    exact of_reserve session
  | insert receipt cell => exact of_insert hs
  | duplicateBinding id cell => exact of_duplicateBinding hs
  | acquirePin id cell => exact of_acquirePin hs
  | dropBinding n => exact of_dropBinding h hs
  | dropPin observed n => exact of_dropPin h hs
  | release n panicked => exact of_release h hs
  | startSweep kind =>
    cases hs
    exact .started kind
  | sweep n => exact .swept hs

end Moved

-- ---- Every step keeps the counters.

namespace CountsWf

open ArenaSystem

variable {s s' : ArenaSystem}

/-- An identity is reserved. -/
theorem reserved (h : CountsWf s) (session : Nat) : CountsWf { s with
      arena := { s.arena with nextObjectId := s.arena.nextObjectId + 1 }
      fresh := s.fresh ++ [⟨session, s.arena.nextObjectId⟩] } := by
  -- The identity carries a sequence number no earlier one has.
  have hnew : ∀ id, 0 < s.fresh.count id + s.discarded.count id + s.inserted.count id →
      (⟨session, s.arena.nextObjectId⟩ : ObjectId) ≠ id := by
    rintro id hid rfl
    exact Nat.lt_irrefl _ (h.issued _ hid)
  refine ⟨h.running, h.tallies, h.pins, h.releases, h.fate, fun id => ?_, fun id => ?_⟩
  all_goals
    have hunique := h.unique id
    have hissued := h.issued id
    have hfresh := hnew id
    simp only [count_append_singleton]
  · split
    · by_contra hcount
      exact hfresh (by omega) ‹_›
    · omega
  · split
    · rename_i hid
      intro _
      rw [← hid]
      exact Nat.lt_succ_self _
    · intro hpos
      exact Nat.lt_succ_of_lt (hissued (by omega))

variable {n : Nat} {entry : ObjectEntry} {c : Capability}

/-- A reserved identity is given up. -/
theorem discarded (h : CountsWf s) (hn : s.fresh[n]? = some id) :
    CountsWf { s with fresh := s.fresh.eraseIdx n, discarded := s.discarded ++ [id] } := by
  refine ⟨h.running, h.tallies, h.pins, h.releases, h.fate, fun id' => ?_, fun id' => ?_⟩
  all_goals
    have hunique := h.unique id'
    have hissued := h.issued id'
    have hcount := count_eraseIdx_add hn id'
    simp only [count_append_singleton]
  · omega
  · intro hpos
    exact hissued (by omega)

/-- A reserved identity has no entry. -/
theorem entry_of_fresh (h : CountsWf s) (hn : s.fresh[n]? = some id) :
    id ∉ s.inserted ∧ s.arena.entry id = none := by
  have hunique := h.unique id
  have hfate := h.fate id
  have hfresh := count_pos_iff.mpr (mem_of_getElem? hn)
  refine ⟨fun hmem => ?_, ?_⟩
  · have hpos := count_pos_iff.mpr hmem
    omega
  · cases hentry : s.arena.entry id with
    | none => rfl
    | some entry =>
      rw [hentry, present] at hfate
      omega

theorem inserted (h : CountsWf s) (cell : Nat) (hn : s.fresh[n]? = some id) :
    CountsWf { s.store id { s.arena.state id with
        objects := (s.arena.state id).objects.insert id ⟨cell, 1, 0⟩ } with
      fresh    := s.fresh.eraseIdx n
      bindings := s.bindings ++ [⟨id, cell⟩]
      inserted := s.inserted ++ [id]
      admitted := s.admitted + 1 } := by
  have hnone := (h.entry_of_fresh hn).2
  have htally := h.tallies id
  have hfate := h.fate id
  rw [hnone] at htally hfate
  have hbindings := countP_key_append Capability.id s.bindings ⟨id, cell⟩
  refine h.at_object (some ⟨cell, 1, 0⟩) rfl (entry_store_insert rfl) ?_ ?_ ?_ rfl
    (fun i => ?_) (fun i => ?_) (fun id' => ?_) rfl
  · intro id' hid'
    refine ⟨?_, rfl, rfl, ?_⟩
    · exact (hbindings id').trans (by rw [if_neg (Ne.symm hid')]; rfl)
    · show (s.inserted ++ [_]).count _ = _
      rw [count_append_singleton, if_neg (Ne.symm hid'), Nat.add_zero]
  · show Tally ((s.bindings ++ [_]).countP _) (s.pinsOf id) _
    obtain ⟨hb, hp⟩ := htally
    rw [hbindings, if_pos rfl, hp]
    exact ⟨congrArg Nat.succ hb.symm, rfl, Nat.succ_pos _⟩
  · show 1 + s.owing id + _ = (s.inserted ++ [_]).count _
    rw [count_append_singleton, if_pos rfl, ← hfate, present]
    omega
  · exact (states_store_same (·.activePins) (by rfl) i).trans (h.pins i)
  · exact (states_store_same (·.activeReleases) (by rfl) i).trans (h.releases i)
  · show (s.fresh.eraseIdx n).count id' + s.discarded.count id' +
      (s.inserted ++ [_]).count id' = _
    rw [count_append_singleton, ← count_eraseIdx_add hn id']
    omega

/-- A binding is duplicated. -/
theorem duplicated (h : CountsWf s) (hentry : s.arena.entry id = some entry) :
    CountsWf { s.store id { s.arena.state id with
        objects := (s.arena.state id).objects.insert id
          { entry with bindings := entry.bindings + 1 } } with
      bindings := s.bindings ++ [⟨id, entry.cell⟩]
      admitted := s.admitted + 1 } := by
  have htally := h.tallies id
  have hfate := h.fate id
  rw [hentry] at htally hfate
  have hbindings := countP_key_append Capability.id s.bindings ⟨id, entry.cell⟩
  refine h.at_object _ rfl (entry_store_insert rfl) (fun id' hid' => ⟨?_, rfl, rfl, rfl⟩) ?_
    hfate rfl (fun i => ?_) (fun i => ?_) (fun _ => rfl) rfl
  · exact (hbindings id').trans (by rw [if_neg (Ne.symm hid')]; rfl)
  · show Tally ((s.bindings ++ [_]).countP _) (s.pinsOf id) _
    obtain ⟨hb, hp, -⟩ := htally
    rw [hbindings, if_pos rfl]
    exact ⟨congrArg Nat.succ hb, hp, by omega⟩
  · exact (states_store_same (·.activePins) (by rfl) i).trans (h.pins i)
  · exact (states_store_same (·.activeReleases) (by rfl) i).trans (h.releases i)

/-- An object is pinned. -/
theorem pinned (h : CountsWf s) (hentry : s.arena.entry id = some entry) :
    CountsWf { s.store id { s.arena.state id with
        objects    := (s.arena.state id).objects.insert id { entry with pins := entry.pins + 1 }
        activePins := (s.arena.state id).activePins + 1 } with
      pins     := s.pins ++ [⟨id, entry.cell⟩]
      admitted := s.admitted + 1 } := by
  have htally := h.tallies id
  have hfate := h.fate id
  rw [hentry] at htally hfate
  have hpins := countP_key_append Capability.id s.pins ⟨id, entry.cell⟩
  refine h.at_object _ rfl (entry_store_insert rfl) (fun id' hid' => ⟨rfl, ?_, rfl, rfl⟩) ?_
    hfate rfl (fun i => ?_) (fun i => ?_) (fun _ => rfl) rfl
  · exact (hpins id').trans (by rw [if_neg (Ne.symm hid')]; rfl)
  · show Tally (s.bindingsOf id) ((s.pins ++ [_]).countP _) _
    obtain ⟨hb, hp, -⟩ := htally
    rw [hpins, if_pos rfl]
    exact ⟨hb, congrArg Nat.succ hp, by omega⟩
  · exact states_store_add h.pins (by rfl) (by rfl) i
  · exact (states_store_same (·.activeReleases) (by rfl) i).trans (h.releases i)

/-- The counts of one identity after a capability of its list is dropped. -/
theorem countP_dropped {l : List Capability} (hn : l[n]? = some c) :
    (∀ id' ≠ c.id, (l.eraseIdx n).countP (fun x => x.id == id') = l.countP fun x => x.id == id') ∧
    (l.eraseIdx n).countP (fun x => x.id == c.id) + 1 = l.countP fun x => x.id == c.id := by
  have herase := countP_key_eraseIdx Capability.id hn
  refine ⟨fun id' hid' => ?_, ?_⟩
  · rw [← herase, if_neg (Ne.symm hid'), Nat.add_zero]
  · rw [← herase, if_pos rfl]

section

variable (h : CountsWf s)
include h

/-- A binding is dropped, and the object stays. -/
theorem unbound (hn : s.bindings[n]? = some c)
    (hentry : s.arena.entry c.id = some entry) (hmore : ¬(entry.bindings = 1 ∧ entry.pins = 0)) :
    CountsWf { s.store c.id { s.arena.state c.id with
        objects := (s.arena.state c.id).objects.insert c.id
          { entry with bindings := entry.bindings - 1 } } with
      bindings := s.bindings.eraseIdx n } := by
  obtain ⟨hother, hself⟩ := countP_dropped hn
  have htally := h.tallies c.id
  have hfate := h.fate c.id
  rw [hentry] at htally hfate
  obtain ⟨hb, hp, -⟩ := htally
  rw [bindingsOf] at hb
  refine h.at_object _ rfl (entry_store_insert rfl) (fun id' hid' => ?_) ⟨?_, hp, ?_⟩ hfate rfl
    (fun i => ?_) (fun i => ?_) (fun _ => rfl) rfl
  · exact ⟨hother id' hid', rfl, rfl, rfl⟩
  · show entry.bindings - 1 = (s.bindings.eraseIdx n).countP _
    omega
  · show 0 < (s.bindings.eraseIdx n).countP _ + s.pinsOf c.id
    omega
  · exact (states_store_same (·.activePins) (by rfl) i).trans (h.pins i)
  · exact (states_store_same (·.activeReleases) (by rfl) i).trans (h.releases i)

/-- The last binding is dropped, and the object goes. -/
theorem unboundLast (hn : s.bindings[n]? = some c)
    (hentry : s.arena.entry c.id = some entry) (hlast : entry.bindings = 1 ∧ entry.pins = 0) :
    CountsWf { s.store c.id { s.arena.state c.id with
        objects        := (s.arena.state c.id).objects.erase c.id
        activeReleases := (s.arena.state c.id).activeReleases + 1 } with
      bindings := s.bindings.eraseIdx n
      releases := s.releases ++ [retiring false c.id entry.cell] } := by
  obtain ⟨hother, hself⟩ := countP_dropped hn
  have htally := h.tallies c.id
  have hfate := h.fate c.id
  rw [hentry] at htally hfate
  obtain ⟨hb, hp, -⟩ := htally
  have howing := s.owing_append (retiring false c.id entry.cell)
  refine h.at_object none rfl (entry_store_erase rfl) (fun id' hid' => ⟨?_, rfl, ?_, rfl⟩)
    ⟨?_, hp.symm.trans hlast.2⟩ ?_ rfl (fun i => ?_) (fun i => ?_) (fun _ => rfl) rfl
  · exact hother id' hid'
  · exact (howing id').trans (if_neg fun hsame => hid' hsame.1.symm)
  · exact Nat.succ.inj (hself.trans (hb.symm.trans hlast.1))
  · show 0 + countP _ (s.releases ++ [_]) + _ = s.inserted.count _
    rw [howing, if_pos ⟨rfl, rfl⟩, ← hfate, present]
    omega
  · exact (states_store_same (·.activePins) (by rfl) i).trans (h.pins i)
  · exact states_store_add h.releases (by rfl) (by rfl) i

theorem tally_unpinned (hn : s.pins[n]? = some c)
    (hentry : s.arena.entry c.id = some entry) (hmore : ¬(entry.bindings = 0 ∧ entry.pins = 1)) :
    Tally (s.bindingsOf c.id) ((s.pins.eraseIdx n).countP fun x => x.id == c.id)
      (some { entry with pins := entry.pins - 1 }) := by
  obtain ⟨-, hself⟩ := countP_dropped hn
  have htally := h.tallies c.id
  rw [hentry] at htally
  obtain ⟨hb, hp, -⟩ := htally
  rw [pinsOf] at hp
  refine ⟨hb, ?_, ?_⟩
  · show entry.pins - 1 = _
    omega
  · omega

/-- A pin is dropped, and the object stays. -/
theorem unpinned (hn : s.pins[n]? = some c)
    (hentry : s.arena.entry c.id = some entry) (hmore : ¬(entry.bindings = 0 ∧ entry.pins = 1)) :
    CountsWf { s.store c.id { s.arena.state c.id with
        objects    := (s.arena.state c.id).objects.insert c.id
          { entry with pins := entry.pins - 1 }
        activePins := (s.arena.state c.id).activePins - 1 } with
      pins := s.pins.eraseIdx n } := by
  have hfate := h.fate c.id
  rw [hentry] at hfate
  refine h.at_object _ rfl (entry_store_insert rfl) (fun id' hid' => ⟨rfl, ?_, rfl, rfl⟩)
    (h.tally_unpinned hn hentry hmore) hfate rfl (fun i => ?_) (fun i => ?_) (fun _ => rfl) rfl
  · exact (countP_dropped hn).1 id' hid'
  · exact states_store_sub h.pins hn (by rfl) (by rfl) i
  · exact (states_store_same (·.activeReleases) (by rfl) i).trans (h.releases i)

/-- The same, where the sealing was observed. -/
theorem unpinnedObserved (hn : s.pins[n]? = some c)
    (hentry : s.arena.entry c.id = some entry) (hmore : ¬(entry.bindings = 0 ∧ entry.pins = 1)) :
    CountsWf { s.store c.id { s.arena.state c.id with
        objects        := (s.arena.state c.id).objects.insert c.id
          { entry with pins := entry.pins - 1 }
        activePins     := (s.arena.state c.id).activePins - 1
        activeReleases := (s.arena.state c.id).activeReleases + 1 } with
      pins     := s.pins.eraseIdx n
      releases := s.releases ++ [⟨c.id, .recording none⟩] } := by
  have hfate := h.fate c.id
  rw [hentry] at hfate
  have howing : ∀ id', (s.releases ++ [(⟨c.id, .recording none⟩ : Release)]).countP
      (fun r => r.id == id' && r.owes) = s.owing id' := by
    intro id'
    rw [s.owing_append]
    exact if_neg fun howes => Bool.false_ne_true howes.2
  refine h.at_object _ rfl (entry_store_insert rfl)
    (fun id' hid' => ⟨rfl, ?_, howing id', rfl⟩) (h.tally_unpinned hn hentry hmore) ?_ rfl
    (fun i => ?_) (fun i => ?_) (fun _ => rfl) rfl
  · exact (countP_dropped hn).1 id' hid'
  · show 1 + (s.releases ++ [(⟨c.id, .recording none⟩ : Release)]).countP _ + _ = _
    rw [howing]
    exact hfate
  · exact states_store_sub h.pins hn (by rfl) (by rfl) i
  · exact states_store_add h.releases (by rfl) (by rfl) i

/-- The last pin is dropped, and the object goes. -/
theorem unpinnedLast (observed : Bool) (hn : s.pins[n]? = some c)
    (hentry : s.arena.entry c.id = some entry) (hlast : entry.bindings = 0 ∧ entry.pins = 1) :
    CountsWf { s.store c.id { s.arena.state c.id with
        objects        := (s.arena.state c.id).objects.erase c.id
        activePins     := (s.arena.state c.id).activePins - 1
        activeReleases := (s.arena.state c.id).activeReleases + 1 } with
      pins     := s.pins.eraseIdx n
      releases := s.releases ++ [retiring observed c.id entry.cell] } := by
  obtain ⟨hother, hself⟩ := countP_dropped hn
  have htally := h.tallies c.id
  have hfate := h.fate c.id
  rw [hentry] at htally hfate
  obtain ⟨hb, hp, -⟩ := htally
  have howing := s.owing_append (retiring observed c.id entry.cell)
  refine h.at_object none rfl (entry_store_erase rfl) (fun id' hid' => ⟨rfl, ?_, ?_, rfl⟩)
    ⟨hb.symm.trans hlast.1, ?_⟩ ?_ rfl (fun i => ?_) (fun i => ?_) (fun _ => rfl) rfl
  · exact hother id' hid'
  · exact (howing id').trans (if_neg fun hsame => hid' hsame.1.symm)
  · exact Nat.succ.inj (hself.trans (hp.symm.trans hlast.2))
  · show 0 + countP _ (s.releases ++ [_]) + _ = s.inserted.count _
    rw [howing, if_pos ⟨rfl, owes_retiring _ _ _⟩, ← hfate, present]
    omega
  · exact states_store_sub h.pins hn (by rfl) (by rfl) i
  · exact states_store_add h.releases (by rfl) (by rfl) i

/-- A release call that goes on: whether it still owes a destruction decides what
happens to the count of destroyed payloads. -/
theorem goto_release {r : Release} (hn : s.releases[n]? = some r)
    (phase : ReleasePhase) (hreleases : s'.releases = s.releases.set n ⟨r.id, phase⟩)
    (hdestroyed : ∀ id', s'.destroyed.count id' +
        (if r.id = id' ∧ (⟨r.id, phase⟩ : Release).owes then 1 else 0) =
      s.destroyed.count id' + if r.id = id' ∧ r.owes then 1 else 0)
    (hstates : s'.arena.states = s.arena.states)
    (hnext : s'.arena.nextObjectId = s.arena.nextObjectId)
    (hrest : s'.aborted = s.aborted ∧ s'.bindings = s.bindings ∧ s'.pins = s.pins ∧
      s'.fresh = s.fresh ∧ s'.discarded = s.discarded ∧ s'.inserted = s.inserted) :
    CountsWf s' := by
  obtain ⟨habort, hb, hp, hf, hd, hi⟩ := hrest
  have hentry : s'.arena.entry = s.arena.entry := by
    funext id'
    rw [entry, state, hstates]
    rfl
  refine ⟨habort.trans h.running, fun id' => ?_, fun i => ?_, fun i => ?_, fun id' => ?_,
    fun id' => ?_, fun id' => ?_⟩
  · rw [hentry, bindingsOf, pinsOf, hb, hp]
    exact h.tallies id'
  · rw [hstates, hp]
    exact h.pins i
  · have hset := countP_set_add (fun r : Release => r.id.shardIndex == i) ⟨r.id, phase⟩ hn
    rw [hstates, hreleases, h.releases i]
    exact (Nat.add_right_cancel hset).symm
  · have hset := countP_set_add (fun r : Release => r.id == id' && r.owes) ⟨r.id, phase⟩ hn
    simp only [Bool.and_eq_true, beq_iff_eq] at hset
    have hfate := h.fate id'
    have hcount := hdestroyed id'
    rw [hentry, hi, owing, hreleases]
    rw [owing] at hfate
    omega
  · rw [hf, hd, hi]
    exact h.unique id'
  · rw [hf, hd, hi, hnext]
    exact h.issued id'

/-- A release is over. -/
theorem finished {r : Release} (hn : s.releases[n]? = some r)
    (howes : r.owes = false) : CountsWf { s.store r.id { s.arena.state r.id with
        activeReleases := (s.arena.state r.id).activeReleases - 1 } with
      releases := s.releases.eraseIdx n } := by
  have howing : ∀ id', (s.releases.eraseIdx n).countP (fun r => r.id == id' && r.owes) =
      s.owing id' := by
    intro id'
    have herase := countP_eraseIdx_add (fun r : Release => r.id == id' && r.owes) hn
    rw [howes, Bool.and_false, if_neg Bool.false_ne_true, Nat.add_zero] at herase
    exact herase
  refine ⟨h.running, fun id' => ?_, fun i => ?_, fun i => ?_, fun id' => ?_, h.unique, h.issued⟩
  · rw [entry_store_keep]
    · exact h.tallies id'
    · rfl
  · exact (states_store_same (·.activePins) (by rfl) i).trans (h.pins i)
  · exact states_store_sub h.releases hn (by rfl) (by rfl) i
  · rw [entry_store_keep]
    · show _ + (s.releases.eraseIdx n).countP _ + _ = _
      rw [howing]
      exact h.fate id'
    · rfl

theorem congr {states : Fin objectShardCount → ObjectArenaState}
    (hshard : ∀ i, (states i).objects = (s.arena.states i).objects ∧
      (states i).activePins = (s.arena.states i).activePins ∧
      (states i).activeReleases = (s.arena.states i).activeReleases) (sweeps : List Sweep) :
    CountsWf { s with arena := { s.arena with states := states }, sweeps } := by
  have hentry : ∀ id', ({ s.arena with states := states } : ObjectArena).entry id' =
      s.arena.entry id' := by
    intro id'
    rw [entry, state, (hshard _).1]
    rfl
  refine ⟨h.running, fun id' => ?_, fun i => ?_, fun i => ?_, fun id' => ?_, h.unique, h.issued⟩
  · rw [hentry]
    exact h.tallies id'
  · exact (hshard i).2.1.trans (h.pins i)
  · exact (hshard i).2.2.trans (h.releases i)
  · rw [hentry]
    exact h.fate id'

end

end CountsWf

end Xlfn.Handle
