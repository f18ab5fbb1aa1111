import Xlfn.Async.CancellationScope

/-!
# Xlfn — the wakers of a cancellation slot

A poll that returns `Pending` leaves a waker in its slot. Only the future it belongs to
replaces or removes it there; the end of the source takes it along to be woken. This
module follows each waker from the poll that stored it, through reuse of the slot, to the
call that wakes it.

* `Keeps` — what a step does to the wakers of everybody but the caller.
* `WakeWf` — the invariant of waiters and registrations, kept by every step
  (`WakeWf.step`).
-/

namespace Xlfn.Async.Cancellation

open Lib Kernel List Option CancellationRegistry CancellationSlot

-- ---- Where a waker is.

/-- The places for wakers in a slot. -/
inductive Key where
  | waiter (id : Nat)
  | task
deriving DecidableEq

def CancellationSlot.stored (slot : CancellationSlot) : Key → Option StoredWaker
  | .waiter id => slot.waiters.entries.lookup id
  | .task => slot.waiters.taskWaker

variable {r r' : CancellationRegistry} {slot slot' : CancellationSlot} {src : Source}

/-- What is stored depends on the waiters alone. -/
theorem CancellationSlot.stored_congr (h : slot'.waiters = slot.waiters) (key : Key) :
    slot'.stored key = slot.stored key := by
  cases key <;> rw [stored, stored, h]

section

variable (r : CancellationRegistry)

/-- A call that ended a source took the waker, and wakes it or has done so. -/
def Taken (stored : StoredWaker) : Prop :=
  (∃ wakers ∈ r.wakes, stored ∈ wakers) ∨ stored ∈ r.woken

/-- The waker is in the slot of the source, which has the source's generation. -/
def Stored (source : Nat) (key : Key) (stored : StoredWaker) : Prop :=
  ∃ src slot, r.sources[source]? = some src ∧ r.slots src.slot = some slot ∧
    src.generation = slot.generation ∧ slot.stored key = some stored

/-- The waker is of this owner, and not lost. -/
def Holds (source : Nat) (owner : Owner) (key : Key) (stored : StoredWaker) : Prop :=
  stored.owner = owner ∧ (Taken r stored ∨ Stored r source key stored)

/-- Nobody else has a waker at this place. -/
def Owned (source : Nat) (owner : Owner) (key : Key) : Prop :=
  ∀ stored, Stored r source key stored → stored.owner = owner

/-- The waiter id is not issued again in the source's generation. -/
def Below (source id : Nat) : Prop :=
  ∀ src slot, r.sources[source]? = some src → r.slots src.slot = some slot →
    src.generation = slot.generation → id < slot.waiters.nextId

def Begun (source : Nat) : Prop :=
  ∃ src, r.sources[source]? = some src ∧ src.begun = true

end

/-- **What a step leaves to the others.** `own` are the places its caller may change. -/
structure Keeps (r r' : CancellationRegistry) (own : Nat → Key → Prop) : Prop where
  taken : ∀ stored, Taken r stored → Taken r' stored
  kept  : ∀ source key stored, Stored r source key stored → ¬ own source key →
    Taken r' stored ∨ Stored r' source key stored
  back  : ∀ source key stored, source < r.sources.length → Stored r' source key stored →
    ¬ own source key → Stored r source key stored
  below : ∀ source id, source < r.sources.length → Below r source id → Below r' source id

/-- A slot without a live scope is empty, and ids are issued upwards. -/
structure StoreOk (slot : CancellationSlot) : Prop where
  clear : (slot.cancelled = true ∨ ∃ s, slot.lock = some (.resetCancelled s) ∨
    slot.lock = some (.resetDelivery s)) → ∀ key, slot.stored key = none
  below : ∀ id stored, slot.stored (.waiter id) = some stored → id < slot.waiters.nextId

/-- A slot whose wakers are left alone, and that is not taken for cleared too early. -/
theorem StoreOk.rewrite (h : StoreOk slot) (hwaiters : slot'.waiters = slot.waiters)
    (hclear : (slot'.cancelled = true ∨ ∃ s, slot'.lock = some (.resetCancelled s) ∨
      slot'.lock = some (.resetDelivery s)) → slot.cancelled = true ∨
        ∃ s, slot.lock = some (.resetCancelled s) ∨ slot.lock = some (.resetDelivery s)) :
    StoreOk slot' where
  clear := fun hc key => (stored_congr hwaiters key).trans (h.clear (hclear hc) key)
  below := fun id stored hkey => by
    rw [hwaiters]
    rw [stored_congr hwaiters] at hkey
    exact h.below id stored hkey

/-- The waiter id of a future, also while it is being given up. -/
def Waiter.Uses (w : Waiter) (id : Nat) : Prop :=
  w.waiterId = some id ∨ ∃ dropping, w.pc = .unregistering id dropping

/-- What holds of a `Cancelled` future. -/
structure WaiterOk (r : CancellationRegistry) (i : Nat) (w : Waiter) : Prop where
  issued     : ∃ src, r.sources[w.source]? = some src ∧ src.pc ≠ .allocating
  own        : ∀ id, w.Uses id → Below r w.source id ∧ Owned r w.source (.waiter i) (.waiter id)
  registered : ∀ x, w.registered = some x → ∃ id stored, w.waiterId = some id ∧
    Holds r w.source (.waiter i) (.waiter id) stored ∧ stored.identity = x
  pending    : ∀ waker, w.pc = .returning (.pending waker) ∨ w.outcome = .pending waker →
    ∃ id stored, w.waiterId = some id ∧ Holds r w.source (.waiter i) (.waiter id) stored ∧
      (stored.identity = waker ∨ stored.clonedFrom = waker)
  busy       : w.pc ≠ .idle → w.outcome = .unpolled
  given      : ∀ id dropping, w.pc = .unregistering id dropping →
    w.waiterId = none ∧ w.registered = none
  reading    : ∀ waker read, w.pc = .reading waker read → ReadWf r w.source read
  ready      : (w.pc = .returning .ready ∨ w.outcome = .ready ∨
    ∃ id, w.pc = .unregistering id false) → Begun r w.source

/-- What holds of the registration of a task. -/
structure TaskOk (r : CancellationRegistry) (i : Nat) (t : Registration) : Prop where
  issued     : ∃ src, r.sources[t.source]? = some src ∧ src.pc ≠ .allocating ∧ src.claimed = true
  own        : Owned r t.source (.task i) .task
  registered : ∀ x, t.registered = some x → ∃ stored, Holds r t.source (.task i) .task stored ∧
    stored.identity = x
  pending    : ∀ waker, t.outcome = .pending waker → ∃ stored,
    Holds r t.source (.task i) .task stored ∧
      (stored.identity = waker ∨ stored.clonedFrom = waker)
  busy       : t.pc ≠ .idle → t.outcome = .unpolled
  reading    : ∀ waker read, t.pc = .reading waker read ∨ t.pc = .rechecking waker read →
    ReadWf r t.source read
  rechecking : ∀ waker read, t.pc = .rechecking waker read → read.late = true ∨
    ∃ stored, Holds r t.source (.task i) .task stored ∧ stored.clonedFrom = waker
  ready      : t.outcome = .ready → Begun r t.source

/-- The invariant of reads, waiters and registrations. -/
structure WakeWf (r : CancellationRegistry) : Prop where
  scope         : ScopeWf r
  stores        : ∀ id slot, r.slots id = some slot → StoreOk slot
  reads         : ∀ c ∈ r.reads, ReadWf r c.source c.read
  waiters       : ∀ (i : Nat) (w : Waiter), r.waiters[i]? = some w → WaiterOk r i w
  distinct      : ∀ (i j : Nat) (w w' : Waiter) (id : Nat), r.waiters[i]? = some w →
    r.waiters[j]? = some w' → w.source = w'.source → w.Uses id → w'.Uses id → i = j
  registrations : ∀ (i : Nat) (t : Registration), r.registrations[i]? = some t → TaskOk r i t
  single        : ∀ (i j : Nat) (t t' : Registration), r.registrations[i]? = some t →
    r.registrations[j]? = some t' → t.source = t'.source → i = j
  tasks         : ∀ source stored, Stored r source .task stored →
    ∃ (i : Nat) (t : Registration), r.registrations[i]? = some t ∧ t.source = source

-- ---- What everybody else keeps.

variable {source : Nat} {stored : StoredWaker} {key : Key} {i : Nat}

section Others

variable {own : Nat → Key → Prop}

/-- It is enough to look at each slot: either its generation goes on and the places of the
others are as they were, or it is emptied. -/
theorem Keeps.of_slots (h : ScopeWf r) (he : Evolves r r')
    (htaken : ∀ stored, Taken r stored → Taken r' stored)
    (hslots : ∀ id slot slot', r.slots id = some slot → r'.slots id = some slot' →
      (slot'.generation = slot.generation → slot.waiters.nextId ≤ slot'.waiters.nextId) ∧
      ((slot'.generation = slot.generation ∧
          ∀ source src key, r.sources[source]? = some src → src.slot = id →
            src.generation = slot.generation → ¬ own source key →
              slot'.stored key = slot.stored key) ∨
        (∀ key stored, slot.stored key = some stored → Taken r' stored) ∧
          ∀ key, slot'.stored key = none)) : Keeps r r' own where
  taken := htaken
  kept := fun source key stored hstored hnot => by
    obtain ⟨src, slot, hs, hslot, hgeneration, hkey⟩ := hstored
    obtain ⟨src', hs', hcont⟩ := he.sources source src hs
    obtain ⟨slot', hslot', -⟩ := he.slots src.slot slot hslot
    rcases (hslots src.slot slot slot' hslot hslot').2 with ⟨hsame, hkeys⟩ | ⟨htake, -⟩
    · refine .inr ⟨src', slot', hs', hcont.slot ▸ hslot', ?_, ?_⟩
      · rw [hcont.generation, hsame]
        exact hgeneration
      · rw [hkeys source src key hs rfl hgeneration hnot]
        exact hkey
    · exact .inl (htake key stored hkey)
  back := fun source key stored hlt hstored hnot => by
    obtain ⟨src', slot', hs', hslot', hgeneration, hkey⟩ := hstored
    obtain ⟨src'', hs'', hcont⟩ := he.sources source _ (getElem?_eq_getElem hlt)
    rw [hs'] at hs''
    cases hs''
    obtain ⟨slot, hslot, -⟩ := (h.sources source _ (getElem?_eq_getElem hlt)).slot
    rw [hcont.slot] at hslot'
    rcases (hslots _ slot slot' hslot hslot').2 with ⟨hsame, hkeys⟩ | ⟨-, hnone⟩
    · have hcurrent : r.sources[source].generation = slot.generation := by
        rw [← hcont.generation, hgeneration, hsame]
      refine ⟨_, slot, getElem?_eq_getElem hlt, hslot, hcurrent, ?_⟩
      rw [← hkeys source _ key (getElem?_eq_getElem hlt) rfl hcurrent hnot]
      exact hkey
    · rw [hnone key] at hkey
      cases hkey
  below := fun source id hlt hbelow src' slot' hs' hslot' hgeneration => by
    obtain ⟨src'', hs'', hcont⟩ := he.sources source _ (getElem?_eq_getElem hlt)
    rw [hs'] at hs''
    cases hs''
    obtain ⟨slot, hslot, hle, -⟩ := (h.sources source _ (getElem?_eq_getElem hlt)).slot
    rw [hcont.slot] at hslot'
    obtain ⟨slot'', hslot'', hle'⟩ := he.slots _ slot hslot
    rw [hslot'] at hslot''
    cases hslot''
    rw [hcont.generation] at hgeneration
    have hcurrent : r.sources[source].generation = slot.generation := by omega
    have hid := hbelow _ slot (getElem?_eq_getElem hlt) hslot hcurrent
    exact Nat.lt_of_lt_of_le hid ((hslots _ slot slot' hslot hslot').1 (by omega))

/-- A step that leaves the slots alone keeps every stored waker. -/
theorem Keeps.quiet (h : ScopeWf r) (he : Evolves r r') (hslots : r'.slots = r.slots)
    (htaken : ∀ stored, Taken r stored → Taken r' stored) : Keeps r r' own := by
  refine .of_slots h he htaken fun id slot slot' hslot hslot' => ?_
  rw [hslots, hslot] at hslot'
  cases hslot'
  exact ⟨fun _ => Nat.le_refl _, .inl ⟨rfl, fun _ _ _ _ _ _ _ => rfl⟩⟩

/-- A taken waker is found among the wakes again. -/
theorem taken_of_wakes (hwakes : r'.wakes = r.wakes) (hwoken : r'.woken = r.woken)
    (stored : StoredWaker) (ht : Taken r stored) : Taken r' stored := by
  rw [Taken, hwakes, hwoken]
  exact ht

/-- A step at one slot keeps the wakers it does not own, if it keeps those of this slot. -/
theorem Keeps.of_update {id : Nat} (h : ScopeWf r) (he : Evolves r r')
    (hslot : r.slots id = some slot) (hslots : r'.slots = Function.update r.slots id (some slot'))
    (htaken : ∀ stored, Taken r stored → Taken r' stored)
    (hnext : slot'.generation = slot.generation → slot.waiters.nextId ≤ slot'.waiters.nextId)
    (hchange : (slot'.generation = slot.generation ∧
        ∀ source src key, r.sources[source]? = some src → src.slot = id →
          src.generation = slot.generation → ¬ own source key →
            slot'.stored key = slot.stored key) ∨
      (∀ key stored, slot.stored key = some stored → Taken r' stored) ∧
        ∀ key, slot'.stored key = none) : Keeps r r' own := by
  refine .of_slots h he htaken fun id₀ slot₀ slot₁ hslot₀ hslot₁ => ?_
  rw [hslots] at hslot₁
  by_cases hid : id₀ = id
  · subst hid
    rw [hslot] at hslot₀
    rw [Function.update_self] at hslot₁
    cases hslot₀
    cases hslot₁
    exact ⟨hnext, hchange⟩
  · rw [Function.update_of_ne hid, hslot₀] at hslot₁
    cases hslot₁
    exact ⟨fun _ => Nat.le_refl _, .inl ⟨rfl, fun _ _ _ _ _ _ _ => rfl⟩⟩

/-- The same for a section of a source, at its own slot. -/
theorem Keeps.update {s : Nat} (h : ScopeWf r) (he : Evolves r r') (hs : r.sources[s]? = some src)
    (hslot : r.slots src.slot = some slot) (hgeneration : src.generation = slot.generation)
    (hslots : r'.slots = Function.update r.slots src.slot (some slot'))
    (hwakes : r'.wakes = r.wakes ∧ r'.woken = r.woken) (hsame : slot'.generation = slot.generation)
    (hnext : slot.waiters.nextId ≤ slot'.waiters.nextId)
    (hkeys : ∀ key, ¬ own s key → slot'.stored key = slot.stored key) : Keeps r r' own := by
  refine .of_update h he hslot hslots (taken_of_wakes hwakes.1 hwakes.2) (fun _ => hnext)
    (.inl ⟨hsame, fun source src' key hs' hid hgeneration' hnot => ?_⟩)
  have heq := h.unique source s src' src hs' hs hid (hgeneration'.trans hgeneration.symm)
  exact hkeys key (heq ▸ hnot)

/-- A slot is rewritten with its waiters as they were. -/
theorem Keeps.rewrite {id : Nat} (h : ScopeWf r) (he : Evolves r r')
    (hslot : r.slots id = some slot) (hslots : r'.slots = Function.update r.slots id (some slot'))
    (hwakes : r'.wakes = r.wakes ∧ r'.woken = r.woken) (hsame : slot'.generation = slot.generation)
    (hwaiters : slot'.waiters = slot.waiters) : Keeps r r' own := by
  refine .of_update h he hslot hslots (taken_of_wakes hwakes.1 hwakes.2) (fun _ => ?_)
    (.inl ⟨hsame, fun _ _ key _ _ _ _ => ?_⟩)
  · rw [hwaiters]
  · exact stored_congr hwaiters key

variable {owner : Owner}

/-- The waker at a key is read off the slot of the source. -/
theorem Holds.of_slot (key : Key) (hslot : r.slots src.slot = some slot)
    (hs : r.sources[source]? = some src) (hgeneration : src.generation = slot.generation)
    (hkey : slot.stored key = some stored) (howner : stored.owner = owner) :
    Holds r source owner key stored :=
  ⟨howner, .inr ⟨src, slot, hs, hslot, hgeneration, hkey⟩⟩

/-- So is the owner of a key. -/
theorem Owned.of_slot (hs : r.sources[source]? = some src) (hslot : r.slots src.slot = some slot)
    (howner : ∀ stored, slot.stored key = some stored → stored.owner = owner) :
    Owned r source owner key := by
  rintro stored ⟨src', slot', hs', hslot', -, hkey⟩
  cases hs.symm.trans hs'
  cases hslot.symm.trans hslot'
  exact howner stored hkey

/-- A waker that a step does not own stays where it is. -/
theorem Holds.keeps (hk : Keeps r r' own) (hnot : ¬ own source key)
    (h : Holds r source owner key stored) : Holds r' source owner key stored := by
  obtain ⟨howner, ht | hstored⟩ := h
  · exact ⟨howner, .inl (hk.taken stored ht)⟩
  · exact ⟨howner, hk.kept source key stored hstored hnot⟩

/-- A key that a step does not own keeps its owner. -/
theorem Owned.keeps (hk : Keeps r r' own) (hlt : source < r.sources.length)
    (hnot : ¬ own source key) (h : Owned r source owner key) : Owned r' source owner key :=
  fun stored hstored => h stored (hk.back source key stored hlt hstored hnot)

/-- A source whose end has begun stays so. -/
theorem Begun.evolves (he : Evolves r r') (h : Begun r source) : Begun r' source := by
  obtain ⟨src, hs, hbegun⟩ := h
  obtain ⟨src', hs', hcont⟩ := he.sources source src hs
  exact ⟨src', hs', hcont.begun hbegun⟩

/-- The steps of others keep what a waiter knows. -/
theorem WaiterOk.keeps {w : Waiter} (hscope : ScopeWf r) (he : Evolves r r') (hk : Keeps r r' own)
    (hnot : ∀ id, w.Uses id → ¬ own w.source (.waiter id)) (h : WaiterOk r i w) :
    WaiterOk r' i w := by
  obtain ⟨src, hs, hissued⟩ := h.issued
  have hlt := (List.getElem_of_getElem? hs).1
  obtain ⟨src', hs', hcont⟩ := he.sources w.source src hs
  refine
    { issued := ⟨src', hs', hcont.issued hissued⟩
      own := fun id huses => ?_
      registered := fun x hx => ?_
      pending := fun waker hwaker => ?_
      busy := h.busy
      given := h.given
      reading := fun waker read hpc => (h.reading waker read hpc).evolves hscope he
      ready := fun hready => (h.ready hready).evolves he }
  · obtain ⟨hbelow, howned⟩ := h.own id huses
    exact ⟨hk.below w.source id hlt hbelow, howned.keeps hk hlt (hnot id huses)⟩
  · obtain ⟨id, stored, hid, hholds, hidentity⟩ := h.registered x hx
    exact ⟨id, stored, hid, hholds.keeps hk (hnot id (.inl hid)), hidentity⟩
  · obtain ⟨id, stored, hid, hholds, hidentity⟩ := h.pending waker hwaker
    exact ⟨id, stored, hid, hholds.keeps hk (hnot id (.inl hid)), hidentity⟩

/-- The steps of others keep what a task knows. -/
theorem TaskOk.keeps {t : Registration} (hscope : ScopeWf r) (he : Evolves r r')
    (hk : Keeps r r' own) (hnot : ¬ own t.source .task) (h : TaskOk r i t) : TaskOk r' i t := by
  obtain ⟨src, hs, hissued, hclaimed⟩ := h.issued
  obtain ⟨src', hs', hcont⟩ := he.sources t.source src hs
  refine
    { issued := ⟨src', hs', hcont.issued hissued, hcont.claimed hclaimed⟩
      own := h.own.keeps hk (List.getElem_of_getElem? hs).1 hnot
      registered := fun x hx => ?_
      pending := fun waker hwaker => ?_
      busy := h.busy
      reading := fun waker read hpc => (h.reading waker read hpc).evolves hscope he
      rechecking := fun waker read hpc => ?_
      ready := fun hready => (h.ready hready).evolves he }
  · obtain ⟨stored, hholds, hidentity⟩ := h.registered x hx
    exact ⟨stored, hholds.keeps hk hnot, hidentity⟩
  · obtain ⟨stored, hholds, hidentity⟩ := h.pending waker hwaker
    exact ⟨stored, hholds.keeps hk hnot, hidentity⟩
  · rcases h.rechecking waker read hpc with hlate | ⟨stored, hholds, hcloned⟩
    · exact .inl hlate
    · exact .inr ⟨stored, hholds.keeps hk hnot, hcloned⟩

end Others

namespace WakeWf

variable {own : Nat → Key → Prop}

/-- The registry starts without a waker. -/
theorem new : WakeWf new where
  scope := .new
  stores := fun id slot hslot => by cases hslot
  reads := fun c hc => by cases hc
  waiters := fun i w hw => by cases hw
  distinct := fun i j w w' id hw => by cases hw
  registrations := fun i t ht => by cases ht
  single := fun i j t t' ht => by cases ht
  tasks := fun source stored hstored => by
    obtain ⟨_, _, hs, -⟩ := hstored
    cases hs

/-- A waker is stored for a source that exists. -/
theorem lt_of_stored (hlength : r'.sources.length = r.sources.length)
    (h : Stored r' source key stored) : source < r.sources.length := by
  obtain ⟨_, _, hs, -⟩ := h
  rw [← hlength]
  exact (List.getElem_of_getElem? hs).1

/-- A new source has no waker yet. -/
theorem lt_of_stored_append {slots : Nat → Option CancellationSlot} {lengths : Nat → Nat}
    {free : Nat → List Nat}
    (h : Stored { r with slots, lengths, free, sources := r.sources ++ [src] } source key stored)
    (hslot : slots src.slot = some slot) (hnone : slot.stored key = none) :
    source < r.sources.length := by
  obtain ⟨src', slot', hs, hslot', -, hkey⟩ := h
  rcases getElem?_append_singleton_cases hs with hold | ⟨-, rfl⟩
  · exact (List.getElem_of_getElem? hold).1
  · cases hslot.symm.trans hslot'
    rw [hnone] at hkey
    cases hkey

/-- A step of a source, or of nobody here: it touches no waker but to take it. -/
theorem quiet (h : WakeWf r) (he : Evolves r r') (hk : Keeps r r' fun _ _ => False)
    (hold : ∀ source stored, Stored r' source .task stored → source < r.sources.length)
    (hstores : ∀ id slot, r'.slots id = some slot → StoreOk slot)
    (hreads : ∀ c ∈ r'.reads, ReadWf r c.source c.read) (hwaiters : r'.waiters = r.waiters)
    (hregistrations : r'.registrations = r.registrations) : WakeWf r' where
  scope := he.wf
  stores := hstores
  reads := fun c hc => (hreads c hc).evolves h.scope he
  waiters := fun i w hw =>
    (h.waiters i w (hwaiters ▸ hw)).keeps h.scope he hk (fun _ _ hown => hown)
  distinct := fun i j w w' id hw hw' => h.distinct i j w w' id (hwaiters ▸ hw) (hwaiters ▸ hw')
  registrations := fun i t ht =>
    (h.registrations i t (hregistrations ▸ ht)).keeps h.scope he hk (fun hown => hown)
  single := fun i j t t' ht ht' =>
    h.single i j t t' (hregistrations ▸ ht) (hregistrations ▸ ht')
  tasks := fun source stored hstored => by
    rw [hregistrations]
    exact h.tasks source stored
      (hk.back source .task stored (hold source stored hstored) hstored fun hown => hown)

/-- A step of a `Cancelled` future. The id it uses is its own or a new one. -/
theorem turnWaiter {w w' : Waiter} (h : WakeWf r) (hw : r.waiters[i]? = some w) (he : Evolves r r')
    (hk : Keeps r r' own) (hown : ∀ source key, own source key → source = w.source ∧
      ∃ id, key = .waiter id ∧ (w.Uses id ∨ ¬ Below r w.source id))
    (hstores : ∀ id slot, r'.slots id = some slot → StoreOk slot) (hreads : r'.reads = r.reads)
    (hlength : r'.sources.length = r.sources.length)
    (hregistrations : r'.registrations = r.registrations)
    (hwaiters : r'.waiters = r.waiters.set i w') (hsource : w'.source = w.source)
    (huses : ∀ id, w'.Uses id → w.Uses id ∨ ¬ Below r w.source id) (hok : WaiterOk r' i w') :
    WakeWf r' := by
  -- Another future of the source neither has the id nor can it be given it again.
  have hother (j : Nat) (w₁ : Waiter) (hj : r.waiters[j]? = some w₁) (id : Nat) (hne : j ≠ i)
      (hsame : w₁.source = w.source) (huses₁ : w₁.Uses id) :
      ¬ (w.Uses id ∨ ¬ Below r w.source id) := by
    rintro (huse | hnew)
    · exact hne (h.distinct j i w₁ w id hj hw hsame huses₁ huse)
    · exact hnew (hsame ▸ ((h.waiters j w₁ hj).own id huses₁).1)
  refine
    { scope := he.wf
      stores := hstores
      reads := fun c hc => (h.reads c (hreads ▸ hc)).evolves h.scope he
      waiters := fun j w₁ hj => ?_
      distinct := fun j k w₁ w₂ id hj hk' hsame huses₁ huses₂ => ?_
      registrations := fun j t ht =>
        (h.registrations j t (hregistrations ▸ ht)).keeps h.scope he hk (fun hown' => ?_)
      single := fun j k t t' ht ht' =>
        h.single j k t t' (hregistrations ▸ ht) (hregistrations ▸ ht')
      tasks := fun source stored hstored => ?_ }
  · rw [hwaiters] at hj
    rcases getElem?_set_cases hw hj with ⟨rfl, rfl⟩ | ⟨hne, hj⟩
    · exact hok
    · refine (h.waiters j w₁ hj).keeps h.scope he hk fun id huses₁ hown' => ?_
      obtain ⟨hsame, id', hid, hmine⟩ := hown _ _ hown'
      cases hid
      exact hother j w₁ hj id hne hsame huses₁ hmine
  · rw [hwaiters] at hj hk'
    rcases getElem?_set_cases hw hj with ⟨rfl, rfl⟩ | ⟨hne, hj'⟩ <;>
      rcases getElem?_set_cases hw hk' with ⟨rfl, rfl⟩ | ⟨hne', hk''⟩
    · rfl
    · exact absurd (huses id huses₁)
        (hother k w₂ hk'' id hne' (hsame.symm.trans hsource) huses₂)
    · exact absurd (huses id huses₂) (hother j w₁ hj' id hne (hsame.trans hsource) huses₁)
    · exact h.distinct j k w₁ w₂ id hj' hk'' hsame huses₁ huses₂
  · obtain ⟨-, id, hid, -⟩ := hown _ _ hown'
    cases hid
  · rw [hregistrations]
    refine h.tasks source stored
      (hk.back source .task stored (lt_of_stored hlength hstored) hstored fun hown' => ?_)
    obtain ⟨-, id, hid, -⟩ := hown _ _ hown'
    cases hid

/-- A step of one task, at its own key. -/
theorem turnTask {t t' : Registration} (h : WakeWf r) (ht : r.registrations[i]? = some t)
    (he : Evolves r r') (hk : Keeps r r' own)
    (hown : ∀ source key, own source key → source = t.source ∧ key = .task)
    (hstores : ∀ id slot, r'.slots id = some slot → StoreOk slot) (hreads : r'.reads = r.reads)
    (hlength : r'.sources.length = r.sources.length) (hwaiters : r'.waiters = r.waiters)
    (hregistrations : r'.registrations = r.registrations.set i t') (hsource : t'.source = t.source)
    (hok : TaskOk r' i t') : WakeWf r' := by
  refine
    { scope := he.wf
      stores := hstores
      reads := fun c hc => (h.reads c (hreads ▸ hc)).evolves h.scope he
      waiters := fun j w hw =>
        (h.waiters j w (hwaiters ▸ hw)).keeps h.scope he hk (fun id _ hown' => ?_)
      distinct := fun j k w w' id hw hw' =>
        h.distinct j k w w' id (hwaiters ▸ hw) (hwaiters ▸ hw')
      registrations := fun j t₁ hj => ?_
      single := fun j k t₁ t₂ hj hk' hsame => ?_
      tasks := fun source stored hstored => ?_ }
  · cases (hown _ _ hown').2
  · rw [hregistrations] at hj
    rcases getElem?_set_cases ht hj with ⟨rfl, rfl⟩ | ⟨hne, hj⟩
    · exact hok
    · exact (h.registrations j t₁ hj).keeps h.scope he hk fun hown' =>
        hne (h.single j i t₁ t hj ht (hown _ _ hown').1)
  · rw [hregistrations] at hj hk'
    rcases getElem?_set_cases ht hj with ⟨rfl, rfl⟩ | ⟨-, hj'⟩ <;>
      rcases getElem?_set_cases ht hk' with ⟨rfl, rfl⟩ | ⟨-, hk''⟩
    · rfl
    · exact h.single j k t t₂ ht hk'' (hsource.symm.trans hsame)
    · exact h.single j k t₁ t hj' ht (hsame.trans hsource)
    · exact h.single j k t₁ t₂ hj' hk'' hsame
  · have hself : r'.registrations[i]? = some t' := by
      rw [hregistrations]
      exact List.getElem?_set_self (List.getElem_of_getElem? ht).1
    by_cases hmine : source = t.source
    · exact ⟨i, t', hself, hsource.trans hmine.symm⟩
    · obtain ⟨j, t₁, hj, hsource₁⟩ := h.tasks source stored
        (hk.back source .task stored (lt_of_stored hlength hstored) hstored
          fun hown' => hmine (hown _ _ hown').1)
      refine ⟨j, t₁, ?_, hsource₁⟩
      rw [hregistrations, getElem?_set_ne]
      · exact hj
      · rintro rfl
        rw [ht] at hj
        cases hj
        exact hmine hsource₁.symm

end WakeWf

-- ---- The steps of a source.

/-- Detaching the waiters takes every stored waker. -/
theorem CancellationSlot.mem_detached (h : slot.stored key = some stored) :
    stored ∈ slot.detached := by
  cases key with
  | waiter id =>
    refine mem_append_left _ (mem_map.mpr ⟨⟨id, stored⟩, ?_, rfl⟩)
    exact AList.mem_lookup_iff.mp h
  | task =>
    refine mem_append_right _ ?_
    rw [mem_toList]
    exact h

namespace WakeWf

variable {id s : Nat}

/-- The stores stay sound when one slot is rewritten. -/
theorem stores_update (h : WakeWf r)
    (hslots : r'.slots = Function.update r.slots id (some slot')) (hok : StoreOk slot') :
    ∀ id slot, r'.slots id = some slot → StoreOk slot := by
  intro id' slot'' hslot''
  rw [hslots] at hslot''
  by_cases hid : id' = id
  · subst hid
    rw [Function.update_self] at hslot''
    cases hslot''
    exact hok
  · rw [Function.update_of_ne hid] at hslot''
    exact h.stores id' slot'' hslot''

/-- A free slot stores no waker. -/
theorem stored_of_free (h : WakeWf r) {shard index : Nat} (hfree : index ∈ r.free shard)
    (hslot : r.slots (slotId shard index) = some slot) (key : Key) : slot.stored key = none := by
  obtain ⟨-, slot', hslot', -, s, src, hs, hid, hgeneration, hdropped⟩ :=
    h.scope.free shard index hfree
  cases hslot.symm.trans hslot'
  have hcurrent := h.scope.current hs (hid ▸ hslot) hgeneration
  have hended := (h.scope.dropped_of_free hfree hs hid).2
  have hissued : src.pc ≠ .allocating := by
    rw [hdropped]
    rintro ⟨⟩
  exact (h.stores _ slot hslot).clear (.inl ((hcurrent.issued hissued).trans hended)) key

/-- Allocation finds the slot empty, so no waker gets a new source. -/
theorem allocate (h : WakeWf r) {shard : Nat} (hshard : shard < shards)
    (ha : r.allocate shard = some r') (he : Evolves r r') : WakeWf r' := by
  unfold CancellationRegistry.allocate at ha
  split at ha
  case h_1 index free hfree =>
    simp only [bind_eq_bind, bind_eq_some_iff, guard_eq_some', exists_const, some.injEq] at ha
    obtain ⟨slot, hslot, -, rfl⟩ := ha
    have hnone := h.stored_of_free (hfree ▸ mem_cons_self) hslot
    have hnone' (key : Key) : (slot.reuse r.sources.length).stored key = none := by
      cases key with
      | waiter id => exact hnone (.waiter id)
      | task => exact hnone .task
    refine h.quiet he (.of_update h.scope he hslot rfl (taken_of_wakes rfl rfl) (fun hsame => ?_)
      (.inr ⟨fun key stored hkey => ?_, hnone'⟩)) (fun source stored hstored => ?_)
      (h.stores_update rfl ⟨fun _ => hnone', ?_⟩) h.reads rfl rfl
    · -- The generation of the slot goes up, so no id of the old one counts.
      have := (h.scope.slots _ slot hslot).same
      change slot.waiters.generation + 1 = slot.generation at hsame
      omega
    · rw [hnone key] at hkey
      cases hkey
    · exact lt_of_stored_append hstored (Function.update_self ..) (hnone' .task)
    · intro id stored hstored
      rw [hnone'] at hstored
      cases hstored
  case h_2 hfree =>
    split at ha
    case isFalse => cases ha
    case isTrue =>
      cases ha
      refine h.quiet he (.of_slots h.scope he (taken_of_wakes rfl rfl)
        fun id slot slot' hslot hslot' => ?_)
        (fun source stored hstored =>
          lt_of_stored_append hstored (Function.update_self ..) (by rfl))
        (h.stores_update rfl ⟨fun _ key => by cases key <;> rfl, fun id stored hkey => by cases hkey⟩)
        h.reads rfl rfl
      have hne : id ≠ slotId shard (r.lengths shard) := by
        rintro rfl
        rw [h.scope.unused shard _ hshard (Nat.le_refl _)] at hslot
        cases hslot
      change Function.update r.slots _ _ id = some slot' at hslot'
      rw [Function.update_of_ne hne, hslot] at hslot'
      cases hslot'
      exact ⟨fun _ => Nat.le_refl _, .inl ⟨rfl, fun _ _ _ _ _ _ _ => rfl⟩⟩

/-- The start of a cancellation or of a release. -/
theorem beginEnd (h : WakeWf r) {held : Section} {pc : SourcePc}
    (hheld : held = .cancelling s ∨ held = .releasing s)
    (hb : r.beginEnd s src held pc = some r') (he : Evolves r r') : WakeWf r' := by
  simp only [CancellationRegistry.beginEnd, bind_eq_bind, bind_eq_some_iff,
    guard_eq_some', exists_const] at hb
  obtain ⟨slot, hslot, -, hb⟩ := hb
  split at hb
  case isTrue =>
    cases hb
    exact h.quiet he (.quiet h.scope he rfl (taken_of_wakes rfl rfl))
      (fun _ _ => lt_of_stored length_set) h.stores h.reads rfl rfl
  case isFalse =>
    cases hb
    refine h.quiet he (.rewrite h.scope he hslot rfl ⟨rfl, rfl⟩ rfl rfl)
      (fun _ _ => lt_of_stored length_set)
      (h.stores_update rfl ((h.stores src.slot slot hslot).rewrite rfl fun hclear => ?_)) h.reads
      rfl rfl
    rcases hclear with hcancelled | ⟨s', hlock | hlock⟩
    · exact .inl hcancelled
    all_goals
      rcases hheld with rfl | rfl <;> cases hlock

/-- The end of a source takes all its wakers along. -/
theorem finishEnd (h : WakeWf r) (hslot : r.slots id = some slot)
    (he : Evolves r (r.finishEnd id slot s src)) : WakeWf (r.finishEnd id slot s src) := by
  have htaken (stored : StoredWaker) (ht : Taken r stored) :
      Taken (r.finishEnd id slot s src) stored := by
    rcases ht with ⟨wakers, hwakers, hstored⟩ | hwoken
    · exact .inl ⟨wakers, mem_append_left _ hwakers, hstored⟩
    · exact .inr hwoken
  have hnone (key : Key) : slot.finishCancel.stored key = none := by
    cases key with
    | waiter id => exact AList.lookup_empty id
    | task => rfl
  refine h.quiet he (.of_update h.scope he hslot rfl htaken (fun _ => Nat.le_refl _)
    (.inr ⟨fun key stored hkey => ?_, hnone⟩)) (fun _ _ => lt_of_stored length_set)
    (h.stores_update rfl ⟨fun _ => hnone, fun id stored hkey => ?_⟩) h.reads rfl rfl
  · exact .inl ⟨slot.detached, mem_append_right _ (mem_singleton.mpr rfl),
      mem_detached hkey⟩
  · rw [hnone] at hkey
    cases hkey

/-- A step of a source. -/
theorem advance (h : WakeWf r) (ha : r.advance id = some r') (he : Evolves r r') : WakeWf r' := by
  simp only [CancellationRegistry.advance, bind_eq_bind, bind_eq_some_iff] at ha
  obtain ⟨slot, hslot, ha⟩ := ha
  have hold := h.stores id slot hslot
  split at ha
  · cases ha
  · next s hlock =>
    cases ha
    exact h.quiet he (.rewrite h.scope he hslot rfl ⟨rfl, rfl⟩ rfl rfl)
      (fun _ _ => lt_of_stored rfl)
      (h.stores_update rfl (hold.rewrite rfl fun _ => .inr ⟨s, .inl hlock⟩)) h.reads rfl rfl
  · next s hlock =>
    simp only [bind_eq_some_iff, some.injEq] at ha
    obtain ⟨src, hs, rfl⟩ := ha
    exact h.quiet he (.rewrite h.scope he hslot rfl ⟨rfl, rfl⟩ rfl rfl)
      (fun _ _ => lt_of_stored length_set)
      (h.stores_update rfl (hold.rewrite rfl fun _ => .inr ⟨s, .inr hlock⟩)) h.reads rfl rfl
  · next s hlock =>
    simp only [bind_eq_some_iff, some.injEq] at ha
    obtain ⟨src, hs, rfl⟩ := ha
    exact h.finishEnd hslot he
  · next s hlock =>
    simp only [bind_eq_some_iff] at ha
    obtain ⟨src, hs, ha⟩ := ha
    have hfinish := h.scope.finishEnd (.releasing s) hslot hlock (.inr rfl) hs
    have hended := h.finishEnd hslot hfinish
    split at ha
    case isFalse =>
      cases ha
      exact hended
    case isTrue =>
      cases ha
      -- The free list is nobody's business here.
      have he' : Evolves (r.finishEnd id slot s src) _ :=
        ⟨he.wf, fun _ src hs => ⟨src, hs, .refl src⟩, fun _ slot hslot => ⟨slot, hslot, Nat.le_refl _⟩⟩
      exact hended.quiet he' (.quiet hended.scope he' rfl (taken_of_wakes rfl rfl))
        (fun _ _ => lt_of_stored rfl) hended.stores hended.reads rfl rfl

/-- A wake-up takes its waker off the list and delivers it. -/
theorem wake (h : WakeWf r) {call : Nat} (hwake : r.wake call = some r') (he : Evolves r r') :
    WakeWf r' := by
  simp only [CancellationRegistry.wake, bind_eq_bind, bind_eq_some_iff] at hwake
  obtain ⟨wakers, hcall, hwake⟩ := hwake
  split at hwake
  · cases hwake
  · next waker rest =>
    cases hwake
    refine h.quiet he (.quiet h.scope he rfl fun stored ht => ?_) (fun _ _ => lt_of_stored rfl)
      h.stores h.reads rfl rfl
    rcases ht with ⟨wakers, hwakers, hstored⟩ | hwoken
    · obtain ⟨j, hj⟩ := mem_iff_getElem?.mp hwakers
      by_cases hne : j = call
      · subst hne
        rw [hcall] at hj
        cases hj
        rcases mem_cons.mp hstored with rfl | hrest
        · exact .inr (mem_append_right _ (mem_singleton.mpr rfl))
        · exact .inl ⟨rest, mem_iff_getElem?.mpr
            ⟨j, List.getElem?_set_self (List.getElem_of_getElem? hcall).1⟩, hrest⟩
      · refine .inl ⟨wakers, mem_iff_getElem?.mpr ⟨j, ?_⟩, hstored⟩
        exact (getElem?_set_ne (Ne.symm hne)).trans hj
    · exact .inr (mem_append_left _ hwoken)

/-- The start and the end of a delivery. -/
theorem delivery (h : WakeWf r) (hd : r.tryStartDelivery s = some r' ∨ r.finishDelivery s = some r')
    (he : Evolves r r') : WakeWf r' := by
  rcases hd with hd | hd
  all_goals
    simp only [tryStartDelivery, finishDelivery,
      bind_eq_bind, bind_eq_some_iff, guard_eq_some', exists_const] at hd
    obtain ⟨src, hs, slot, hslot, -, hd⟩ := hd
    split at hd
    case isTrue =>
      cases hd
      exact h.quiet he (.rewrite h.scope he hslot rfl ⟨rfl, rfl⟩ rfl rfl)
        (fun _ _ => lt_of_stored (by first | rfl | exact length_set))
        (h.stores_update rfl ((h.stores src.slot slot hslot).rewrite rfl fun hclear => hclear))
        h.reads rfl rfl
    case isFalse =>
      cases hd
      exact h

end WakeWf

-- ---- The steps of a `Cancelled` future.

/-- A read that answers yes has seen the end begun. -/
theorem ReadWf.begun {read : Read} (h : ReadWf r source read) (hpc : read.pc = .done true) :
    Begun r source := by
  obtain ⟨src, slot, hs, -, -, hok⟩ := h
  exact ⟨src, hs, hok.yes hpc⟩

/-- A waiter without an id uses none. -/
theorem Waiter.not_uses {pc : WaiterPc} (hpc : ∀ id dropping, pc ≠ .unregistering id dropping)
    (id : Nat) : ¬ Waiter.Uses ⟨source, none, none, pc, .unpolled⟩ id := by
  rintro (hid | ⟨dropping, hgiven⟩)
  · cases hid
  · exact hpc id dropping hgiven

/-- A future without an id, which may be about to remove the waker it had. -/
theorem WaiterOk.cleared {pc : WaiterPc}
    (hissued : ∃ src, r.sources[source]? = some src ∧ src.pc ≠ .allocating)
    (hpc : pc = .idle ∨ pc = .gone ∨ pc = .returning .ready ∧ Begun r source ∨
      ∃ id dropping, pc = .unregistering id dropping ∧ (dropping = false → Begun r source) ∧
        Below r source id ∧ Owned r source (.waiter i) (.waiter id)) :
    WaiterOk r i ⟨source, none, none, pc, .unpolled⟩ := by
  refine ⟨hissued, fun id huses => ?_, fun x hx => ?_, fun _ hpending => ?_, fun _ => rfl,
    fun _ _ _ => ⟨rfl, rfl⟩, fun _ read hread => ?_, fun hready => ?_⟩
  · rcases huses with hid | ⟨dropping, hgiven⟩
    · cases hid
    · rcases hpc with rfl | rfl | ⟨rfl, -⟩ | ⟨_, _, rfl, -, hown⟩ <;> cases hgiven
      exact hown
  · cases hx
  · rcases hpending with hp | hp
    · rcases hpc with rfl | rfl | ⟨rfl, -⟩ | ⟨_, _, rfl, -⟩ <;> cases hp
    · cases hp
  · rcases hpc with rfl | rfl | ⟨rfl, -⟩ | ⟨_, _, rfl, -⟩ <;> cases hread
  · rcases hpc with rfl | rfl | ⟨-, hbegun⟩ | ⟨_, _, rfl, hbegun, -⟩
    · rcases hready with hr | hr | ⟨_, hr⟩ <;> cases hr
    · rcases hready with hr | hr | ⟨_, hr⟩ <;> cases hr
    · exact hbegun
    · rcases hready with hr | hr | ⟨_, hr⟩ <;> cases hr
      exact hbegun rfl

namespace WakeWf

variable {waker clone : Nat} {w w' : Waiter}

section

variable (h : WakeWf r) (hw : r.waiters[i]? = some w)
include h hw

/-- A step of one waiter that leaves the slots alone. -/
theorem turnAlone (hsource : w'.source = w.source)
    (huses : ∀ id, w'.Uses id → w.Uses id) (hok : WaiterOk r i w') :
    WakeWf (r.setWaiter i w') := by
  have he : Evolves r (r.setWaiter i w') := h.scope.frame rfl rfl rfl rfl
  have hk : Keeps r (r.setWaiter i w') fun _ _ => False :=
    .quiet h.scope he rfl (taken_of_wakes rfl rfl)
  exact h.turnWaiter hw he hk (fun _ _ hown => hown.elim) h.stores rfl rfl rfl rfl hsource
    (fun id hid => .inl (huses id hid)) (hok.keeps h.scope he hk fun _ _ hown => hown)

/-- A future keeps its id and its waker. -/
theorem turnKeeping (pc : WaiterPc) (outcome : Outcome)
    (hgiven : ∀ id dropping, pc ≠ .unregistering id dropping)
    (hpending : ∀ waker, pc = .returning (.pending waker) ∨ outcome = .pending waker →
      w.registered = some waker ∨ w.pc = .returning (.pending waker))
    (hbusy : pc ≠ .idle → outcome = .unpolled)
    (hreading : ∀ waker read, pc = .reading waker read → ReadWf r w.source read)
    (hready : pc = .returning .ready ∨ outcome = .ready → Begun r w.source) :
    WakeWf (r.setWaiter i { w with pc, outcome }) := by
  have hok := h.waiters i w hw
  have huses (id : Nat) (huses : Waiter.Uses { w with pc, outcome } id) : w.Uses id := by
    rcases huses with hid | ⟨dropping, hpc⟩
    · exact .inl hid
    · exact absurd hpc (hgiven id dropping)
  refine h.turnAlone hw rfl huses ⟨hok.issued, fun id hid => hok.own id (huses id hid),
    hok.registered, fun waker hwaker => ?_, hbusy, fun id dropping hpc => ?_, hreading,
    fun hr => ?_⟩
  · rcases hpending waker hwaker with hx | hpc
    · obtain ⟨id, stored, hid, hholds, hidentity⟩ := hok.registered waker hx
      exact ⟨id, stored, hid, hholds, .inl hidentity⟩
    · exact hok.pending waker (.inl hpc)
  · exact absurd hpc (hgiven id dropping)
  · rcases hr with hr | hr | ⟨id, hpc⟩
    · exact hready (.inl hr)
    · exact hready (.inr hr)
    · exact absurd hpc (hgiven id false)

/-- A poll begins. -/
theorem poll (hs : r.sources[w.source]? = some src) : WakeWf (r.setWaiter i
      { w with pc := .reading waker ⟨src.ended, .generation⟩, outcome := .unpolled }) := by
  obtain ⟨src', hs', hissued⟩ := (h.waiters i w hw).issued
  cases hs.symm.trans hs'
  refine h.turnKeeping hw _ .unpolled (by rintro _ _ ⟨⟩) (by rintro _ (⟨⟨⟩⟩ | ⟨⟨⟩⟩)) (fun _ => rfl)
    (fun _ read hpc => ?_) (by rintro (⟨⟨⟩⟩ | ⟨⟨⟩⟩))
  cases hpc
  exact .start h.scope hs hissued

/-- A future gives its id up, to remove its waker in the next section. -/
theorem giveUp {id : Nat} (hid : w.waiterId = some id)
    (dropping : Bool) (hbegun : dropping = false → Begun r w.source) :
    WakeWf (r.setWaiter i
      { w with
        waiterId := none, registered := none, pc := .unregistering id dropping,
        outcome := .unpolled }) := by
  have hok := h.waiters i w hw
  refine h.turnAlone hw rfl (fun id' huses => ?_) (.cleared hok.issued
    (.inr (.inr (.inr ⟨id, dropping, rfl, hbegun, hok.own id (.inl hid)⟩))))
  rcases huses with hid' | ⟨dropping', hgiven⟩
  · cases hid'
  · cases hgiven
    exact .inl hid

/-- A waiter gives up its id without touching the slot: the source has moved on. -/
theorem clear (pc : WaiterPc) (hpc : pc = .gone ∨ pc = .returning .ready ∧ Begun r w.source) :
    WakeWf (r.setWaiter i
      { w with waiterId := none, registered := none, pc, outcome := .unpolled }) := by
  have hnot : ∀ id dropping, pc ≠ .unregistering id dropping := by
    rcases hpc with rfl | ⟨rfl, -⟩ <;> rintro _ _ ⟨⟩
  exact h.turnAlone hw rfl (fun id huses => absurd huses (Waiter.not_uses hnot id))
    (.cleared (h.waiters i w hw).issued (.inr (hpc.imp_right .inl)))

end

end WakeWf

namespace WakeWf

variable {waker clone : Nat} {w w' : Waiter}

section

variable (h : WakeWf r)
include h

/-- A slot with the waiters of a source is still the source's. -/
theorem current_of_locked (hslot : r.slots src.slot = some slot)
    (hgeneration : slot.waiters.generation = src.generation) : src.generation = slot.generation :=
  hgeneration.symm.trans (h.scope.slots src.slot slot hslot).same

/-- **A section of a future that changes its own place in the slot**, which has its
generation. -/
theorem turnLocked (hw : r.waiters[i]? = some w)
    (hs : r.sources[w.source]? = some src) (hslot : r.slots src.slot = some slot)
    (hgeneration : slot.waiters.generation = src.generation) (id : Nat)
    (hid : w.Uses id ∨ ¬ Below r w.source id) (waiters : SlotWaiters)
    (hr' : r' = (r.setSlot src.slot { slot with waiters }).setWaiter i w')
    (hwaiters : waiters.generation = slot.waiters.generation)
    (hnext : slot.waiters.nextId ≤ waiters.nextId)
    (hkeys : ∀ key, key ≠ .waiter id →
      { slot with waiters := waiters }.stored key = slot.stored key)
    (hstore : StoreOk { slot with waiters }) (hsource : w'.source = w.source)
    (huses : ∀ id', w'.Uses id' → w.Uses id' ∨ id' = id)
    (hok : Evolves r r' → r'.slots src.slot = some { slot with waiters } → WaiterOk r' i w') :
    WakeWf r' := by
  have he : Evolves r r' := by
    rw [hr']
    exact h.scope.quiet hs hslot hgeneration waiters rfl hwaiters rfl ⟨rfl, rfl⟩
  subst hr'
  have hk : Keeps r _ fun source key => source = w.source ∧ key = .waiter id :=
    .update h.scope he hs hslot (h.current_of_locked hslot hgeneration) rfl ⟨rfl, rfl⟩ rfl hnext
      fun key hnot => hkeys key fun hkey => hnot ⟨rfl, hkey⟩
  refine h.turnWaiter hw he hk (fun source key hown => ⟨hown.1, id, hown.2, hid⟩)
    (h.stores_update rfl hstore) rfl rfl rfl rfl hsource (fun id' huses' => ?_)
    (hok he (Function.update_self ..))
  rcases huses id' huses' with hold | rfl
  · exact .inl hold
  · exact hid

/-- A waiter removes its own entry. -/
theorem forget (hw : r.waiters[i]? = some w)
    (hs : r.sources[w.source]? = some src) (hslot : r.slots src.slot = some slot)
    (hgeneration : slot.waiters.generation = src.generation) (id : Nat) (hid : w.Uses id)
    (pc : WaiterPc) (hpc : pc = .gone ∨ pc = .returning .ready ∧ Begun r w.source) :
    WakeWf ((r.setSlot src.slot
      { slot with waiters := { slot.waiters with entries := slot.waiters.entries.erase id } }
        ).setWaiter i
      { w with waiterId := none, registered := none, pc, outcome := .unpolled }) := by
  have hkeys (key : Key) (hne : key ≠ .waiter id) :
      { slot with
        waiters := { slot.waiters with entries := slot.waiters.entries.erase id } }.stored key =
      slot.stored key := by
    cases key with
    | waiter id' => exact AList.lookup_erase_ne fun heq => hne (congrArg Key.waiter heq)
    | task => rfl
  have hnone : { slot with
      waiters := { slot.waiters with entries := slot.waiters.entries.erase id } }.stored
        (.waiter id) = none := AList.lookup_erase ..
  have hold := h.stores src.slot slot hslot
  refine h.turnLocked hw hs hslot hgeneration id (.inl hid) _ rfl rfl (Nat.le_refl _) hkeys
    ⟨fun hclear key => ?_, fun id' stored hkey => ?_⟩ rfl (fun id' huses => ?_) fun he _ => ?_
  · by_cases hne : key = .waiter id
    · rw [hne]
      exact hnone
    · rw [hkeys key hne]
      exact hold.clear hclear key
  · by_cases hne : Key.waiter id' = .waiter id
    · rw [hne, hnone] at hkey
      cases hkey
    · rw [hkeys _ hne] at hkey
      exact hold.below id' stored hkey
  · refine absurd huses (Waiter.not_uses (fun _ _ => ?_) id')
    rcases hpc with rfl | ⟨rfl, -⟩ <;> rintro ⟨⟩
  · exact .cleared (h.waiters i w hw).issued
      (.inr (hpc.imp_right fun hpc => .inl ⟨hpc.1, hpc.2.evolves he⟩))

/-- A waiter leaves while the source is live. -/
theorem leave (hw : r.waiters[i]? = some w)
    (hs : r.sources[w.source]? = some src) (hslot : r.slots src.slot = some slot)
    (hgeneration : slot.waiters.generation = src.generation) (hcancelled : slot.cancelled = false)
    (hlock : slot.lock = none) (id : Nat) (hid : w.Uses id ∨ ¬ Below r w.source id)
    (waiters : SlotWaiters) (hwaiters : waiters.generation = slot.waiters.generation)
    (hnext : slot.waiters.nextId ≤ waiters.nextId) (hbelow : id < waiters.nextId)
    (stored : StoredWaker) (hstored : waiters.entries.lookup id = some stored)
    (hothers : ∀ id', id' ≠ id → waiters.entries.lookup id' = slot.waiters.entries.lookup id')
    (htask : waiters.taskWaker = slot.waiters.taskWaker) (howner : stored.owner = .waiter i)
    (hwaker : stored.identity = waker ∨ stored.clonedFrom = waker) :
    WakeWf ((r.setSlot src.slot { slot with waiters }).setWaiter i
      { w with
        waiterId := some id, registered := some stored.identity,
        pc := .returning (.pending waker), outcome := .unpolled }) := by
  have hkeys (key : Key) (hne : key ≠ .waiter id) :
      { slot with waiters := waiters }.stored key = slot.stored key := by
    cases key with
    | waiter id' => exact hothers id' fun heq => hne (congrArg Key.waiter heq)
    | task => exact htask
  refine h.turnLocked hw hs hslot hgeneration id hid waiters rfl hwaiters hnext hkeys
    ⟨fun hclear => ?_, fun id' stored' hkey => ?_⟩ rfl (fun id' huses => ?_) fun he hself => ?_
  · rcases hclear with hclear | ⟨s, hclear | hclear⟩
    · cases hcancelled.symm.trans hclear
    all_goals cases hlock.symm.trans hclear
  · by_cases hne : id' = id
    · rw [hne]
      exact hbelow
    · rw [hkeys _ fun heq => hne (Key.waiter.inj heq)] at hkey
      exact Nat.lt_of_lt_of_le ((h.stores src.slot slot hslot).below id' stored' hkey) hnext
  · rcases huses with hid' | ⟨dropping, hgiven⟩
    · exact .inr (some.inj hid').symm
    · cases hgiven
  · have hcurrent := h.current_of_locked hslot hgeneration
    have hholds := Holds.of_slot (.waiter id) hself hs hcurrent hstored howner
    refine ⟨(h.waiters i w hw).issued, fun id' huses => ?_, fun x hx => ?_, fun waker' hpending => ?_,
      fun _ => rfl, nofun, fun _ read hread => ?_, fun hready => ?_⟩
    · rcases huses with hid' | ⟨dropping, hgiven⟩
      · cases hid'
        refine ⟨fun src' slot' hs' hslot' _ => ?_, .of_slot hs hself fun stored' hkey => ?_⟩
        · cases hs.symm.trans hs'
          cases hself.symm.trans hslot'
          exact hbelow
        · cases hstored.symm.trans hkey
          exact howner
      · cases hgiven
    · cases hx
      exact ⟨id, stored, rfl, hholds, rfl⟩
    · rcases hpending with hp | hp <;> cases hp
      exact ⟨id, stored, rfl, hholds, hwaker⟩
    · cases hread
    · rcases hready with hr | hr | ⟨_, hr⟩ <;> cases hr

/-- A registration does not look at the delivery state, so it only sees sources that have
ended. -/
theorem ended_of_isCancelled (hs : r.sources[source]? = some src)
    (hissued : src.pc ≠ .allocating) (hslot : r.slots src.slot = some slot)
    (hc : slot.waiters.generation ≠ src.generation ∨
      slot.isCancelled src.generation true = true) : src.ended = true := by
  obtain ⟨⟨slot', hslot', hle, hstale, hcurrent⟩, -⟩ := h.scope.sources source src hs
  cases hslot.symm.trans hslot'
  have hsame := (h.scope.slots src.slot slot hslot).same
  rcases Nat.lt_or_eq_of_le hle with hlt | heq
  · exact (hstale hlt).2
  · rcases hc with hne | hc
    · omega
    · simp only [isCancelled, heq, ne_eq, not_true_eq_false, decide_false,
        Bool.false_or, Bool.not_true, Bool.false_and, Bool.or_false] at hc
      exact ((hcurrent heq).issued hissued).symm.trans hc

/-- A source that the slot calls cancelled has begun to end. -/
theorem begun_of_isCancelled (hs : r.sources[source]? = some src)
    (hissued : src.pc ≠ .allocating) (hslot : r.slots src.slot = some slot) (task : Bool)
    (hc : slot.waiters.generation ≠ src.generation ∨
      slot.isCancelled src.generation task = true) : Begun r source := by
  refine ⟨src, hs, ?_⟩
  by_cases hseen : slot.waiters.generation ≠ src.generation ∨
      slot.isCancelled src.generation true = true
  · exact (h.scope.sources source src hs).ended (h.ended_of_isCancelled hs hissued hslot hseen)
  · -- Only the delivery state tells.
    obtain ⟨hgeneration, hlive⟩ := not_or.mp hseen
    have hcanceled : slot.delivery = .canceled := by
      have hflag := hc.resolve_left hgeneration
      rw [isCancelled] at hflag hlive
      simp only [Bool.not_true, Bool.false_and, Bool.or_false] at hlive
      simp only [Bool.or_eq_true, Bool.and_eq_true, decide_eq_true_eq] at hflag
      exact (hflag.resolve_left fun hended => hlive (by simpa using hended)).2
    have hcurrent := h.scope.current hs hslot (h.current_of_locked hslot (not_not.mp hgeneration))
    cases hbegun : src.begun with
    | true => rfl
    | false => exact absurd hcanceled (hcurrent.fresh hissued hbegun)

/-- The id under which a future stores its waker: its own, or the slot's next. -/
theorem issue (hw : r.waiters[i]? = some w) (hs : r.sources[w.source]? = some src)
    (hslot : r.slots src.slot = some slot)
    (hgeneration : slot.waiters.generation = src.generation) :
    (w.Uses (w.waiterId.getD slot.waiters.nextId) ∨
      ¬ Below r w.source (w.waiterId.getD slot.waiters.nextId)) ∧
    slot.waiters.nextId ≤
      (if w.waiterId.isSome then slot.waiters.nextId else slot.waiters.nextId + 1) ∧
    w.waiterId.getD slot.waiters.nextId <
      (if w.waiterId.isSome then slot.waiters.nextId else slot.waiters.nextId + 1) ∧
    ∀ stored, slot.waiters.entries.lookup (w.waiterId.getD slot.waiters.nextId) = some stored →
      stored.owner = .waiter i := by
  have hcurrent := h.current_of_locked hslot hgeneration
  cases hid : w.waiterId with
  | some id =>
    obtain ⟨hbelow, howned⟩ := (h.waiters i w hw).own id (.inl hid)
    exact ⟨.inl (.inl hid), Nat.le_refl _, hbelow src slot hs hslot hcurrent,
      fun stored hstored => howned stored ⟨src, slot, hs, hslot, hcurrent, hstored⟩⟩
  | none =>
    refine ⟨.inr fun hbelow => ?_, Nat.le_succ _, Nat.lt_succ_self _, fun stored hstored => ?_⟩
    · exact Nat.lt_irrefl _ (hbelow src slot hs hslot hcurrent)
    · exact absurd ((h.stores src.slot slot hslot).below _ stored hstored) (Nat.lt_irrefl _)

/-- The locked section of a waiter's poll. -/
theorem lockWaiter (hw : r.waiters[i]? = some w) (hpc : w.pc = .locking waker clone)
    (hs : r.sources[w.source]? = some src) (hslot : r.slots src.slot = some slot)
    (hlock : slot.lock = none)
    (hl : r.lockWaiter i w src slot waker clone = some r') : WakeWf r' := by
  have hok := h.waiters i w hw
  obtain ⟨src', hs', hissued⟩ := hok.issued
  cases hs.symm.trans hs'
  have hbusy : w.outcome = .unpolled := hok.busy (by rw [hpc]; rintro ⟨⟩)
  have hbegun := h.begun_of_isCancelled hs hissued hslot false
  obtain ⟨source, waiterId, registered, pc, outcome⟩ := w
  cases hbusy
  dsimp only at hs hl hbegun hpc
  unfold lockWaiter at hl
  split at hl
  case isTrue hne =>
    cases hl
    exact h.clear hw (.returning .ready) (.inr ⟨rfl, hbegun (.inl hne)⟩)
  case isFalse heq =>
    have hgeneration := not_not.mp heq
    split at hl
    case isTrue hcancelled =>
      cases hl
      cases waiterId with
      | some id =>
        exact h.forget hw hs hslot hgeneration id (.inl rfl) (.returning .ready)
          (.inr ⟨rfl, hbegun (.inr hcancelled)⟩)
      | none =>
        dsimp only
        have hsame : r.setSlot src.slot slot = r := by
          rw [setSlot, ← hslot, Function.update_eq_self]
        rw [hsame]
        exact h.clear hw (.returning .ready) (.inr ⟨rfl, hbegun (.inr hcancelled)⟩)
    case isFalse hlive =>
      have hflag : slot.cancelled = false := by
        simp only [isCancelled, Bool.or_eq_true, not_or] at hlive
        exact Bool.eq_false_iff.mpr hlive.1.2
      simp only [bind_eq_bind, bind_eq_some_iff, guard_eq_some',
        exists_const] at hl
      obtain ⟨-, hl⟩ := hl
      obtain ⟨hid, hnext, hbelow, howned⟩ := h.issue hw hs hslot hgeneration
      split at hl
      case isTrue hsame =>
        cases hl
        obtain ⟨stored, hstored, hwaker⟩ := (Option.any_eq_true ..).mp hsame
        rw [hstored]
        exact h.leave hw hs hslot hgeneration hflag hlock _ hid _ (by rfl) hnext hbelow stored hstored
          (fun _ _ => rfl) rfl (howned stored hstored) (.inl (of_decide_eq_true hwaker))
      case isFalse =>
        cases hl
        exact h.leave hw hs hslot hgeneration hflag hlock _ hid _ (by rfl) hnext hbelow
          ⟨clone, waker, .waiter i⟩ (AList.lookup_insert _) (fun _ hne => AList.lookup_insert_ne hne)
          rfl rfl (.inr rfl)

/-- A poll moves on to its next access. -/
theorem goOn (hw : r.waiters[i]? = some w) (pc : WaiterPc)
    (hbusy : w.outcome = .unpolled) (hgiven : ∀ id dropping, pc ≠ .unregistering id dropping)
    (hready : pc ≠ .returning .ready)
    (hpending : ∀ waker, pc = .returning (.pending waker) → w.registered = some waker)
    (hreading : ∀ waker read, pc = .reading waker read → ReadWf r w.source read) :
    WakeWf (r.setWaiter i { w with pc }) := by
  refine h.turnKeeping hw pc _ hgiven (fun waker hp => ?_) (fun _ => hbusy) hreading fun hr => ?_
  · rcases hp with hp | hp
    · exact .inl (hpending waker hp)
    · cases hbusy.symm.trans hp
  · rcases hr with hr | hr
    · exact absurd hr hready
    · cases hbusy.symm.trans hr

/-- A poll returns its outcome. -/
theorem returned (hw : r.waiters[i]? = some w) {outcome : Outcome}
    (hpc : w.pc = .returning outcome) :
    WakeWf (r.setWaiter i { w with pc := .idle, outcome }) := by
  refine h.turnKeeping hw .idle outcome (by rintro _ _ ⟨⟩) (fun waker hp => ?_)
    (fun hbusy => absurd rfl hbusy) (by rintro _ _ ⟨⟩) (fun hr => ?_)
  · rcases hp with hp | rfl
    · cases hp
    · exact .inr hpc
  · rcases hr with hr | rfl
    · cases hr
    · exact (h.waiters i w hw).ready (.inl hpc)

/-- A step of a poll. -/
theorem pollStep (hp : r.pollStep i clone = some r') : WakeWf r' := by
  simp only [CancellationRegistry.pollStep, bind_eq_bind, bind_eq_some_iff] at hp
  obtain ⟨w, hw, src, hs, slot, hslot, hp⟩ := hp
  have hok := h.waiters i w hw
  cases hpc : w.pc with
  | idle | gone =>
    rw [hpc] at hp
    cases hp
  | returning outcome =>
    rw [hpc] at hp
    cases hp
    exact h.returned hw hpc
  | reading waker read =>
    have hbusy := hok.busy (by rw [hpc]; rintro ⟨⟩)
    have hread := hok.reading waker read hpc
    rw [hpc] at hp
    dsimp only at hp
    split at hp
    · next hdone =>
      cases hid : w.waiterId with
      | some id =>
        rw [hid] at hp
        cases hp
        rw [hbusy]
        exact h.giveUp hw hid false fun _ => hread.begun hdone
      | none =>
        rw [hid] at hp
        cases hp
        rw [hbusy]
        exact h.clear hw (.returning .ready) (.inr ⟨rfl, hread.begun hdone⟩)
    · next hdone =>
      split at hp
      case isTrue hsame =>
        cases hp
        refine h.goOn hw _ hbusy (by rintro _ _ ⟨⟩) (fun h => by cases h) (fun _ hp => ?_)
          (by rintro _ _ ⟨⟩)
        cases hp
        exact hsame
      case isFalse =>
        cases hp
        exact h.goOn hw _ hbusy (by rintro _ _ ⟨⟩) (fun h => by cases h) (by rintro _ ⟨⟩)
          (by rintro _ _ ⟨⟩)
    · cases hp
      refine h.goOn hw _ hbusy (by rintro _ _ ⟨⟩) (fun h => by cases h) (by rintro _ ⟨⟩)
        (fun _ _ hpc => ?_)
      cases hpc
      exact hread.load h.scope hs hslot false
  | cloning waker =>
    rw [hpc] at hp
    cases hp
    exact h.goOn hw _ (hok.busy (by rw [hpc]; rintro ⟨⟩)) (by rintro _ _ ⟨⟩) (fun h => by cases h)
      (by rintro _ ⟨⟩) (by rintro _ _ ⟨⟩)
  | unregistering id dropping =>
    rw [hpc] at hp
    simp only [guard_eq_some', bind_eq_some_iff, exists_const, some.injEq] at hp
    obtain ⟨-, rfl⟩ := hp
    obtain ⟨hid, hregistered⟩ := hok.given id dropping hpc
    have hnext : (if dropping then WaiterPc.gone else .returning .ready) = .gone ∨
        (if dropping then WaiterPc.gone else .returning .ready) = .returning .ready ∧
          Begun r w.source := by
      cases dropping with
      | true => exact .inl rfl
      | false => exact .inr ⟨rfl, hok.ready (.inr (.inr ⟨id, hpc⟩))⟩
    rw [hid, hregistered, hok.busy (by rw [hpc]; rintro ⟨⟩)]
    unfold unregister
    split
    case isTrue hgeneration =>
      exact h.forget hw hs hslot hgeneration id (.inr ⟨dropping, hpc⟩) _ hnext
    case isFalse => exact h.clear hw _ hnext
  | locking waker clone =>
    rw [hpc] at hp
    simp only [bind_eq_some_iff, guard_eq_some', exists_const] at hp
    obtain ⟨hlock, hp⟩ := hp
    exact h.lockWaiter hw hpc hs hslot hlock hp

end

end WakeWf

-- ---- The steps of a task's registration.

/-- What a task knows between two polls. -/
theorem TaskOk.unpolled {registered : Option Nat} {pc : TaskPc}
    (hissued : ∃ src, r.sources[source]? = some src ∧ src.pc ≠ .allocating ∧ src.claimed = true)
    (hown : Owned r source (.task i) .task)
    (hregistered : ∀ x, registered = some x → ∃ stored, Holds r source (.task i) .task stored ∧
      stored.identity = x) (hpc : ∀ waker read,
      (pc = .reading waker read ∨ pc = .rechecking waker read → ReadWf r source read) ∧
      (pc = .rechecking waker read → read.late = true ∨
        ∃ stored, Holds r source (.task i) .task stored ∧ stored.clonedFrom = waker)) :
    TaskOk r i ⟨source, registered, pc, .unpolled⟩ where
  issued := hissued
  own := hown
  registered := hregistered
  pending := nofun
  busy := fun _ => rfl
  reading := fun waker read => (hpc waker read).1
  rechecking := fun waker read => (hpc waker read).2
  ready := nofun

namespace WakeWf

variable {waker clone : Nat} {t t' : Registration}

section

variable (h : WakeWf r) (ht : r.registrations[i]? = some t)
include h ht

/-- A registration goes on by itself, and nothing in its slot changes. -/
theorem turnTaskAlone
    (hsource : t'.source = t.source) (hok : TaskOk r i t') : WakeWf (r.setRegistration i t') := by
  have he : Evolves r (r.setRegistration i t') := h.scope.frame rfl rfl rfl rfl
  have hk : Keeps r (r.setRegistration i t') fun _ _ => False :=
    .quiet h.scope he rfl (taken_of_wakes rfl rfl)
  exact h.turnTask ht he hk (fun _ _ hown => hown.elim) h.stores rfl rfl rfl rfl hsource
    (hok.keeps h.scope he hk fun hown => hown)

/-- A poll of a registration returns. -/
theorem taskReturn (registered : Option Nat) (outcome : Outcome)
    (hregistered : ∀ x, registered = some x → ∃ stored,
      Holds r t.source (.task i) .task stored ∧ stored.identity = x)
    (hpending : ∀ waker, outcome = .pending waker → ∃ stored,
      Holds r t.source (.task i) .task stored ∧
        (stored.identity = waker ∨ stored.clonedFrom = waker))
    (hready : outcome = .ready → Begun r t.source) :
    WakeWf (r.setRegistration i { t with registered, pc := .idle, outcome }) := by
  have hok := h.registrations i t ht
  exact h.turnTaskAlone ht rfl ⟨hok.issued, hok.own, hregistered, hpending,
    fun hbusy => absurd rfl hbusy, by rintro _ _ (⟨⟨⟩⟩ | ⟨⟨⟩⟩), by rintro _ _ ⟨⟩, hready⟩

/-- A task's poll is ready: the end has begun. -/
theorem taskReady (hbegun : Begun r t.source) :
    WakeWf (r.setRegistration i { t with registered := none, pc := .idle, outcome := .ready }) :=
  h.taskReturn ht none .ready (by rintro _ ⟨⟩) (by rintro _ ⟨⟩) fun _ => hbegun

/-- A task's poll is pending: its waker is stored. -/
theorem taskPending (registered : Option Nat) (hregistered : ∀ x, registered = some x → ∃ stored,
      Holds r t.source (.task i) .task stored ∧ stored.identity = x)
    (hheld : ∃ stored, Holds r t.source (.task i) .task stored ∧
      (stored.identity = waker ∨ stored.clonedFrom = waker)) :
    WakeWf (r.setRegistration i { t with registered, pc := .idle, outcome := .pending waker }) := by
  refine h.taskReturn ht registered _ hregistered (fun waker' hpending => ?_) nofun
  cases hpending
  exact hheld

/-- A task's poll moves on. -/
theorem taskGoOn (registered : Option Nat)
    (pc : TaskPc) (hregistered : registered = none ∨ registered = t.registered)
    (hpc : ∀ waker read,
      (pc = .reading waker read ∨ pc = .rechecking waker read → ReadWf r t.source read) ∧
      (pc = .rechecking waker read → read.late = true ∨
        ∃ stored, Holds r t.source (.task i) .task stored ∧ stored.clonedFrom = waker)) :
    WakeWf (r.setRegistration i { t with registered, pc, outcome := .unpolled }) := by
  have hok := h.registrations i t ht
  refine h.turnTaskAlone ht rfl (.unpolled hok.issued hok.own (fun x hx => ?_) hpc)
  rcases hregistered with rfl | rfl
  · cases hx
  · exact hok.registered x hx

/-- A task's poll begins. -/
theorem pollTask (hs : r.sources[t.source]? = some src) : WakeWf (r.setRegistration i
      { t with pc := .reading waker ⟨src.ended, .generation⟩, outcome := .unpolled }) := by
  obtain ⟨src', hs', hissued, -⟩ := (h.registrations i t ht).issued
  cases hs.symm.trans hs'
  refine h.taskGoOn ht _ _ (.inr rfl) fun _ _ => ⟨fun hread => ?_, nofun⟩
  rcases hread with hread | hread <;> cases hread
  exact .start h.scope hs hissued

/-- The locked section of a task's poll. -/
theorem lockTask (hpc : t.pc = .locking waker)
    (hs : r.sources[t.source]? = some src) (hslot : r.slots src.slot = some slot) :
    WakeWf (r.lockTask i t src slot waker) := by
  have hok := h.registrations i t ht
  obtain ⟨src', hs', hissued, -⟩ := hok.issued
  cases hs.symm.trans hs'
  unfold CancellationRegistry.lockTask
  split
  case isTrue hcancelled =>
    exact h.taskReady ht (h.begun_of_isCancelled hs hissued hslot true hcancelled)
  case isFalse hlive =>
    split
    case isTrue hsame =>
      obtain ⟨stored, hstored, hwaker⟩ := (Option.any_eq_true ..).mp hsame
      rw [hstored]
      have hcurrent := h.current_of_locked hslot (not_not.mp fun hne => hlive (.inl hne))
      have howner := hok.own stored ⟨src, slot, hs, hslot, hcurrent, hstored⟩
      have hholds := Holds.of_slot .task hslot hs hcurrent hstored howner
      refine h.taskPending ht _ (fun x hx => ?_) ⟨stored, hholds, .inl (of_decide_eq_true hwaker)⟩
      cases hx
      exact ⟨stored, hholds, rfl⟩
    case isFalse =>
      have hgo := h.taskGoOn ht _ (.cloning waker) (.inr rfl)
        fun _ _ => ⟨by rintro (⟨⟨⟩⟩ | ⟨⟨⟩⟩), nofun⟩
      rw [← hok.busy (by rw [hpc]; rintro ⟨⟩)] at hgo
      exact hgo

/-- **A section of a registration that changes its own place in the slot**, which has its
generation. -/
theorem turnTaskLocked (hs : r.sources[t.source]? = some src) (hslot : r.slots src.slot = some slot)
    (hgeneration : slot.waiters.generation = src.generation) (taskWaker : Option StoredWaker)
    (hstore : taskWaker = none ∨ slot.cancelled = false ∧ slot.lock = none)
    (hr' : r' = (r.setSlot src.slot
      { slot with waiters := { slot.waiters with taskWaker } }).setRegistration i t')
    (hsource : t'.source = t.source)
    (hok : Evolves r r' →
      r'.slots src.slot = some { slot with waiters := { slot.waiters with taskWaker } } →
        TaskOk r' i t') : WakeWf r' := by
  have he : Evolves r r' := by
    rw [hr']
    exact h.scope.quiet hs hslot hgeneration _ rfl rfl rfl ⟨rfl, rfl⟩
  subst hr'
  have hkeys (key : Key) (hne : key ≠ .task) :
      { slot with waiters := { slot.waiters with taskWaker := taskWaker } }.stored key =
        slot.stored key := by
    cases key with
    | waiter id => rfl
    | task => exact absurd rfl hne
  have hk : Keeps r _ fun source key => source = t.source ∧ key = .task :=
    .update h.scope he hs hslot (h.current_of_locked hslot hgeneration) rfl ⟨rfl, rfl⟩ rfl
      (Nat.le_refl _) fun key hnot => hkeys key fun hkey => hnot ⟨rfl, hkey⟩
  have hold := h.stores src.slot slot hslot
  refine h.turnTask ht he hk (fun _ _ hown => hown)
    (h.stores_update rfl ⟨fun hclear key => ?_, fun id stored hkey => ?_⟩) rfl rfl rfl rfl
    hsource (hok he (Function.update_self ..))
  · cases key with
    | waiter id => exact hold.clear hclear (.waiter id)
    | task =>
      rcases hstore with rfl | ⟨hcancelled, hlock⟩
      · rfl
      · rcases hclear with hclear | ⟨s, hclear | hclear⟩
        · cases hcancelled.symm.trans hclear
        all_goals cases hlock.symm.trans hclear
  · exact hold.below id stored hkey

/-- The second section of `poll_before_register`. Where it finds the source ended, the last
check of the poll is a late one. -/
theorem relockTask (hpc : t.pc = .relocking waker clone) (hs : r.sources[t.source]? = some src)
    (hslot : r.slots src.slot = some slot) (hlock : slot.lock = none) :
    WakeWf (r.relockTask i t src slot waker clone) := by
  have hok := h.registrations i t ht
  obtain ⟨src', hs', hissued, hclaimed⟩ := hok.issued
  cases hs.symm.trans hs'
  have hbusy := hok.busy (by rw [hpc]; rintro ⟨⟩)
  have hstart := ReadWf.start h.scope hs hissued
  unfold CancellationRegistry.relockTask
  rw [hbusy]
  split
  case isTrue hcancelled =>
    have hended : src.ended = true := h.ended_of_isCancelled hs hissued hslot hcancelled
    refine h.taskGoOn ht none _ (.inl rfl) fun _ _ => ⟨fun hread => ?_, fun hread => ?_⟩
    · rcases hread with hread | hread <;> cases hread
      exact hstart
    · cases hread
      exact .inl hended
  case isFalse hlive =>
    have hflag : slot.cancelled = false := by
      simp only [isCancelled, Bool.or_eq_true, not_or] at hlive
      exact Bool.eq_false_iff.mpr hlive.2.1.2
    have hgeneration := not_not.mp fun hne => hlive (.inl hne)
    refine h.turnTaskLocked ht hs hslot hgeneration _ (.inr ⟨hflag, hlock⟩) rfl rfl
      fun he hself => ?_
    have hcurrent := h.current_of_locked hslot hgeneration
    have hholds := Holds.of_slot .task hself hs hcurrent rfl rfl
    refine .unpolled ⟨src, hs, hissued, hclaimed⟩ (.of_slot hs hself fun stored hkey => ?_)
      (fun x hx => ?_) fun _ _ => ⟨fun hread => ?_, fun hread => ?_⟩
    · cases hkey
      rfl
    · cases hx
      exact ⟨_, hholds, rfl⟩
    · rcases hread with hread | hread <;> cases hread
      exact hstart.evolves h.scope he
    · cases hread
      exact .inr ⟨_, hholds, rfl⟩

end

/-- A step of a task. -/
theorem taskStep (h : WakeWf r) (hp : r.taskStep i clone = some r') : WakeWf r' := by
  simp only [CancellationRegistry.taskStep, bind_eq_bind, bind_eq_some_iff] at hp
  obtain ⟨t, ht, src, hs, slot, hslot, hp⟩ := hp
  have hok := h.registrations i t ht
  cases hpc : t.pc with
  | idle | gone =>
    rw [hpc] at hp
    cases hp
  | reading waker read =>
    have hbusy := hok.busy (by rw [hpc]; rintro ⟨⟩)
    have hread := hok.reading waker read (.inl hpc)
    rw [hpc] at hp
    dsimp only at hp
    split at hp
    · next hdone =>
      cases hp
      exact h.taskReady ht (hread.begun hdone)
    · split at hp
      case isTrue hsame =>
        cases hp
        obtain ⟨stored, hholds, hidentity⟩ := hok.registered waker hsame
        exact h.taskPending ht t.registered hok.registered ⟨stored, hholds, .inl hidentity⟩
      case isFalse =>
        cases hp
        rw [hbusy]
        exact h.taskGoOn ht _ _ (.inr rfl) fun _ _ => ⟨by rintro (⟨⟨⟩⟩ | ⟨⟨⟩⟩), (fun h => by cases h)⟩
    · cases hp
      rw [hbusy]
      refine h.taskGoOn ht _ _ (.inr rfl) fun _ _ => ⟨fun hread' => ?_, (fun h => by cases h)⟩
      rcases hread' with hread' | hread' <;> cases hread'
      exact hread.load h.scope hs hslot true
  | locking waker =>
    rw [hpc] at hp
    simp only [bind_eq_some_iff, guard_eq_some', exists_const, some.injEq] at hp
    obtain ⟨-, rfl⟩ := hp
    exact h.lockTask ht hpc hs hslot
  | cloning waker =>
    rw [hpc] at hp
    cases hp
    rw [hok.busy (by rw [hpc]; rintro ⟨⟩)]
    exact h.taskGoOn ht _ _ (.inr rfl) fun _ _ => ⟨by rintro (⟨⟨⟩⟩ | ⟨⟨⟩⟩), (fun h => by cases h)⟩
  | relocking waker clone =>
    rw [hpc] at hp
    simp only [bind_eq_some_iff, guard_eq_some', exists_const, some.injEq] at hp
    obtain ⟨hlock, rfl⟩ := hp
    exact h.relockTask ht hpc hs hslot hlock
  | rechecking waker read =>
    have hbusy := hok.busy (by rw [hpc]; rintro ⟨⟩)
    have hread := hok.reading waker read (.inr hpc)
    rw [hpc] at hp
    dsimp only at hp
    split at hp
    · next hdone =>
      cases hp
      exact h.taskReady ht (hread.begun hdone)
    · next hdone =>
      cases hp
      -- A late check does not end here, so the waker was stored.
      rcases hok.rechecking waker read hpc with hlate | ⟨stored, hholds, hcloned⟩
      · obtain ⟨_, _, -, -, -, hseen⟩ := hread
        cases hlate.symm.trans (hseen.no hdone)
      · exact h.taskPending ht t.registered hok.registered ⟨stored, hholds, .inr hcloned⟩
    · cases hp
      rw [hbusy]
      refine h.taskGoOn ht _ _ (.inr rfl) fun _ _ => ⟨fun hread' => ?_, fun hread' => ?_⟩
      · rcases hread' with hread' | hread' <;> cases hread'
        exact hread.load h.scope hs hslot true
      · cases hread'
        exact hok.rechecking waker read hpc

/-- A task is dropped and leaves its key. -/
theorem dropTask (h : WakeWf r) (hd : r.dropTask i = some r') : WakeWf r' := by
  simp only [CancellationRegistry.dropTask, bind_eq_bind, bind_eq_some_iff,
    guard_eq_some', exists_const] at hd
  obtain ⟨t, ht, src, hs, slot, hslot, ⟨hpc, hlock⟩, hd⟩ := hd
  have hok := h.registrations i t ht
  obtain ⟨src', hs', hissued⟩ := hok.issued
  split at hd
  case isTrue hgeneration =>
    cases hd
    refine h.turnTaskLocked ht hs hslot hgeneration none (.inl rfl) rfl rfl fun he hself => ?_
    exact .unpolled ⟨src', hs', hissued⟩ (.of_slot hs hself (by rintro _ ⟨⟩)) (by rintro _ ⟨⟩)
      fun _ _ => ⟨by rintro (⟨⟨⟩⟩ | ⟨⟨⟩⟩), (fun h => by cases h)⟩
  case isFalse =>
    cases hd
    exact h.taskGoOn ht none .gone (.inl rfl) fun _ _ => ⟨by rintro (⟨⟨⟩⟩ | ⟨⟨⟩⟩), (fun h => by cases h)⟩

end WakeWf

-- ---- Every step, every run.

namespace WakeWf

variable {s : Nat}

/-- The reads of tokens change. -/
theorem setReads (h : WakeWf r) (reads : List TokenRead)
    (hreads : ∀ c ∈ reads, ReadWf r c.source c.read) : WakeWf { r with reads } := by
  have he : Evolves r { r with reads } := h.scope.frame rfl rfl rfl rfl
  exact h.quiet he (.quiet h.scope he rfl (taken_of_wakes rfl rfl)) (fun _ _ => lt_of_stored rfl)
    h.stores hreads rfl rfl

/-- A new waiter watches an issued source. -/
theorem watch (h : WakeWf r) (hs : r.sources[s]? = some src) (hissued : src.pc ≠ .allocating) :
    WakeWf { r with waiters := r.waiters ++ [⟨s, none, none, .idle, .unpolled⟩] } := by
  have he : Evolves r { r with waiters := r.waiters ++ [⟨s, none, none, .idle, .unpolled⟩] } :=
    h.scope.frame rfl rfl rfl rfl
  have hk : Keeps r { r with waiters := r.waiters ++ [⟨s, none, none, .idle, .unpolled⟩] }
      fun _ _ => False := .quiet h.scope he rfl (taken_of_wakes rfl rfl)
  have hnone (id : Nat) : ¬Waiter.Uses ⟨s, none, none, .idle, .unpolled⟩ id :=
    Waiter.not_uses (by rintro _ _ ⟨⟩) id
  refine
    { scope := he.wf
      stores := h.stores
      reads := fun c hc => (h.reads c hc).evolves h.scope he
      waiters := fun i w hw => ?_
      distinct := fun i j w w' id hw hw' hsame huses huses' => ?_
      registrations := fun i t ht =>
        (h.registrations i t ht).keeps h.scope he hk fun hown => hown
      single := h.single
      tasks := h.tasks }
  · rcases getElem?_append_singleton_cases hw with hold | ⟨-, rfl⟩
    · exact (h.waiters i w hold).keeps h.scope he hk fun _ _ hown => hown
    · exact .cleared ⟨src, hs, hissued⟩ (.inl rfl)
  · rcases getElem?_append_singleton_cases hw with hold | ⟨-, rfl⟩
    · rcases getElem?_append_singleton_cases hw' with hold' | ⟨-, rfl⟩
      · exact h.distinct i j w w' id hold hold' hsame huses huses'
      · exact absurd huses' (hnone id)
    · exact absurd huses (hnone id)

/-- A task claims a live source, whose task key is free. -/
theorem claim (h : WakeWf r) (hs : r.sources[s]? = some src) (hlive : src.pc = .live)
    (hfree : src.claimed = false)
    (he : Evolves r { (r.setSource s { src with claimed := true }) with
      registrations := r.registrations ++ [⟨s, none, .idle, .unpolled⟩] }) :
    WakeWf { (r.setSource s { src with claimed := true }) with
      registrations := r.registrations ++ [⟨s, none, .idle, .unpolled⟩] } := by
  have hk : Keeps r { (r.setSource s { src with claimed := true }) with
      registrations := r.registrations ++ [⟨s, none, .idle, .unpolled⟩] } fun _ _ => False :=
    .quiet h.scope he rfl (taken_of_wakes rfl rfl)
  -- No registration of this source was issued before.
  have hnew (i : Nat) (t : Registration) (ht : r.registrations[i]? = some t) : t.source ≠ s := by
    rintro rfl
    obtain ⟨src', hs', -, hclaimed⟩ := (h.registrations i t ht).issued
    cases hs.symm.trans hs'
    cases hfree.symm.trans hclaimed
  have hback (source : Nat) (stored : StoredWaker)
      (hstored : Stored { (r.setSource s { src with claimed := true }) with
        registrations := r.registrations ++ [⟨s, none, .idle, .unpolled⟩] } source .task stored) :
      ∃ (i : Nat) (t : Registration), r.registrations[i]? = some t ∧ t.source = source :=
    h.tasks source stored
      (hk.back source .task stored (lt_of_stored length_set hstored) hstored fun hown => hown)
  refine
    { scope := he.wf
      stores := h.stores
      reads := fun c hc => (h.reads c hc).evolves h.scope he
      waiters := fun i w hw => (h.waiters i w hw).keeps h.scope he hk fun _ _ hown => hown
      distinct := h.distinct
      registrations := fun i t ht => ?_
      single := fun i j t t' ht ht' hsame => ?_
      tasks := fun source stored hstored => ?_ }
  · rcases getElem?_append_singleton_cases ht with hold | ⟨-, rfl⟩
    · exact (h.registrations i t hold).keeps h.scope he hk fun hown => hown
    · refine .unpolled ⟨{ src with claimed := true }, ?_, ?_, rfl⟩ (fun stored hstored => ?_)
        (by rintro _ ⟨⟩) fun _ _ => ⟨by rintro (⟨⟨⟩⟩ | ⟨⟨⟩⟩), nofun⟩
      · exact List.getElem?_set_self (List.getElem_of_getElem? hs).1
      · rw [hlive]
        rintro ⟨⟩
      · obtain ⟨i', t', ht', hsource⟩ := hback _ _ hstored
        exact absurd hsource (hnew i' t' ht')
  · rcases getElem?_append_singleton_cases ht with hold | ⟨rfl, rfl⟩ <;>
      rcases getElem?_append_singleton_cases ht' with hold' | ⟨rfl, rfl⟩
    · exact h.single i j t t' hold hold' hsame
    · exact absurd hsame (hnew i t hold)
    · exact absurd hsame.symm (hnew j t' hold')
    · rfl
  · obtain ⟨i, t, ht, hsource⟩ := hback source stored hstored
    refine ⟨i, t, ?_, hsource⟩
    exact (List.getElem?_append_left (List.getElem_of_getElem? ht).1).trans ht

/-- **Every step keeps the invariant.** -/
theorem step (h : WakeWf r) {action : CancellationRegistry.Action}
    (hstep : r.step action = some r') : WakeWf r' := by
  have he := h.scope.step hstep
  cases action with
  | allocate shard =>
    rw [CancellationRegistry.step] at hstep
    split at hstep
    case isTrue hshard => exact h.allocate hshard hstep he
    case isFalse => cases hstep
  | cancel s =>
    simp only [CancellationRegistry.step, bind_eq_bind, bind_eq_some_iff,
      guard_eq_some', exists_const] at hstep
    obtain ⟨src, -, -, hb⟩ := hstep
    exact h.beginEnd (.inl rfl) hb he
  | drop s =>
    simp only [CancellationRegistry.step, bind_eq_bind, bind_eq_some_iff,
      guard_eq_some', exists_const] at hstep
    obtain ⟨src, -, -, hb⟩ := hstep
    exact h.beginEnd (.inr rfl) hb he
  | advance id => exact h.advance hstep he
  | wake call => exact h.wake hstep he
  | tryStartDelivery s => exact h.delivery (.inl hstep) he
  | finishDelivery s => exact h.delivery (.inr hstep) he
  | pollStep i clone => exact h.pollStep hstep
  | taskStep i clone => exact h.taskStep hstep
  | dropTask i => exact h.dropTask hstep
  | read s =>
    simp only [CancellationRegistry.step, bind_eq_bind, bind_eq_some_iff,
      guard_eq_some', exists_const, some.injEq] at hstep
    obtain ⟨src, hs, hissued, rfl⟩ := hstep
    refine h.setReads _ fun c hc => ?_
    rcases mem_append.mp hc with hc | hc
    · exact h.reads c hc
    · rw [mem_singleton.mp hc]
      exact .start h.scope hs hissued
  | load call =>
    simp only [CancellationRegistry.step, bind_eq_bind, bind_eq_some_iff, some.injEq] at hstep
    obtain ⟨c, hc, src, hs, slot, hslot, rfl⟩ := hstep
    refine h.setReads _ fun c' hc' => ?_
    rcases mem_or_eq_of_mem_set hc' with hc' | rfl
    · exact h.reads c' hc'
    · exact .load h.scope (h.reads c (mem_of_getElem? hc)) hs hslot false
  | watch s =>
    simp only [CancellationRegistry.step, bind_eq_bind, bind_eq_some_iff,
      guard_eq_some', exists_const, some.injEq] at hstep
    obtain ⟨src, hs, hissued, rfl⟩ := hstep
    exact h.watch hs hissued
  | poll i waker =>
    simp only [CancellationRegistry.step, bind_eq_bind, bind_eq_some_iff,
      guard_eq_some', exists_const, some.injEq] at hstep
    obtain ⟨w, hw, src, hs, -, rfl⟩ := hstep
    exact h.poll hw hs
  | dropWaiter i =>
    simp only [CancellationRegistry.step, bind_eq_bind, bind_eq_some_iff,
      guard_eq_some', exists_const] at hstep
    obtain ⟨w, hw, -, hstep⟩ := hstep
    split at hstep
    · next id hid =>
      cases hstep
      exact h.giveUp hw hid true (fun h => by cases h)
    · next hid =>
      cases hstep
      rw [hid]
      exact h.clear hw .gone (.inl rfl)
  | claim s =>
    simp only [CancellationRegistry.step, bind_eq_bind, bind_eq_some_iff,
      guard_eq_some', exists_const, some.injEq] at hstep
    obtain ⟨src, hs, ⟨hlive, hfree⟩, rfl⟩ := hstep
    exact h.claim hs hlive hfree he
  | pollTask i waker =>
    simp only [CancellationRegistry.step, bind_eq_bind, bind_eq_some_iff,
      guard_eq_some', exists_const, some.injEq] at hstep
    obtain ⟨t, ht, src, hs, -, rfl⟩ := hstep
    exact h.pollTask ht hs

end WakeWf

/-- What a call of `is_cancelled` may return: not `false` if it began after the end of its
source, and not `true` before that end has begun. -/
def Truthful (r : CancellationRegistry) (source : Nat) (read : Read) : Prop :=
  (read.late = true → read.pc ≠ .done false) ∧ (read.pc = .done true → Begun r source)

/-- A finished read is right. -/
theorem ReadWf.truthful {read : Read} (h : ReadWf r source read) : Truthful r source read := by
  refine ⟨fun hlate hno => ?_, h.begun⟩
  obtain ⟨_, _, -, -, -, hok⟩ := h
  cases hlate.symm.trans (hok.no hno)

/-- **Isolation of scopes, and no lost wake-up**, in one state. -/
structure Isolated (r : CancellationRegistry) : Prop where
  /-- A token is cancelled from the end of its source on, and not before that begins. -/
  reads      : ∀ c ∈ r.reads, Truthful r c.source c.read
  polls      : ∀ w ∈ r.waiters, (∀ waker read, w.pc = .reading waker read →
    Truthful r w.source read) ∧ (w.outcome = .ready → Begun r w.source)
  taskPolls  : ∀ t ∈ r.registrations, (∀ waker read, t.pc = .reading waker read ∨
    t.pc = .rechecking waker read → Truthful r t.source read) ∧
      (t.outcome = .ready → Begun r t.source)
  /-- One delivery is started at most, and none once the end has begun. -/
  deliveries : ∀ src ∈ r.sources, src.starts ≤ 1 ∧ src.lateStart = false
  /-- What is done on behalf of a source leaves other slots and generations alone. -/
  untouched  : ∀ (action : CancellationRegistry.Action) (r' : CancellationRegistry) (s : Nat)
    (src : Source) (id : Nat) (slot : CancellationSlot), r.step action = some r' →
      action.source r = some s → r.sources[s]? = some src → r.slots id = some slot →
      id ≠ src.slot ∨ slot.generation ≠ src.generation → r'.slots id = some slot
  /-- No slot and generation is issued twice. -/
  unique     : ∀ (s s' : Nat) (src src' : Source), r.sources[s]? = some src →
    r.sources[s']? = some src' → src.slot = src'.slot → src.generation = src'.generation → s = s'
  /-- A pending future has its waker in the slot, or a call that wakes it has taken it. -/
  pending    : ∀ (i : Nat) (w : Waiter) (waker : Nat), r.waiters[i]? = some w →
    w.outcome = .pending waker → ∃ id stored, w.waiterId = some id ∧
      (stored.identity = waker ∨ stored.clonedFrom = waker) ∧
      Holds r w.source (.waiter i) (.waiter id) stored
  waiting    : ∀ (i : Nat) (t : Registration) (waker : Nat), r.registrations[i]? = some t →
    t.outcome = .pending waker → ∃ stored,
      (stored.identity = waker ∨ stored.clonedFrom = waker) ∧
      Holds r t.source (.task i) .task stored
  /-- A waker in a slot is that of a scope that has not ended. -/
  stored     : ∀ source key stored, Stored r source key stored →
    ∃ src, r.sources[source]? = some src ∧ src.ended = false
  /-- A source has its slot until it is dropped: its `cancel` and its drop pass their check of
  the generation, and so begin its end. -/
  owned      : ∀ (s : Nat) (src : Source), r.sources[s]? = some src → src.pc ≠ .dropped →
    ∃ slot, r.slots src.slot = some slot ∧ slot.waiters.generation = src.generation
  /-- The drop begins the end, which is reached once the section of `release` is over. -/
  dropped    : ∀ (s : Nat) (src : Source), r.sources[s]? = some src → src.pc = .dropped →
    src.begun = true ∧ (src.ended = true ∨
      ∃ slot, r.slots src.slot = some slot ∧ slot.lock = some (.releasing s))

/-- No waker is stored for a source that has ended. -/
theorem WakeWf.not_ended (h : WakeWf r) (hstored : Stored r source key stored) :
    ∃ src, r.sources[source]? = some src ∧ src.ended = false := by
  obtain ⟨src, slot, hs, hslot, hgeneration, hkey⟩ := hstored
  refine ⟨src, hs, ?_⟩
  have hcurrent := h.scope.current hs hslot hgeneration
  by_cases hissued : src.pc = .allocating
  · exact (hcurrent.allocating hissued).2.2.1
  · cases hended : src.ended with
    | false => rfl
    | true =>
      rw [(h.stores src.slot slot hslot).clear (.inl ((hcurrent.issued hissued).trans hended))] at hkey
      cases hkey

namespace CancellationRegistry

/-- **In every run, scopes are isolated and no wake-up is lost.** -/
theorem cancellation_scope (hr : Reachable step new r) : Isolated r := by
  have h : WakeWf r := hr.invariant (fun _ _ _ hwf hstep => hwf.step hstep) .new
  refine
    { reads := fun c hc => (h.reads c hc).truthful
      polls := fun w hw => ?_
      taskPolls := fun t ht => ?_
      deliveries := fun src hsrc => ?_
      untouched := fun action r' s src id slot hstep hact hs hslot hother =>
        h.scope.untouched hstep hact hs hslot hother
      unique := h.scope.unique
      pending := fun i w waker hw hpending => ?_
      waiting := fun i t waker ht hpending => ?_
      stored := fun source key stored hstored => h.not_ended hstored
      owned := fun s src hs hlive => ?_
      dropped := fun s src hs hdropped => h.scope.dropped hs hdropped }
  · obtain ⟨i, hi⟩ := mem_iff_getElem?.mp hw
    have hok := h.waiters i w hi
    exact ⟨fun waker read hpc => (hok.reading waker read hpc).truthful,
      fun hready => hok.ready (.inr (.inl hready))⟩
  · obtain ⟨i, hi⟩ := mem_iff_getElem?.mp ht
    have hok := h.registrations i t hi
    exact ⟨fun waker read hpc => (hok.reading waker read hpc).truthful, hok.ready⟩
  · obtain ⟨s, hs⟩ := mem_iff_getElem?.mp hsrc
    have hok := h.scope.sources s src hs
    exact ⟨hok.starts, hok.notLate⟩
  · obtain ⟨id, stored, hid, hholds, hwaker⟩ := (h.waiters i w hw).pending waker (.inr hpending)
    exact ⟨id, stored, hid, hwaker, hholds⟩
  · obtain ⟨stored, hholds, hwaker⟩ := (h.registrations i t ht).pending waker hpending
    exact ⟨stored, hwaker, hholds⟩
  · obtain ⟨slot, hslot, hgeneration⟩ := h.scope.slot_of_live hs hlive
    exact ⟨slot, hslot, (h.scope.slots _ slot hslot).same.trans hgeneration.symm⟩

/-- A future that waits, a delivery, the drop of the source, and the reuse of its slot
between two loads of a call of `is_cancelled` on the old token. -/
def reuseRun : List Action :=
  [.allocate 3, .watch 0, .poll 0 7, .pollStep 0 0, .pollStep 0 0, .pollStep 0 0, .pollStep 0 0,
    .pollStep 0 0, .pollStep 0 8, .pollStep 0 0, .pollStep 0 0, .tryStartDelivery 0, .drop 0,
    .advance 3, .read 0, .load 0, .allocate 3, .advance 3, .load 0, .load 0, .advance 3, .load 0,
    .tryStartDelivery 0, .wake 0]

/-- A slot is reused: the first source ends with its waker called, the second is live. -/
theorem cancellation_scope_reuse : ∃ r, run step new reuseRun = some r ∧
      r.sources.map (fun src => (src.slot, src.generation, src.starts)) = [(3, 1, 1), (3, 2, 0)] ∧
      (r.waiters.map Waiter.outcome, r.woken.map StoredWaker.clonedFrom) = ([.pending 7], [7]) ∧
      r.reads = [⟨0, ⟨true, .done true⟩⟩] ∧ Isolated r := by
  have hrun : (run step new reuseRun).map
      (fun r => (r.sources.map (fun src => (src.slot, src.generation, src.starts)),
        (r.waiters.map Waiter.outcome, r.woken.map StoredWaker.clonedFrom), r.reads)) =
      some ([(3, 1, 1), (3, 2, 0)], ([.pending 7], [7]), [⟨0, ⟨true, .done true⟩⟩]) := by
    decide +kernel
  obtain ⟨r, hr, heq⟩ := map_eq_some_iff.mp hrun
  simp only [Prod.mk.injEq] at heq
  exact ⟨r, hr, heq.1, by rw [heq.2.1.1, heq.2.1.2], heq.2.2, cancellation_scope ⟨reuseRun, hr⟩⟩

end CancellationRegistry

end Xlfn.Async.Cancellation
