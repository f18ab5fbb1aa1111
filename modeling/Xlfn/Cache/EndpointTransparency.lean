import Xlfn.Cache.EndpointMemo

/-!
# Xlfn — the memo of endpoint resolution is transparent

An entry of a memo outlives its registry. It is for an identity that was given out, so it is never
for a registry that is yet to come, and while its registry is alive it agrees with the map.
-/

namespace Xlfn.Cache.Endpoint

open Xlfn.Lib Xlfn.Kernel AList Function Option

variable {T W : Type} {hash : SetHash T}

-- ---- The memo.

/-- A memo holds an entry, in some way of some set. -/
def EndpointCache.Has (memo : EndpointCache T) (entry : ResolvedEndpoint T) : Prop :=
  ∃ index way, memo.sets index way = some entry

variable {memo : EndpointCache T} {registry : CacheRegistry T} {endpoint : CacheEndpoint T W}
  {p t slot : Nat} {call : Call T W} {u : System T W}

/-- An answer of the memo is the pointer of an entry for this registry and key. -/
theorem EndpointCache.has_of_lookup [DecidableEq T] {registry pointer : Nat}
    (h : memo.lookup hash registry endpoint = some pointer) :
    memo.Has ⟨registry, endpoint.key, pointer⟩ := by
  obtain ⟨way, -, hway⟩ := List.exists_of_findSome?_eq_some h
  obtain ⟨entry, hentry, hanswer⟩ := bind_eq_some_iff.mp hway
  refine ⟨setIndex hash registry endpoint, way, ?_⟩
  rw [hentry]
  unfold ResolvedEndpoint.answer at hanswer
  split at hanswer
  · next hmatch =>
    cases hanswer
    obtain ⟨rfl, hkey⟩ := hmatch
    rw [← hkey]
  · cases hanswer

/-- A memo holds what it held, and what was remembered last. -/
theorem EndpointCache.has_of_remember {registry pointer : Nat} {entry : ResolvedEndpoint T}
    (h : (memo.remember hash registry endpoint pointer).Has entry) :
    entry = ⟨registry, endpoint.key, pointer⟩ ∨ memo.Has entry := by
  obtain ⟨index, way, h⟩ := h
  simp only [EndpointCache.remember, update_apply] at h
  split at h
  · next hindex =>
    rw [update_apply] at h
    split at h
    · exact .inl (some.inj h).symm
    · exact .inr ⟨_, way, h⟩
  · exact .inr ⟨index, way, h⟩

-- ---- The registries that are alive.

variable [DecidableEq T]

/-- The registry at `slot` maps a key to a box. -/
def System.Holds (s : System T W) (slot : Nat) (key : T × String) (pointer : Nat) : Prop :=
  ∃ registry, s.registries slot = some registry ∧ registry.caches.lookup key = some pointer

/-- The registry at `slot` has an identity. -/
def System.Names (s : System T W) (slot identity : Nat) : Prop :=
  ∃ registry, s.registries slot = some registry ∧ registry.identity = identity

/-- What registries, boxes and memos have to do with each other. -/
structure Sound (s : System T W) : Prop where
  /-- Identities in use were given out. -/
  given    : ∀ slot identity, s.Names slot identity → identity < s.nextIdentity
  /-- No two registries have the same identity. -/
  distinct : ∀ slot slot' identity, s.Names slot identity → s.Names slot' identity → slot = slot'
  /-- A box in a map is alive and of the type of its key. -/
  stored   : ∀ slot key p, s.Holds slot key p → ∃ weigher, s.heap p = some ⟨key.1, weigher⟩
  /-- No two registries share a box. -/
  owned    : ∀ slot slot' key key' p, s.Holds slot key p → s.Holds slot' key' p → slot = slot'
  /-- An entry of a memo was for an identity that was given out. -/
  stamped  : ∀ t memo entry, s.memos t = some memo → memo.Has entry →
    entry.registry < s.nextIdentity
  /-- An entry of a memo agrees with the registry it is for, while that is alive. -/
  agrees   : ∀ t memo entry slot, s.memos t = some memo → memo.Has entry →
    s.Names slot entry.registry → s.Holds slot entry.key entry.pointer

/-- What a resolution under way relies on. -/
structure CallOk (s : System T W) (call : Call T W) : Prop where
  live     : ∃ registry, s.registries call.slot = some registry
  /-- Its own box is alive, and in no map. -/
  boxed    : ∀ box, call.stage = .inserting box →
    (∃ weigher, s.heap box = some ⟨call.endpoint.typeId, weigher⟩) ∧
      ∀ slot key, ¬s.Holds slot key box
  resolved : ∀ p, call.stage = .resolved p → s.Holds call.slot call.endpoint.key p

structure Inv (s : System T W) : Prop extends Sound s where
  calls : ∀ t call, s.calls.lookup t = some call → CallOk s call
  /-- No two resolutions share a box. -/
  boxes : ∀ t t' call call' box, s.calls.lookup t = some call → s.calls.lookup t' = some call' →
    call.stage = .inserting box → call'.stage = .inserting box → t = t'

theorem Inv.init : Inv (System.init : System T W) where
  given _ _ := by rintro ⟨_, ⟨⟩, -⟩
  distinct _ _ _ := by rintro ⟨_, ⟨⟩, -⟩
  stored _ _ _ := by rintro ⟨_, ⟨⟩, -⟩
  owned _ _ _ _ _ := by rintro ⟨_, ⟨⟩, -⟩
  stamped _ _ _ h := by cases h
  agrees _ _ _ _ h := by cases h
  calls _ _ h := by cases h
  boxes _ _ _ _ _ h := by cases h

-- ---- Steps that leave the maps alone.

variable {s s' : System T W}

/-- Every registry is where it was, with its identity and its map. -/
structure SameMaps (s s' : System T W) : Prop where
  names : ∀ slot identity, s'.Names slot identity ↔ s.Names slot identity
  holds : ∀ slot key p, s'.Holds slot key p ↔ s.Holds slot key p

theorem SameMaps.of_eq (h : s'.registries = s.registries) : SameMaps s s' where
  names slot identity := by unfold System.Names; rw [h]
  holds slot key p := by unfold System.Holds; rw [h]

theorem SameMaps.of_lock {insertions : Option Nat} (h : s.registries slot = some registry) :
    SameMaps s (s.setRegistry slot { registry with insertions }) where
  names i identity := by
    unfold System.Names System.setRegistry
    by_cases hi : i = slot
    · subst hi
      simp [h]
    · simp [update_of_ne hi]
  holds i key p := by
    unfold System.Holds System.setRegistry
    by_cases hi : i = slot
    · subst hi
      simp [h]
    · simp [update_of_ne hi]

theorem SameMaps.trans {s'' : System T W} (h : SameMaps s s') (h' : SameMaps s' s'') :
    SameMaps s s'' where
  names slot identity := (h'.names slot identity).trans (h.names slot identity)
  holds slot key p := (h'.holds slot key p).trans (h.holds slot key p)

theorem SameMaps.live (h : SameMaps s s') (hlive : ∃ registry, s.registries slot = some registry) :
    ∃ registry, s'.registries slot = some registry := by
  obtain ⟨registry, hr⟩ := hlive
  obtain ⟨registry', hr', -⟩ := (h.names slot registry.identity).mpr ⟨registry, hr, rfl⟩
  exact ⟨registry', hr'⟩

/-- Sound systems stay sound while the maps, and the boxes in them, are left alone. -/
theorem Sound.of_same (h : Sound s) (hmaps : SameMaps s s')
    (hnext : s'.nextIdentity = s.nextIdentity) (hmemos : s'.memos = s.memos)
    (hheap : ∀ slot key p, s.Holds slot key p → s'.heap p = s.heap p) : Sound s' where
  given slot identity hn := by
    rw [hnext]
    exact h.given slot identity ((hmaps.names _ _).mp hn)
  distinct slot slot' identity hn hn' :=
    h.distinct slot slot' identity ((hmaps.names _ _).mp hn) ((hmaps.names _ _).mp hn')
  stored slot key p hp := by
    have hp := (hmaps.holds _ _ _).mp hp
    rw [hheap slot key p hp]
    exact h.stored slot key p hp
  owned slot slot' key key' p hp hp' :=
    h.owned slot slot' key key' p ((hmaps.holds _ _ _).mp hp) ((hmaps.holds _ _ _).mp hp')
  stamped t memo entry hm he := by
    rw [hnext]
    exact h.stamped t memo entry (hmemos ▸ hm) he
  agrees t memo entry slot hm he hn :=
    (hmaps.holds _ _ _).mpr
      (h.agrees t memo entry slot (hmemos ▸ hm) he ((hmaps.names _ _).mp hn))

theorem CallOk.of_same (h : CallOk s call) (hmaps : SameMaps s s')
    (hheap : ∀ box, call.stage = .inserting box → s'.heap box = s.heap box) : CallOk s' call where
  live := hmaps.live h.live
  boxed box hbox := by
    obtain ⟨hstored, hfree⟩ := h.boxed box hbox
    rw [hheap box hbox]
    exact ⟨hstored, fun slot key hp => hfree slot key ((hmaps.holds _ _ _).mp hp)⟩
  resolved p hp := (hmaps.holds _ _ _).mpr (h.resolved p hp)

-- ---- The life of the registries.

theorem CacheRegistry.owns_iff :
    registry.owns p = true ↔ ∃ key, registry.caches.lookup key = some p := by
  unfold CacheRegistry.owns
  rw [List.any_eq_true]
  constructor
  · rintro ⟨⟨key, q⟩, hmem, hq⟩
    cases beq_iff_eq.mp hq
    exact ⟨key, Table.lookup_of_mem_entries hmem⟩
  · rintro ⟨key, hkey⟩
    exact ⟨⟨key, p⟩, mem_lookup_iff.mp hkey, beq_self_eq_true p⟩

omit [DecidableEq T] in
theorem ne_slot_of_not_borrowed (h : ¬s.borrowed slot = true)
    (hcall : s.calls.lookup t = some call) : call.slot ≠ slot := by
  intro heq
  refine h (List.any_eq_true.mpr ⟨⟨t, call⟩, mem_lookup_iff.mp hcall, ?_⟩)
  exact beq_iff_eq.mpr heq

theorem Inv.stop (h : Inv s) : Inv { s with stopped := true } := by
  have hmaps : SameMaps s { s with stopped := true } := .of_eq rfl
  exact ⟨h.toSound.of_same hmaps rfl rfl fun _ _ _ _ => rfl,
    fun t call hcall => (h.calls t call hcall).of_same hmaps fun _ _ => rfl, h.boxes⟩

/-- **A new registry** has an identity no memo has heard of. -/
theorem Inv.create (h : Inv s) {next : Nat} (hslot : s.registries slot = none)
    (hnext : checkedIncrement s.nextIdentity = some next) :
    Inv ({ s with nextIdentity := next }.setRegistry slot ⟨s.nextIdentity, ∅, none⟩) := by
  generalize hs' : ({ s with nextIdentity := next }.setRegistry slot
    ⟨s.nextIdentity, ∅, none⟩ : System T W) = s'
  obtain ⟨rfl, -⟩ := checkedIncrement_eq_some hnext
  have hat : s'.registries slot = some ⟨s.nextIdentity, ∅, none⟩ := by
    subst hs'
    exact update_self ..
  have hother : ∀ i, i ≠ slot → s'.registries i = s.registries i := by
    intro i hi
    subst hs'
    exact update_of_ne hi ..
  have hheap : s'.heap = s.heap := by subst hs'; rfl
  have hmemos : s'.memos = s.memos := by subst hs'; rfl
  have hcalls : s'.calls = s.calls := by subst hs'; rfl
  have hcount : s'.nextIdentity = s.nextIdentity + 1 := by subst hs'; rfl
  -- The new registry is the only one with the new identity, and its map is empty.
  have hnames : ∀ i identity, s'.Names i identity →
      (i = slot ∧ identity = s.nextIdentity) ∨ (i ≠ slot ∧ s.Names i identity) := by
    rintro i identity ⟨registry, hr, rfl⟩
    by_cases hi : i = slot
    · subst hi
      rw [hat] at hr
      cases hr
      exact .inl ⟨rfl, rfl⟩
    · exact .inr ⟨hi, registry, hother i hi ▸ hr, rfl⟩
  have hholds : ∀ i key p, s'.Holds i key p ↔ s.Holds i key p := by
    intro i key p
    by_cases hi : i = slot
    · subst hi
      refine iff_of_false ?_ ?_
      · rintro ⟨registry, hr, hkey⟩
        rw [hat] at hr
        cases hr
        cases hkey
      · rintro ⟨registry, hr, -⟩
        rw [hslot] at hr
        cases hr
    · unfold System.Holds
      rw [hother i hi]
  refine ⟨⟨?_, ?_, ?_, ?_, ?_, ?_⟩, ?_, ?_⟩
  · intro i identity hi
    rcases hnames i identity hi with ⟨-, rfl⟩ | ⟨-, hi⟩
    · omega
    · have := h.given i identity hi
      omega
  · intro i j identity hi hj
    rcases hnames i identity hi with ⟨rfl, rfl⟩ | ⟨-, hi⟩
    · rcases hnames j _ hj with ⟨rfl, -⟩ | ⟨-, hj⟩
      · rfl
      · exact absurd (h.given j _ hj) (Nat.lt_irrefl _)
    · rcases hnames j identity hj with ⟨rfl, rfl⟩ | ⟨-, hj⟩
      · exact absurd (h.given i _ hi) (Nat.lt_irrefl _)
      · exact h.distinct i j identity hi hj
  · intro i key p hp
    rw [hheap]
    exact h.stored i key p ((hholds i key p).mp hp)
  · intro i j key key' p hp hp'
    exact h.owned i j key key' p ((hholds i key p).mp hp) ((hholds j key' p).mp hp')
  · intro t memo entry hm he
    have := h.stamped t memo entry (hmemos ▸ hm) he
    omega
  · intro t memo entry i hm he hi
    have hstamped := h.stamped t memo entry (hmemos ▸ hm) he
    rcases hnames i _ hi with ⟨-, heq⟩ | ⟨-, hi⟩
    · omega
    · exact (hholds i _ _).mpr (h.agrees t memo entry i (hmemos ▸ hm) he hi)
  · intro t call hcall
    rw [hcalls] at hcall
    have hok := h.calls t call hcall
    obtain ⟨registry, hr⟩ := hok.live
    have hne : call.slot ≠ slot := by
      rintro rfl
      rw [hslot] at hr
      cases hr
    refine ⟨⟨registry, (hother _ hne).trans hr⟩, ?_, fun p hp => (hholds _ _ _).mpr
      (hok.resolved p hp)⟩
    intro box hbox
    obtain ⟨hstored, hfree⟩ := hok.boxed box hbox
    rw [hheap]
    exact ⟨hstored, fun i key hp => hfree i key ((hholds i key box).mp hp)⟩
  · intro t t' call call' box hcall hcall'
    rw [hcalls] at hcall hcall'
    exact h.boxes t t' call call' box hcall hcall'

/-- **A registry that moves** takes its identity and its boxes along. -/
theorem Inv.move (h : Inv s) {source target : Nat} (hsource : s.registries source = some registry)
    (htarget : s.registries target = none) (hfree : ¬s.borrowed source = true) : Inv { s with
      registries := update (update s.registries source none) target
        (some registry) } := by
  generalize hs' : ({ s with
    registries := update (update s.registries source none) target
      (some registry) } : System T W) = s'
  have hregistries : ∀ i, s'.registries i =
      if i = target then some registry else if i = source then none else s.registries i := by
    intro i
    subst hs'
    simp only [update_apply]
  have hheap : s'.heap = s.heap := by subst hs'; rfl
  have hmemos : s'.memos = s.memos := by subst hs'; rfl
  have hcalls : s'.calls = s.calls := by subst hs'; rfl
  have hcount : s'.nextIdentity = s.nextIdentity := by subst hs'; rfl
  -- Where the registry that is at `i` now was before.
  let back : Nat → Nat := fun i => if i = target then source else i
  have hback : ∀ i r, s'.registries i = some r → s.registries (back i) = some r := by
    intro i r hr
    rw [hregistries] at hr
    by_cases hi : i = target
    · simp only [back, if_pos hi] at hr ⊢
      exact hsource.trans hr
    · simp only [if_neg hi] at hr
      simp only [back, if_neg hi]
      split at hr
      · cases hr
      · exact hr
  have hinj : ∀ i j, (∃ r, s'.registries i = some r) → (∃ r, s'.registries j = some r) →
      back i = back j → i = j := by
    rintro i j ⟨r, hr⟩ ⟨r', hr'⟩ heq
    rw [hregistries] at hr hr'
    simp only [back] at heq
    split at heq <;> split at heq
    · next hi hj => exact hi.trans hj.symm
    · next hi hj =>
      rw [if_neg hj, if_pos heq.symm] at hr'
      cases hr'
    · next hi hj =>
      rw [if_neg hi, if_pos heq] at hr
      cases hr
    · exact heq
  have hnames : ∀ i identity, s'.Names i identity → s.Names (back i) identity :=
    fun i identity ⟨r, hr, hid⟩ => ⟨r, hback i r hr, hid⟩
  have hholds : ∀ i key p, s'.Holds i key p → s.Holds (back i) key p :=
    fun i key p ⟨r, hr, hkey⟩ => ⟨r, hback i r hr, hkey⟩
  refine ⟨⟨?_, ?_, ?_, ?_, ?_, ?_⟩, ?_, ?_⟩
  · intro i identity hi
    rw [hcount]
    exact h.given _ identity (hnames i identity hi)
  · intro i j identity hi hj
    exact hinj i j (hi.imp fun _ => And.left) (hj.imp fun _ => And.left)
      (h.distinct _ _ identity (hnames i identity hi) (hnames j identity hj))
  · intro i key p hp
    rw [hheap]
    exact h.stored _ key p (hholds i key p hp)
  · intro i j key key' p hp hp'
    exact hinj i j (hp.imp fun _ => And.left) (hp'.imp fun _ => And.left)
      (h.owned _ _ key key' p (hholds i key p hp) (hholds j key' p hp'))
  · intro t memo entry hm he
    rw [hcount]
    exact h.stamped t memo entry (hmemos ▸ hm) he
  · rintro t memo entry i hm he ⟨r, hr, hid⟩
    obtain ⟨r', hr', hkey⟩ := h.agrees t memo entry (back i) (hmemos ▸ hm) he
      ⟨r, hback i r hr, hid⟩
    rw [hback i r hr] at hr'
    cases hr'
    exact ⟨r, hr, hkey⟩
  · intro t call hcall
    rw [hcalls] at hcall
    have hok := h.calls t call hcall
    -- The registry of a resolution under way stays where it is.
    obtain ⟨r, hr⟩ := hok.live
    have hat : s'.registries call.slot = s.registries call.slot := by
      rw [hregistries, if_neg, if_neg (ne_slot_of_not_borrowed hfree hcall)]
      intro heq
      rw [heq, htarget] at hr
      cases hr
    refine ⟨⟨r, hat.trans hr⟩, ?_, ?_⟩
    · intro box hbox
      obtain ⟨hstored, hnone⟩ := hok.boxed box hbox
      rw [hheap]
      exact ⟨hstored, fun i key hp => hnone _ key (hholds i key box hp)⟩
    · intro p hp
      obtain ⟨r', hr', hkey⟩ := hok.resolved p hp
      exact ⟨r', hat.trans hr', hkey⟩
  · intro t t' call call' box hcall hcall'
    rw [hcalls] at hcall hcall'
    exact h.boxes t t' call call' box hcall hcall'

/-- **Dropping a registry** frees its boxes, and no other registry's. -/
theorem Inv.drop (h : Inv s) (hslot : s.registries slot = some registry)
    (hfree : ¬s.borrowed slot = true) :
    Inv { s with registries := update s.registries slot none
                 heap       := fun p => if registry.owns p then none else s.heap p } := by
  generalize hs' : ({ s with
    registries := update s.registries slot none
    heap       := fun p => if registry.owns p then none else s.heap p } : System T W) = s'
  have hregistries : ∀ i r, s'.registries i = some r → i ≠ slot ∧ s.registries i = some r := by
    intro i r hr
    subst hs'
    simp only [update_apply] at hr
    split at hr
    · cases hr
    · next hi => exact ⟨hi, hr⟩
  have hother : ∀ i, i ≠ slot → s'.registries i = s.registries i := by
    intro i hi
    subst hs'
    exact update_of_ne hi ..
  have hheap : ∀ p, (∀ key, ¬s.Holds slot key p) → s'.heap p = s.heap p := by
    intro p hp
    subst hs'
    refine if_neg fun howns => ?_
    obtain ⟨key, hkey⟩ := CacheRegistry.owns_iff.mp howns
    exact hp key ⟨registry, hslot, hkey⟩
  have hmemos : s'.memos = s.memos := by subst hs'; rfl
  have hcalls : s'.calls = s.calls := by subst hs'; rfl
  have hcount : s'.nextIdentity = s.nextIdentity := by subst hs'; rfl
  have hnames : ∀ i identity, s'.Names i identity → i ≠ slot ∧ s.Names i identity :=
    fun i identity ⟨r, hr, hid⟩ => ⟨(hregistries i r hr).1, r, (hregistries i r hr).2, hid⟩
  have hholds : ∀ i key p, s'.Holds i key p → i ≠ slot ∧ s.Holds i key p :=
    fun i key p ⟨r, hr, hkey⟩ => ⟨(hregistries i r hr).1, r, (hregistries i r hr).2, hkey⟩
  have hkept : ∀ i key p, i ≠ slot → s.Holds i key p → s'.Holds i key p :=
    fun i key p hi ⟨r, hr, hkey⟩ => ⟨r, (hother i hi).trans hr, hkey⟩
  refine ⟨⟨?_, ?_, ?_, ?_, ?_, ?_⟩, ?_, ?_⟩
  · intro i identity hi
    rw [hcount]
    exact h.given i identity (hnames i identity hi).2
  · intro i j identity hi hj
    exact h.distinct i j identity (hnames i identity hi).2 (hnames j identity hj).2
  · intro i key p hp
    obtain ⟨hi, hp⟩ := hholds i key p hp
    rw [hheap p fun key' hp' => hi (h.owned i slot key key' p hp hp')]
    exact h.stored i key p hp
  · intro i j key key' p hp hp'
    exact h.owned i j key key' p (hholds i key p hp).2 (hholds j key' p hp').2
  · intro t memo entry hm he
    rw [hcount]
    exact h.stamped t memo entry (hmemos ▸ hm) he
  · intro t memo entry i hm he hi
    obtain ⟨hne, hi⟩ := hnames i _ hi
    exact hkept i _ _ hne (h.agrees t memo entry i (hmemos ▸ hm) he hi)
  · intro t call hcall
    rw [hcalls] at hcall
    have hok := h.calls t call hcall
    have hne := ne_slot_of_not_borrowed hfree hcall
    obtain ⟨r, hr⟩ := hok.live
    refine ⟨⟨r, (hother _ hne).trans hr⟩, ?_, fun p hp => hkept _ _ _ hne (hok.resolved p hp)⟩
    intro box hbox
    obtain ⟨hstored, hnone⟩ := hok.boxed box hbox
    rw [hheap box (hnone slot)]
    exact ⟨hstored, fun i key hp => hnone i key (hholds i key box hp).2⟩
  · intro t t' call call' box hcall hcall'
    rw [hcalls] at hcall hcall'
    exact h.boxes t t' call call' box hcall hcall'

-- ---- The steps of a resolution.

/-- A step of one resolution keeps the invariant when the system stays sound, the others keep what
they rely on, and the box of this one is nobody else's. -/
theorem Inv.of_thread (h : Inv s) (hsound : Sound s') (t : Nat)
    (hothers : ∀ t' call, t' ≠ t → s'.calls.lookup t' = some call →
      s.calls.lookup t' = some call ∧ CallOk s' call)
    (hown : ∀ call, s'.calls.lookup t = some call → CallOk s' call)
    (hbox : ∀ call box t' call', s'.calls.lookup t = some call → call.stage = .inserting box →
      t' ≠ t → s.calls.lookup t' = some call' → call'.stage ≠ .inserting box) : Inv s' where
  toSound := hsound
  calls t' call hcall := by
    by_cases ht : t' = t
    · subst ht
      exact hown call hcall
    · exact (hothers t' call ht hcall).2
  boxes t₁ t₂ call₁ call₂ box h₁ h₂ hb₁ hb₂ := by
    by_cases ht₁ : t₁ = t
    · by_cases ht₂ : t₂ = t
      · exact ht₁.trans ht₂.symm
      · subst ht₁
        exact absurd hb₂ (hbox call₁ box t₂ call₂ h₁ hb₁ ht₂ (hothers t₂ call₂ ht₂ h₂).1)
    · have h₁' := (hothers t₁ call₁ ht₁ h₁).1
      by_cases ht₂ : t₂ = t
      · subst ht₂
        exact absurd hb₁ (hbox call₂ box t₁ call₁ h₂ hb₂ ht₁ h₁')
      · exact h.boxes t₁ t₂ call₁ call₂ box h₁' (hothers t₂ call₂ ht₂ h₂).1 hb₁ hb₂

/-- A resolution goes on, or returns, and the others keep what they have. -/
theorem Inv.of_calls (h : Inv s) (hu : Sound u) (t : Nat)
    (hothers : ∀ t' call, t' ≠ t → s.calls.lookup t' = some call → CallOk u call)
    {calls : Table Nat (Call T W)} (returned : List (Returned T W))
    (hcalls : ∀ t', t' ≠ t → calls.lookup t' = s.calls.lookup t')
    (hown : ∀ call, calls.lookup t = some call → CallOk u call)
    (hbox : ∀ call box t' call', calls.lookup t = some call → call.stage = .inserting box →
      t' ≠ t → s.calls.lookup t' = some call' → call'.stage ≠ .inserting box) :
    Inv { u with calls, returned } := by
  have hmaps : SameMaps u { u with calls, returned } := .of_eq rfl
  refine h.of_thread (hu.of_same hmaps rfl rfl fun _ _ _ _ => rfl) t ?_ ?_ hbox
  · intro t' call ht hcall
    have hcall' := (hcalls t' ht).symm.trans hcall
    exact ⟨hcall', (hothers t' call ht hcall').of_same hmaps fun _ _ => rfl⟩
  · exact fun call hcall => (hown call hcall).of_same hmaps fun _ _ => rfl

/-- The resolution of a thread goes to a stage that needs no box of its own. -/
theorem Inv.setStage (h : Inv s) (hu : Sound u) (hcalls : u.calls = s.calls) {stage : Stage}
    (hothers : ∀ t' call', t' ≠ t → s.calls.lookup t' = some call' → CallOk u call')
    (hown : CallOk u { call with stage }) (hstage : ∀ box, stage ≠ .inserting box) :
    Inv (u.setStage t call stage) := by
  refine h.of_calls hu t hothers u.returned (fun t' ht => ?_) ?_ ?_
  · rw [hcalls, Table.lookup_insert_ite, if_neg ht]
  · intro call' hcall'
    rw [lookup_insert] at hcall'
    cases hcall'
    exact hown
  · intro call' box t' call'' hcall' hbox
    rw [lookup_insert] at hcall'
    cases hcall'
    exact absurd hbox (hstage box)

theorem Inv.complete (h : Inv s) (hu : Sound u) (hcalls : u.calls = s.calls)
    {result : Except ResolveError Nat}
    (hothers : ∀ t' call', t' ≠ t → s.calls.lookup t' = some call' → CallOk u call') :
    Inv (u.complete t call result) := by
  refine h.of_calls hu t hothers _ (fun t' ht => ?_) ?_ ?_
  · rw [hcalls, Table.lookup_erase_ite, if_neg ht]
  · intro call' hcall'
    rw [lookup_erase] at hcall'
    cases hcall'
  · intro call' box t' call'' hcall'
    rw [lookup_erase] at hcall'
    cases hcall'

/-- A pointer from the map of a live registry has the type of its key. -/
theorem Sound.downcast [DecidableEq W] (h : Sound s) (hp : s.Holds slot endpoint.key p) :
    downcastCache s.heap endpoint p = .ok p := by
  obtain ⟨weigher, hstored⟩ := h.stored slot endpoint.key p hp
  unfold downcastCache
  rw [hstored]
  exact if_pos rfl

theorem Inv.found [DecidableEq W] (h : Inv s) (hu : Sound u) (hcalls : u.calls = s.calls)
    (hothers : ∀ t' call', t' ≠ t → s.calls.lookup t' = some call' → CallOk u call')
    (hp : u.Holds call.slot call.endpoint.key p) :
    Inv (u.found t call p) ∧ (u.found t call p).returned = u.returned := by
  unfold System.found
  rw [hu.downcast hp]
  refine ⟨h.setStage hu hcalls hothers ⟨hp.imp fun _ => And.left, ?_, ?_⟩ ?_, rfl⟩
  · rintro box ⟨⟩
  · rintro q ⟨⟩
    exact hp
  · rintro box ⟨⟩

/-- **A new entry** of a map, for a box that is in no map. -/
theorem Sound.insert (h : Sound s) {box : Nat} {key : T × String}
    (hslot : s.registries slot = some registry) (hnew : registry.caches.lookup key = none)
    (hstored : ∃ weigher, s.heap box = some ⟨key.1, weigher⟩)
    (hfree : ∀ i key, ¬s.Holds i key box) (hu : u = s.setRegistry slot
      { registry with caches := registry.caches.insert key box, insertions := none }) :
    Sound u ∧ u.Holds slot key box ∧ (∀ i key p, s.Holds i key p → u.Holds i key p) ∧
      ∀ i key p, u.Holds i key p → s.Holds i key p ∨ i = slot ∧ p = box := by
  have hat : u.registries slot = some
      { registry with caches := registry.caches.insert key box, insertions := none } := by
    subst hu
    exact update_self ..
  have hother : ∀ i, i ≠ slot → u.registries i = s.registries i := by
    intro i hi
    subst hu
    exact update_of_ne hi ..
  have hheap : u.heap = s.heap := by subst hu; rfl
  have hmemos : u.memos = s.memos := by subst hu; rfl
  have hcount : u.nextIdentity = s.nextIdentity := by subst hu; rfl
  have hnames : ∀ i identity, u.Names i identity ↔ s.Names i identity := by
    intro i identity
    unfold System.Names
    by_cases hi : i = slot
    · subst hi
      rw [hat, hslot]
      simp
    · rw [hother i hi]
  have hkept : ∀ i key p, s.Holds i key p → u.Holds i key p := by
    rintro i key' p ⟨r, hr, hkey⟩
    by_cases hi : i = slot
    · subst hi
      rw [hslot] at hr
      cases hr
      refine ⟨_, hat, ?_⟩
      rw [Table.lookup_insert_ite, if_neg]
      · exact hkey
      · rintro rfl
        rw [hnew] at hkey
        cases hkey
    · exact ⟨r, (hother i hi).trans hr, hkey⟩
  have hholds : ∀ i key p, u.Holds i key p → s.Holds i key p ∨ i = slot ∧ p = box := by
    rintro i key' p ⟨r, hr, hkey⟩
    by_cases hi : i = slot
    · subst hi
      rw [hat] at hr
      cases hr
      rw [Table.lookup_insert_ite] at hkey
      split at hkey
      · cases hkey
        exact .inr ⟨rfl, rfl⟩
      · exact .inl ⟨registry, hslot, hkey⟩
    · exact .inl ⟨r, (hother i hi).symm.trans hr, hkey⟩
  have hbox : u.Holds slot key box := ⟨_, hat, lookup_insert _⟩
  refine ⟨⟨?_, ?_, ?_, ?_, ?_, ?_⟩, hbox, hkept, hholds⟩
  · intro i identity hi
    rw [hcount]
    exact h.given i identity ((hnames i identity).mp hi)
  · intro i j identity hi hj
    exact h.distinct i j identity ((hnames i identity).mp hi) ((hnames j identity).mp hj)
  · rintro i key' p ⟨r, hr, hkey⟩
    rw [hheap]
    by_cases hi : i = slot
    · subst hi
      rw [hat] at hr
      cases hr
      rw [Table.lookup_insert_ite] at hkey
      split at hkey
      · next heq =>
        cases hkey
        rw [heq]
        exact hstored
      · exact h.stored i key' p ⟨registry, hslot, hkey⟩
    · exact h.stored i key' p ⟨r, (hother i hi).symm.trans hr, hkey⟩
  · intro i j key₁ key₂ p h₁ h₂
    rcases hholds i key₁ p h₁ with h₁ | ⟨rfl, rfl⟩
    · rcases hholds j key₂ p h₂ with h₂ | ⟨rfl, rfl⟩
      · exact h.owned i j key₁ key₂ p h₁ h₂
      · exact absurd h₁ (hfree i key₁)
    · rcases hholds j key₂ p h₂ with h₂ | ⟨rfl, -⟩
      · exact absurd h₂ (hfree j key₂)
      · rfl
  · intro t memo entry hm he
    rw [hcount]
    exact h.stamped t memo entry (hmemos ▸ hm) he
  · intro t memo entry i hm he hi
    exact hkept i _ _ (h.agrees t memo entry i (hmemos ▸ hm) he ((hnames i _).mp hi))

/-- **`get_or_insert`**: the entry that is there wins, and otherwise the box is published. -/
theorem Inv.publish [DecidableEq W] (h : Inv s) {box : Nat} (hcall : s.calls.lookup t = some call)
    (hslot : s.registries call.slot = some registry) (hstage : call.stage = .inserting box) :
    Inv (s.publish t call registry box) ∧
      (s.publish t call registry box).returned = s.returned := by
  obtain ⟨hstored, hfree⟩ := (h.calls t call hcall).boxed box hstage
  -- The boxes of the others are other boxes.
  have hdistinct : ∀ t' call' box', t' ≠ t → s.calls.lookup t' = some call' →
      call'.stage = .inserting box' → box' ≠ box := by
    rintro t' call' box' ht hcall' hstage' rfl
    exact ht (h.boxes t' t call' call box' hcall' hcall hstage' hstage)
  unfold System.publish
  split
  · next p hp =>
    have hmaps : SameMaps s { s.setRegistry call.slot { registry with insertions := none } with
        heap := update s.heap box none } :=
      (SameMaps.of_lock hslot).trans (.of_eq rfl)
    refine h.found (h.toSound.of_same hmaps rfl rfl ?_) rfl ?_ ?_
    · intro i key q hq
      refine update_of_ne ?_ ..
      rintro rfl
      exact hfree i key hq
    · intro t' call' ht hcall'
      refine (h.calls t' call' hcall').of_same hmaps fun box' hbox' => ?_
      exact update_of_ne (hdistinct t' call' box' ht hcall' hbox') ..
    · exact (hmaps.holds _ _ _).mpr ⟨registry, hslot, hp⟩
  · next hnew =>
    obtain ⟨hsound, hbox, hkept, hholds⟩ := h.toSound.insert hslot hnew hstored hfree rfl
    refine h.found hsound rfl ?_ hbox
    intro t' call' ht hcall'
    have hok := h.calls t' call' hcall'
    refine ⟨?_, ?_, fun p hp => hkept _ _ _ (hok.resolved p hp)⟩
    · by_cases hi : call'.slot = call.slot
      · rw [hi]
        exact hbox.imp fun _ => And.left
      · obtain ⟨r, hr⟩ := hok.live
        exact ⟨r, (update_of_ne hi ..).trans hr⟩
    · intro box' hbox'
      obtain ⟨hstored', hfree'⟩ := hok.boxed box' hbox'
      refine ⟨hstored', fun i key hp => ?_⟩
      rcases hholds i key box' hp with hp | ⟨-, heq⟩
      · exact hfree' i key hp
      · exact hdistinct t' call' box' ht hcall' hbox' heq

/-- **Remembering** what the map of a live registry gives. -/
theorem Sound.remember (h : Sound s) (hslot : s.registries call.slot = some registry)
    (hp : s.Holds call.slot call.endpoint.key p) :
    Sound { s with memos := update s.memos t ((s.memos t).map fun memo =>
      memo.remember hash registry.identity call.endpoint p) } := by
  -- An entry of a memo was there before, or is the new one.
  have hentry : ∀ t' memo entry, update s.memos t ((s.memos t).map fun memo =>
      memo.remember hash registry.identity call.endpoint p) t' = some memo → memo.Has entry →
      entry = ⟨registry.identity, call.endpoint.key, p⟩ ∨
        ∃ memo', s.memos t' = some memo' ∧ memo'.Has entry := by
    intro t' memo entry hm he
    rw [update_apply] at hm
    split at hm
    · next ht =>
      subst ht
      obtain ⟨memo', hm', rfl⟩ := map_eq_some_iff.mp hm
      rcases EndpointCache.has_of_remember he with rfl | he
      · exact .inl rfl
      · exact .inr ⟨memo', hm', he⟩
    · exact .inr ⟨memo, hm, he⟩
  refine ⟨h.given, h.distinct, h.stored, h.owned, ?_, ?_⟩
  · intro t' memo entry hm he
    rcases hentry t' memo entry hm he with rfl | ⟨memo', hm', he⟩
    · exact h.given call.slot _ ⟨registry, hslot, rfl⟩
    · exact h.stamped t' memo' entry hm' he
  · intro t' memo entry i hm he hi
    rcases hentry t' memo entry hm he with rfl | ⟨memo', hm', he⟩
    · cases h.distinct i call.slot _ hi ⟨registry, hslot, rfl⟩
      exact hp
    · exact h.agrees t' memo' entry i hm' he hi

-- ---- Every step.

theorem Inv.setMemo (h : Inv s) {memo : Option (EndpointCache T)}
    (hmemo : ∀ m entry, memo = some m → ¬m.Has entry) :
    Inv { s with memos := update s.memos t memo } := by
  have hold : ∀ t' m entry, update s.memos t memo t' = some m → m.Has entry →
      s.memos t' = some m := by
    intro t' m entry hm he
    rw [update_apply] at hm
    split at hm
    · exact absurd he (hmemo m entry hm)
    · exact hm
  have hmaps : SameMaps s { s with memos := update s.memos t memo } := .of_eq rfl
  refine ⟨⟨h.given, h.distinct, h.stored, h.owned, ?_, ?_⟩, ?_, h.boxes⟩
  · exact fun t' m entry hm he => h.stamped t' m entry (hold t' m entry hm he) he
  · exact fun t' m entry i hm he hi => h.agrees t' m entry i (hold t' m entry hm he) he hi
  · exact fun t' call hcall => (h.calls t' call hcall).of_same hmaps fun _ _ => rfl

/-- **A new box** is at an address where no box is alive. -/
theorem Inv.allocate (h : Inv s) {address : Nat} (hslot : s.registries call.slot = some registry)
    (hfree : s.heap address = none) : Inv ({ s with
      heap := update s.heap address
        (some ⟨call.endpoint.typeId, call.endpoint.weigher⟩) }.setStage t call
          (.inserting address)) := by
  generalize hheap : update s.heap address
    (some ⟨call.endpoint.typeId, call.endpoint.weigher⟩) = heap
  have hat : heap address = some ⟨call.endpoint.typeId, call.endpoint.weigher⟩ := by
    rw [← hheap]
    exact update_self ..
  -- The boxes that are alive are elsewhere.
  have hkept : ∀ p stored, s.heap p = some stored → heap p = s.heap p := by
    intro p stored hstored
    rw [← hheap]
    refine update_of_ne ?_ ..
    rintro rfl
    rw [hfree] at hstored
    cases hstored
  have hnew : ∀ slot key, ¬s.Holds slot key address := by
    intro slot key hp
    obtain ⟨weigher, hstored⟩ := h.stored slot key address hp
    rw [hfree] at hstored
    cases hstored
  have hmaps : SameMaps s { s with heap } := .of_eq rfl
  refine h.of_calls (h.toSound.of_same hmaps rfl rfl ?_) t ?_ s.returned (fun t' ht => ?_) ?_ ?_
  · intro slot key p hp
    obtain ⟨weigher, hstored⟩ := h.stored slot key p hp
    exact hkept p _ hstored
  · intro t' call' ht hcall'
    refine (h.calls t' call' hcall').of_same hmaps fun box hbox => ?_
    obtain ⟨⟨weigher, hstored⟩, -⟩ := (h.calls t' call' hcall').boxed box hbox
    exact hkept box _ hstored
  · exact (Table.lookup_insert_ite _ _ _ _).trans (if_neg ht)
  · intro call' hcall'
    rw [lookup_insert] at hcall'
    cases hcall'
    refine ⟨⟨registry, hslot⟩, ?_, ?_⟩
    · rintro box ⟨⟩
      exact ⟨⟨_, hat⟩, hnew⟩
    · rintro p ⟨⟩
  · intro call' box t' call'' hcall' hbox ht hcall'' hbox'
    rw [lookup_insert] at hcall'
    cases hcall'
    cases hbox
    obtain ⟨⟨weigher, hstored⟩, -⟩ := (h.calls t' call'' hcall'').boxed address hbox'
    rw [hfree] at hstored
    cases hstored

variable [DecidableEq W]

theorem Inv.stepResolve (h : Inv s) (hs : System.stepResolve hash s t slot endpoint = some s') :
    Inv s' := by
  unfold System.stepResolve at hs
  split at hs
  · next registry hslot hnone =>
    split at hs
    · cases hs
      exact h.complete h.toSound rfl fun t' call' _ hcall' => h.calls t' call' hcall'
    · cases hs
      have hcall : CallOk s ⟨slot, endpoint, .probing⟩ :=
        ⟨⟨registry, hslot⟩, by rintro box ⟨⟩, by rintro p ⟨⟩⟩
      show Inv (s.setStage t ⟨slot, endpoint, .probing⟩ .probing)
      exact h.setStage h.toSound rfl (fun t' call' _ hcall' => h.calls t' call' hcall') hcall
        (by rintro box ⟨⟩)
  · cases hs

theorem Inv.stepAdvance (h : Inv s) {address : Nat}
    (hs : System.stepAdvance hash s t address = some s') : Inv s' := by
  obtain ⟨call, hcall, hs⟩ := bind_eq_some_iff.mp hs
  obtain ⟨registry, hslot, hs⟩ := bind_eq_some_iff.mp hs
  have hcalls : ∀ t' call', t' ≠ t → s.calls.lookup t' = some call' → CallOk s call' :=
    fun t' call' _ hcall' => h.calls t' call' hcall'
  have hlive : ∃ registry, s.registries call.slot = some registry := ⟨registry, hslot⟩
  generalize hstage : call.stage = stage at hs
  cases stage with
  | probing =>
    dsimp only at hs
    split at hs
    · next p hp =>
      cases hs
      exact (h.found h.toSound rfl hcalls ⟨registry, hslot, hp⟩).1
    · cases hs
      refine h.setStage h.toSound rfl hcalls ⟨hlive, ?_, ?_⟩ ?_
      · rintro box ⟨⟩
      · rintro p ⟨⟩
      · rintro box ⟨⟩
  | locking =>
    dsimp only at hs
    split at hs
    · cases hs
    · cases hs
      have hmaps : SameMaps s (s.setRegistry call.slot
          { registry with insertions := some t }) := .of_lock hslot
      refine h.setStage (h.toSound.of_same hmaps rfl rfl fun _ _ _ _ => rfl) rfl
        (fun t' call' ht hcall' => (hcalls t' call' ht hcall').of_same hmaps fun _ _ => rfl)
        ⟨hmaps.live hlive, ?_, ?_⟩ ?_
      · rintro box ⟨⟩
      · rintro p ⟨⟩
      · rintro box ⟨⟩
  | allocating =>
    dsimp only at hs
    split at hs
    · cases hs
    · next hfree =>
      cases hs
      exact h.allocate hslot hfree
  | inserting box =>
    cases hs
    exact (h.publish hcall hslot hstage).1
  | resolved p =>
    cases hs
    have hp := (h.calls t call hcall).resolved p hstage
    exact h.complete (h.toSound.remember hslot hp) rfl fun t' call' ht hcall' =>
      (hcalls t' call' ht hcall').of_same (.of_eq rfl) fun _ _ => rfl

/-- **Every step keeps the invariant.** -/
theorem Inv.step {action : Action T W} (h : Inv s) (hs : System.step hash s action = some s') :
    Inv s' := by
  unfold System.step at hs
  split at hs
  · cases hs
  · cases action with
    | create slot =>
      simp only [System.stepCreate] at hs
      split at hs
      · cases hs
      · next hslot =>
        split at hs
        · cases hs
          exact h.stop
        · next next hnext =>
          cases hs
          exact h.create hslot hnext
    | move source target =>
      simp only [System.stepMove] at hs
      split at hs
      · next registry hsource htarget =>
        split at hs
        · cases hs
        · next hfree =>
          cases hs
          exact h.move hsource htarget hfree
      · cases hs
    | drop slot =>
      simp only [System.stepDrop] at hs
      split at hs
      · cases hs
      · next registry hslot =>
        split at hs
        · cases hs
        · next hfree =>
          cases hs
          exact h.drop hslot hfree
    | clear slot =>
      simp only [System.stepClear] at hs
      split at hs
      · cases hs
      · split at hs
        · cases hs
        · cases hs
          exact h
    | spawn t =>
      cases hs
      refine h.setMemo ?_
      rintro m entry ⟨⟩ ⟨index, way, hentry⟩
      cases hentry
    | teardown t =>
      cases hs
      refine h.setMemo ?_
      rintro m entry ⟨⟩
    | resolve t slot endpoint => exact h.stepResolve hs
    | advance t address => exact h.stepAdvance hs

theorem Inv.of_reachable (hs : Reachable (System.step hash) System.init s) : Inv s :=
  hs.invariant (fun _ _ _ => Inv.step) .init

-- ---- Transparency.

/-- A resolution of an endpoint, at a registry, is what the map of that registry gives: it reads
live boxes of the right type only, and the box is no other registry's. -/
structure Transparent (s : System T W) (slot : Nat) (registry : CacheRegistry T)
    (endpoint : CacheEndpoint T W) (result : Except ResolveError Nat) : Prop where
  uncached : registry.resolveUncached s.heap endpoint = some result
  typed    : result ≠ .error .dangling ∧ result ≠ .error .cacheType
  owned    : ∀ p, result = .ok p → registry.owns p = true ∧
    ∀ slot' registry', s.registries slot' = some registry' → registry'.owns p = true → slot' = slot

omit [DecidableEq T] in
theorem checkWeigher_of_stored {heap : Heap T W} (endpoint : CacheEndpoint T W)
    (h : ∃ stored, heap p = some stored) : checkWeigher heap endpoint p = .ok p ∨
      checkWeigher heap endpoint p = .error .weigherConflict := by
  obtain ⟨stored, hstored⟩ := h
  unfold checkWeigher
  rw [hstored]
  dsimp only
  split
  · exact .inl rfl
  · exact .inr rfl

theorem Sound.transparent (h : Sound s) (hslot : s.registries slot = some registry)
    (hp : s.Holds slot endpoint.key p) :
    Transparent s slot registry endpoint (checkWeigher s.heap endpoint p) := by
  have hdowncast := h.downcast hp
  obtain ⟨weigher, hstored⟩ := h.stored slot endpoint.key p hp
  obtain ⟨registry', hslot', hkey⟩ := hp
  rw [hslot] at hslot'
  cases hslot'
  have hcheck := checkWeigher_of_stored endpoint ⟨_, hstored⟩
  refine ⟨?_, ?_, ?_⟩
  · unfold CacheRegistry.resolveUncached
    rw [hkey, map_some, hdowncast]
  · rcases hcheck with hok | hconflict
    · rw [hok]
      exact ⟨nofun, nofun⟩
    · rw [hconflict]
      exact ⟨nofun, nofun⟩
  · intro q hq
    rcases hcheck with hok | hconflict
    · rw [hok] at hq
      cases hq
      refine ⟨CacheRegistry.owns_iff.mpr ⟨_, hkey⟩, ?_⟩
      intro slot' registry' hslot' howns
      obtain ⟨key', hkey'⟩ := CacheRegistry.owns_iff.mp howns
      exact h.owned slot' slot key' _ p ⟨registry', hslot', hkey'⟩ ⟨registry, hslot, hkey⟩
    · rw [hconflict] at hq
      cases hq

/-- **The memo answers** as the map of the registry would. -/
theorem Sound.transparent_of_lookup (h : Sound s) (hmemo : s.memos t = some memo)
    (hslot : s.registries slot = some registry)
    (hlookup : memo.lookup hash registry.identity endpoint = some p) :
    Transparent s slot registry endpoint (checkWeigher s.heap endpoint p) :=
  h.transparent hslot (h.agrees t memo _ slot hmemo (EndpointCache.has_of_lookup hlookup)
    ⟨registry, hslot, rfl⟩)

theorem Inv.returned (h : Inv s) {action : Action T W}
    (hs : System.step hash s action = some s') {ret : Returned T W}
    (hret : s'.returned = ret :: s.returned) :
    ∃ registry, s'.registries ret.slot = some registry ∧
      Transparent s' ret.slot registry ret.endpoint ret.result := by
  have h' := h.step hs
  -- Most steps return nothing.
  have hnothing : ∀ u : System T W, s' = u → u.returned = s.returned → False := by
    rintro u rfl hsame
    rw [hsame] at hret
    exact List.cons_ne_self _ _ hret.symm
  unfold System.step at hs
  split at hs
  · cases hs
  · cases action with
    | create slot =>
      simp only [System.stepCreate] at hs
      split at hs
      · cases hs
      · split at hs
        · exact (hnothing _ (some.inj hs).symm rfl).elim
        · exact (hnothing _ (some.inj hs).symm rfl).elim
    | move source target =>
      simp only [System.stepMove] at hs
      split at hs
      · split at hs
        · cases hs
        · exact (hnothing _ (some.inj hs).symm rfl).elim
      · cases hs
    | drop slot | clear slot =>
      simp only [System.stepDrop, System.stepClear] at hs
      split at hs
      · cases hs
      · split at hs
        · cases hs
        · exact (hnothing _ (some.inj hs).symm rfl).elim
    | spawn t | teardown t => exact (hnothing _ (some.inj hs).symm rfl).elim
    | resolve t slot endpoint =>
      simp only [System.stepResolve] at hs
      split at hs
      · next registry hslot hnone =>
        split at hs
        · next p hlookup =>
          obtain ⟨memo, hmemo, hlookup⟩ := bind_eq_some_iff.mp hlookup
          cases hs
          cases hret
          exact ⟨registry, hslot, h'.toSound.transparent_of_lookup hmemo hslot hlookup⟩
        · exact (hnothing _ (some.inj hs).symm rfl).elim
      · cases hs
    | advance t address =>
      obtain ⟨call, hcall, hs⟩ := bind_eq_some_iff.mp hs
      obtain ⟨registry, hslot, hs⟩ := bind_eq_some_iff.mp hs
      generalize hstage : call.stage = stage at hs
      cases stage with
      | probing =>
        dsimp only at hs
        split at hs
        · next p hp =>
          have hfound := h.found (t := t) h.toSound rfl
            (fun t' call' _ hcall' => h.calls t' call' hcall') ⟨registry, hslot, hp⟩
          exact (hnothing _ (some.inj hs).symm hfound.2).elim
        · exact (hnothing _ (some.inj hs).symm rfl).elim
      | locking | allocating =>
        dsimp only at hs
        split at hs
        · cases hs
        · exact (hnothing _ (some.inj hs).symm rfl).elim
      | inserting box =>
        exact (hnothing _ (some.inj hs).symm (h.publish hcall hslot hstage).2).elim
      | resolved p =>
        have hp := (h.calls t call hcall).resolved p hstage
        cases hs
        cases hret
        exact ⟨registry, hslot, h'.toSound.transparent hslot hp⟩

/-- **Endpoint resolution is transparent**, in every state of every history. A lookup that the memo
of a thread answers for a live registry gives what the uncached resolution of that registry gives,
and a resolution that returns, whether or not the memo answered it, returned just that; the box is
alive, has the type of the endpoint, and belongs to no other registry, whatever addresses were used
again. -/
theorem memo_transparent (hash : SetHash T) (hs : Reachable (System.step hash) System.init s) :
    (∀ t slot p memo registry (endpoint : CacheEndpoint T W), s.memos t = some memo →
      s.registries slot = some registry → memo.lookup hash registry.identity endpoint = some p →
      Transparent s slot registry endpoint (checkWeigher s.heap endpoint p)) ∧
    ∀ action s', System.step hash s action = some s' →
      ∀ ret, s'.returned = ret :: s.returned → ∃ registry,
        s'.registries ret.slot = some registry ∧
          Transparent s' ret.slot registry ret.endpoint ret.result := by
  have hinv := Inv.of_reachable hs
  refine ⟨?_, ?_⟩
  · intro t slot p memo registry endpoint hmemo hslot hlookup
    exact hinv.toSound.transparent_of_lookup hmemo hslot hlookup
  · intro action s' hstep ret hret
    exact hinv.returned hstep hret

/-- All endpoints share one set of the memo. -/
def colliding : SetHash Nat := fun _ _ _ _ => 0

def someEndpoint : CacheEndpoint Nat Nat := ⟨7, ⟨40, "quotes"⟩, none⟩

/-- An endpoint is resolved, its registry is dropped, and the next registry takes its place, with a
box at the address of the old one. -/
def reusingRun : List (Action Nat Nat) :=
  [.spawn 0, .create 5, .resolve 0 5 someEndpoint] ++ List.replicate 5 (.advance 0 100) ++
    [.drop 5, .create 5, .resolve 0 5 someEndpoint] ++ List.replicate 5 (.advance 0 100)

/-- The memo still has its entry for the first registry, and answers for the second. -/
theorem memo_transparent_reusingRun :
    ∃ s memo registry, run (System.step colliding) System.init reusingRun = some s ∧
      s.memos 0 = some memo ∧ s.registries 5 = some registry ∧ registry.identity = 2 ∧
      memo.lookup colliding 1 someEndpoint = some 100 ∧
      memo.lookup colliding 2 someEndpoint = some 100 ∧
      Transparent s 5 registry someEndpoint (checkWeigher s.heap someEndpoint 100) := by
  have hrun : (run (System.step colliding) System.init reusingRun).map (fun s =>
      ((s.registries 5).map (·.identity),
        (s.memos 0).map fun memo => (memo.lookup colliding 1 someEndpoint,
          memo.lookup colliding 2 someEndpoint))) =
      some (some 2, some (some 100, some 100)) := by decide +kernel
  obtain ⟨s, hs, hfacts⟩ := map_eq_some_iff.mp hrun
  obtain ⟨hidentity, hmemo⟩ := Prod.mk.inj hfacts
  obtain ⟨registry, hregistry, hidentity⟩ := map_eq_some_iff.mp hidentity
  obtain ⟨memo, hmemo, hlookups⟩ := map_eq_some_iff.mp hmemo
  obtain ⟨hfirst, hsecond⟩ := Prod.mk.inj hlookups
  refine ⟨s, memo, registry, hs, hmemo, hregistry, hidentity, hfirst, hsecond, ?_⟩
  exact (memo_transparent colliding ⟨reusingRun, hs⟩).1 0 5 100 memo registry someEndpoint hmemo
    hregistry (hidentity ▸ hsecond)

end Xlfn.Cache.Endpoint
