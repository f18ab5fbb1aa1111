import Mathlib.Data.List.Perm.Basic
import Mathlib.Data.List.Nodup
import Xlfn.Subscription.Catalog

/-!
# Xlfn — the representation invariant of the catalog

What ties the table of entries, the identity index and the two counters together,
and that each operation of the catalog keeps it and never reaches a `fail_stop`,
an underflow or a failing `expect`.

* `Wf` — the representation invariant.
-/

namespace Xlfn.Subscription

open Xlfn.Lib Xlfn.Kernel List Option Table SubscriptionIdentityIndex TopicMetadata

-- ---- The buckets of the index.

/-- `swap_remove` takes one member out; the order of the others may change. -/
theorem swapRemove_perm {α : Type} {l : List α} {i : Nat} (hi : i < l.length) :
    (swapRemove l i).Perm (l.eraseIdx i) := by
  have hne : l ≠ [] := ne_nil_of_length_pos (by omega)
  have hset : l.set i (l.getLast hne) ≠ [] := by simpa using hne
  have hlast : (l.set i (l.getLast hne)).getLast hset = l.getLast hne := by
    rw [getLast_eq_getElem, getElem_set]
    split
    next => rfl
    next => simp [getLast_eq_getElem]
  have hperm := set_perm_cons_eraseIdx hi (l.getLast hne)
  rw [← dropLast_concat_getLast hset, hlast] at hperm
  have hswap : swapRemove l i = (l.set i (l.getLast hne)).dropLast := by
    rw [swapRemove, getLast?_eq_some_getLast hne]
  rw [hswap]
  exact (perm_cons _).mp ((perm_append_singleton _ _).symm.trans hperm)

theorem swapRemove_perm_erase {l : List SubscriptionId} {id : SubscriptionId} {i : Nat}
    (h : l.idxOf? id = some i) : (swapRemove l i).Perm (l.erase id) := by
  obtain ⟨hi, -, -⟩ := idxOf?_eq_some_iff.mp h
  rw [erase_eq_eraseIdx, h]
  exact swapRemove_perm hi

namespace SubscriptionIdentityIndex

variable {S : Type} [DecidableEq S] {index index' : SubscriptionIdentityIndex S}
  {key : SubscriptionIdentityKey S} {id : SubscriptionId}

/-- How often a source is used. -/
def sourceCount (index : SubscriptionIdentityIndex S) (sourceId : S) : Nat :=
  ((index.sourceRefs.lookup sourceId).map (·.get)).getD 0

theorem sourceCount_insert {refs : Table S NonZeroUsize} {idsByKey} (sourceId sourceId' : S)
    (n : NonZeroUsize) :
    (⟨idsByKey, refs.insert sourceId n⟩ : SubscriptionIdentityIndex S).sourceCount sourceId' =
      if sourceId' = sourceId then n.get
      else (⟨idsByKey, refs⟩ : SubscriptionIdentityIndex S).sourceCount sourceId' := by
  simp only [sourceCount, lookup_insert_ite]
  split <;> rfl

theorem candidates_insert {idsByKey : Table (SubscriptionIdentityKey S) (List SubscriptionId)}
    {refs : Table S NonZeroUsize} (key key' : SubscriptionIdentityKey S)
    (ids : List SubscriptionId) :
    (⟨idsByKey.insert key ids, refs⟩ : SubscriptionIdentityIndex S).candidates key' =
      if key' = key then ids
      else (⟨idsByKey, refs⟩ : SubscriptionIdentityIndex S).candidates key' := by
  simp only [candidates, lookup_insert_ite]
  split <;> rfl

/-- What an insertion does to the buckets and to the sources. -/
structure Inserted (index : SubscriptionIdentityIndex S) (key : SubscriptionIdentityKey S)
    (id : SubscriptionId) (index' : SubscriptionIdentityIndex S) : Prop where
  bucket  : index'.candidates key = index.candidates key ++ [id]
  others  : ∀ key', key' ≠ key → index'.candidates key' = index.candidates key'
  buckets : index'.idsByKey = index.idsByKey.insert key (index.candidates key ++ [id])
  sources : ∀ sourceId, index'.sourceCount sourceId =
    index.sourceCount sourceId + if sourceId = key.sourceId then 1 else 0

theorem inserted_of_count {n : NonZeroUsize} (hn : n.get = index.sourceCount key.sourceId + 1) :
    Inserted index key id ⟨index.idsByKey.insert key (index.candidates key ++ [id]),
      index.sourceRefs.insert key.sourceId n⟩ := by
  refine ⟨?_, fun key' hne => ?_, rfl, fun sourceId => ?_⟩
  · rw [candidates_insert, if_pos rfl]
  · rw [candidates_insert, if_neg hne]
    rfl
  · rw [sourceCount_insert]
    split
    next hs => rw [hs, hn]
    next => rfl

theorem inserted_of_insert {maxSourceIds : Nat}
    (h : index.insert key id maxSourceIds = .ok index') :
    id ∉ index.candidates key ∧ Inserted index key id index' := by
  unfold insert at h
  split at h
  next => cases h
  next hnew =>
    refine ⟨hnew, ?_⟩
    simp only [] at h
    split at h
    next refs hrefs =>
      split at h
      next =>
        cases h
        exact inserted_of_count (by simp [sourceCount, hrefs])
      next => cases h
    next hrefs =>
      split at h
      next => cases h
      next =>
        cases h
        exact inserted_of_count (by simp [sourceCount, hrefs])

theorem releaseRef_of_pos {sourceId : S} (h : 0 < index.sourceCount sourceId) :
    ∃ refs, releaseRef index.sourceRefs sourceId = some refs ∧ ∀ idsByKey sourceId',
      (⟨idsByKey, refs⟩ : SubscriptionIdentityIndex S).sourceCount sourceId' +
        (if sourceId' = sourceId then 1 else 0) = index.sourceCount sourceId' := by
  unfold releaseRef
  cases hrefs : index.sourceRefs.lookup sourceId with
  | none =>
    rw [sourceCount, hrefs] at h
    exact absurd h (Nat.lt_irrefl _)
  | some count =>
    have hnz := count.nonZero
    simp only []
    split
    next hone =>
      refine ⟨_, rfl, fun idsByKey sourceId' => ?_⟩
      simp only [sourceCount, lookup_erase_ite]
      split
      next hs =>
        subst hs
        simp [hrefs, hone]
      next => rfl
    next hone =>
      refine ⟨_, rfl, fun idsByKey sourceId' => ?_⟩
      rw [sourceCount_insert]
      split
      next hs =>
        subst hs
        simp only [sourceCount, hrefs, map_some, getD_some]
        omega
      next => rfl

/-- What a removal does to the buckets and to the sources. -/
structure Removed (index : SubscriptionIdentityIndex S) (key : SubscriptionIdentityKey S)
    (id : SubscriptionId) (index' : SubscriptionIdentityIndex S) : Prop where
  bucket   : (index'.candidates key).Perm ((index.candidates key).erase id)
  others   : ∀ key', key' ≠ key → index'.candidates key' = index.candidates key'
  nonempty : (∀ key' ids, index.idsByKey.lookup key' = some ids → ids ≠ []) →
    ∀ key' ids, index'.idsByKey.lookup key' = some ids → ids ≠ []
  sources  : ∀ sourceId, index'.sourceCount sourceId +
    (if sourceId = key.sourceId then 1 else 0) = index.sourceCount sourceId

theorem remove_of_mem (hid : id ∈ index.candidates key)
    (hsource : 0 < index.sourceCount key.sourceId) :
    ∃ index', index.remove key id = some (index', true) ∧ Removed index key id index' := by
  obtain ⟨refs, hrelease, hcount⟩ := releaseRef_of_pos hsource
  unfold remove
  cases hids : index.idsByKey.lookup key with
  | none =>
    rw [candidates, hids] at hid
    cases hid
  | some ids =>
    have hcandidates : index.candidates key = ids := by rw [candidates, hids]; rfl
    rw [hcandidates] at hid
    cases hposition : ids.idxOf? id with
    | none =>
      rw [idxOf?_eq_none_iff] at hposition
      exact absurd hid hposition
    | some position =>
      have hperm := swapRemove_perm_erase hposition
      simp only [hposition, hrelease, map_some]
      refine ⟨_, rfl, ?_, fun key' hne => ?_, fun hold key' ids' hlookup => ?_, hcount _⟩
      · rw [hcandidates]
        split
        next hnil =>
          rw [hnil] at hperm
          have hempty : (⟨index.idsByKey.erase key, refs⟩ :
              SubscriptionIdentityIndex S).candidates key = [] := by
            simp [candidates]
          rw [hempty]
          exact hperm
        next =>
          rw [candidates_insert, if_pos rfl]
          exact hperm
      · split
        next => simp [candidates, hne]
        next =>
          rw [candidates_insert, if_neg hne]
          rfl
      · simp only [] at hlookup
        split at hlookup
        next =>
          rw [lookup_erase_ite] at hlookup
          split at hlookup
          next => cases hlookup
          next => exact hold key' ids' hlookup
        next hne =>
          rw [lookup_insert_ite] at hlookup
          split at hlookup
          next =>
            cases hlookup
            exact hne
          next => exact hold key' ids' hlookup

end SubscriptionIdentityIndex

namespace SubscriptionCatalog

variable {S T : Type} [DecidableEq S] [TopicMetadata T]
  {catalog catalog' : SubscriptionCatalog S T} {limits : CatalogLimits} {id : SubscriptionId}
  {entry : SubscriptionEntry S T}

-- ---- The invariant.

/-- What an entry adds to `pending_count`. -/
def countWeight (_ : SubscriptionId) (entry : SubscriptionEntry S T) : Nat :=
  if entry.tracksPendingBytes then 1 else 0

/-- What an entry adds to `pending_topic_bytes`. -/
def byteWeight (_ : SubscriptionId) (entry : SubscriptionEntry S T) : Nat :=
  if entry.tracksPendingBytes then byteLen entry.topic else 0

/-- What an entry adds to the uses of a source. -/
def sourceWeight (sourceId : S) (_ : SubscriptionId) (entry : SubscriptionEntry S T) : Nat :=
  if sourceId = entry.sourceId then 1 else 0

/-- The key an entry is indexed under. -/
def keyOf (entry : SubscriptionEntry S T) : SubscriptionIdentityKey S :=
  identityKey entry.sourceId entry.topic

/-- **The representation invariant.** -/
structure Wf (limits : CatalogLimits) (catalog : SubscriptionCatalog S T) : Prop where
  indexed    : ∀ key id, id ∈ catalog.identities.candidates key ↔
    ∃ entry, catalog.entries.lookup id = some entry ∧ keyOf entry = key
  nodup      : ∀ key, (catalog.identities.candidates key).Nodup
  nonempty   : ∀ key ids, catalog.identities.idsByKey.lookup key = some ids → ids ≠ []
  distinct   : ∀ id id' entry entry', catalog.entries.lookup id = some entry →
    catalog.entries.lookup id' = some entry' → entry.sourceId = entry'.sourceId →
    entry.topic = entry'.topic → id = id'
  sources    : ∀ sourceId, catalog.identities.sourceCount sourceId =
    Table.sumEntries (sourceWeight sourceId) catalog.entries
  count      : catalog.pendingCount = Table.sumEntries countWeight catalog.entries
  bytes      : catalog.pendingTopicBytes = Table.sumEntries byteWeight catalog.entries
  countLimit : catalog.pendingCount ≤ limits.maxPending
  bytesLimit : catalog.pendingTopicBytes ≤ limits.maxTotalTopicBytes
  fresh      : ∀ id entry, catalog.entries.lookup id = some entry →
    id.raw < catalog.nextSubscriptionId

theorem new_wf : Wf limits (new : SubscriptionCatalog S T) where
  indexed := by
    intro key id
    simp [new, candidates]
  nodup := by
    intro key
    simp [new, candidates]
  nonempty := by
    intro key ids h
    simp [new] at h
  distinct := by
    intro id id' entry entry' h
    simp [new] at h
  sources := fun _ => rfl
  count := rfl
  bytes := rfl
  countLimit := Nat.zero_le _
  bytesLimit := Nat.zero_le _
  fresh := by
    intro id entry h
    simp [new] at h

-- ---- `find_identity`.

omit [TopicMetadata T] in
theorem findAmong_spec [DecidableEq T] (sourceId : S) (topic : T) (ids : List SubscriptionId)
    (hids : ∀ id ∈ ids, ∃ entry, catalog.entries.lookup id = some entry) :
    (∃ id entry, catalog.findAmong sourceId topic ids = .ok (some (id, entry)) ∧
      catalog.entries.lookup id = some entry ∧ entry.sourceId = sourceId ∧ entry.topic = topic) ∨
    (catalog.findAmong sourceId topic ids = .ok none ∧ ∀ id ∈ ids, ∀ entry,
      catalog.entries.lookup id = some entry → ¬ (entry.sourceId = sourceId ∧ entry.topic = topic)) := by
  induction ids with
  | nil => exact .inr ⟨rfl, fun id hid => absurd hid (not_mem_nil)⟩
  | cons id ids ih =>
    obtain ⟨entry, hentry⟩ := hids id (mem_cons_self ..)
    by_cases hmatch : entry.sourceId = sourceId ∧ entry.topic = topic
    · refine .inl ⟨id, entry, ?_, hentry, hmatch⟩
      simp only [findAmong, hentry, if_pos hmatch]
    · have hstep : catalog.findAmong sourceId topic (id :: ids) =
          catalog.findAmong sourceId topic ids := by
        simp only [findAmong, hentry, if_neg hmatch]
      rw [hstep]
      rcases ih fun id' hid' => hids id' (mem_cons_of_mem _ hid') with hfound | ⟨hnone, hall⟩
      · exact .inl hfound
      · refine .inr ⟨hnone, fun id' hid' entry' hentry' => ?_⟩
        rcases mem_cons.mp hid' with rfl | hid'
        · rw [hentry] at hentry'
          cases hentry'
          exact hmatch
        · exact hall id' hid' entry' hentry'

/-- `find_identity` does not fail; it finds the entry of a source and topic if there is one. -/
theorem findIdentity_spec [DecidableEq T] (h : Wf limits catalog) (sourceId : S) (topic : T) :
    (∃ id entry, catalog.findIdentity sourceId topic = .ok (some (id, entry)) ∧
      catalog.entries.lookup id = some entry ∧ entry.sourceId = sourceId ∧ entry.topic = topic) ∨
    (catalog.findIdentity sourceId topic = .ok none ∧ ∀ id entry,
      catalog.entries.lookup id = some entry → ¬ (entry.sourceId = sourceId ∧ entry.topic = topic)) := by
  have hids : ∀ id ∈ catalog.identities.candidates (identityKey sourceId topic),
      ∃ entry, catalog.entries.lookup id = some entry := by
    intro id hid
    obtain ⟨entry, hentry, -⟩ := (h.indexed _ id).mp hid
    exact ⟨entry, hentry⟩
  rcases findAmong_spec sourceId topic _ hids with hfound | ⟨hnone, hall⟩
  · exact .inl hfound
  · refine .inr ⟨hnone, fun id entry hentry hmatch => hall id ?_ entry hentry hmatch⟩
    exact (h.indexed _ id).mpr ⟨entry, hentry, by rw [keyOf, hmatch.1, hmatch.2]⟩

-- ---- `insert_pending`.

/-- The entry of a new subscription. -/
def pendingEntry (sourceId : S) (topic : T) : SubscriptionEntry S T :=
  ⟨sourceId, topic, .pending (some ⟨1, Nat.one_ne_zero⟩) none .uncommitted⟩

theorem insertPending_eq_ok {sourceId : S} {topic : T}
    (h : catalog.insertPending limits sourceId topic = .ok (catalog', id)) :
    id = ⟨catalog.nextSubscriptionId⟩ ∧ catalog.entries.lookup id = none ∧
      catalog.pendingCount < limits.maxPending ∧
      catalog'.entries = catalog.entries.insert id (pendingEntry sourceId topic) ∧
      catalog'.pendingCount = catalog.pendingCount + 1 ∧
      catalog'.pendingTopicBytes = catalog.pendingTopicBytes + byteLen topic ∧
      catalog'.pendingTopicBytes ≤ limits.maxTotalTopicBytes ∧
      catalog'.nextSubscriptionId = catalog.nextSubscriptionId + 1 ∧
      catalog.identities.insert (identityKey sourceId topic) id limits.maxSourceIds =
        .ok catalog'.identities := by
  unfold insertPending at h
  split at h
  next => cases h
  next hcount =>
    split at h
    next => cases h
    next bytes hbytes =>
      obtain ⟨hadd, hlimit⟩ := filter_eq_some_iff.mp hbytes
      split at h
      next => cases h
      next next hnext =>
        simp only [] at h
        split at h
        next => cases h
        next identities hidentities =>
          split at h
          next => cases h
          next habsent =>
            cases h
            rw [not_isSome_iff_eq_none] at habsent
            exact ⟨rfl, habsent, Nat.lt_of_not_le hcount, rfl, rfl, ChannelBudget.checkedAdd_eq_some hadd,
              of_decide_eq_true hlimit, (checkedIncrement_eq_some hnext).1, hidentities⟩

/-- **`insert_pending` keeps the invariant** when the source and topic are new. -/
theorem insertPending_wf {sourceId : S} {topic : T} (hwf : Wf limits catalog)
    (hnew : ∀ id entry, catalog.entries.lookup id = some entry →
      ¬ (entry.sourceId = sourceId ∧ entry.topic = topic))
    (h : catalog.insertPending limits sourceId topic = .ok (catalog', id)) :
    Wf limits catalog' := by
  obtain ⟨hid, habsent, hcount, hentries, hcount', hbytes', hlimit, hnext, hinsert⟩ :=
    insertPending_eq_ok h
  obtain ⟨-, hindex⟩ := inserted_of_insert hinsert
  have hlookup : ∀ id', catalog'.entries.lookup id' =
      if id' = id then some (pendingEntry sourceId topic) else catalog.entries.lookup id' := by
    intro id'
    rw [hentries, lookup_insert_ite]
  have hkey : keyOf (pendingEntry sourceId topic) = identityKey sourceId topic := rfl
  refine ⟨fun key id' => ?_, fun key => ?_, fun key ids hids => ?_, fun id₁ id₂ e₁ e₂ h₁ h₂ hs ht => ?_,
    fun source => ?_, ?_, ?_, ?_, hlimit, fun id' entry hentry => ?_⟩
  -- The new id is in the bucket of its own key and in no other.
  · by_cases hkeys : key = identityKey sourceId topic
    · subst hkeys
      rw [hindex.bucket, mem_append, mem_singleton, hwf.indexed, hlookup]
      constructor
      · rintro (⟨entry, hentry, hk⟩ | rfl)
        · have hne : id' ≠ id := by
            rintro rfl
            rw [habsent] at hentry
            cases hentry
          exact ⟨entry, by rw [if_neg hne, hentry], hk⟩
        · exact ⟨_, if_pos rfl, hkey⟩
      · rintro ⟨entry, hentry, hk⟩
        split at hentry
        next heq => exact .inr heq
        next => exact .inl ⟨entry, hentry, hk⟩
    · rw [hindex.others key hkeys, hwf.indexed, hlookup]
      refine exists_congr fun entry => and_congr_left fun hk => ?_
      split
      next heq =>
        subst heq
        rw [habsent]
        refine ⟨nofun, fun hf => ?_⟩
        cases hf
        exact absurd (hk.symm.trans hkey) hkeys
      next => rfl
  · by_cases hkeys : key = identityKey sourceId topic
    · subst hkeys
      rw [hindex.bucket]
      refine List.Nodup.append (hwf.nodup _) (nodup_singleton _) ?_
      rw [disjoint_singleton]
      intro hmem
      obtain ⟨entry, hentry, -⟩ := (hwf.indexed _ id).mp hmem
      rw [habsent] at hentry
      cases hentry
    · rw [hindex.others key hkeys]
      exact hwf.nodup key
  · rw [hindex.buckets, lookup_insert_ite] at hids
    split at hids
    next =>
      cases hids
      simp
    next => exact hwf.nonempty key ids hids
  · rw [hlookup] at h₁ h₂
    split at h₁ <;> split at h₂
    next heq₁ heq₂ => rw [heq₁, heq₂]
    next =>
      cases h₁
      exact absurd ⟨hs.symm, ht.symm⟩ (hnew id₂ e₂ h₂)
    next =>
      cases h₂
      exact absurd ⟨hs, ht⟩ (hnew id₁ e₁ h₁)
    next => exact hwf.distinct id₁ id₂ e₁ e₂ h₁ h₂ hs ht
  · rw [hindex.sources, hwf.sources, hentries, sumEntries_insert_new _ _ habsent]
    rfl
  · rw [hcount', hwf.count, hentries, sumEntries_insert_new _ _ habsent]
    rfl
  · rw [hbytes', hwf.bytes, hentries, sumEntries_insert_new _ _ habsent]
    rfl
  · rw [hcount']
    exact hcount
  · rw [hlookup] at hentry
    rw [hnext]
    split at hentry
    next heq =>
      rw [heq, hid]
      exact Nat.lt_succ_self _
    next => exact Nat.lt_succ_of_lt (hwf.fresh id' entry hentry)

-- ---- `with_entry` and `remove_entry`.

/-- What the transitions of an entry have in common. No transition brings an entry
back under the pending limits once it has left them. -/
structure Transition (entry entry' : SubscriptionEntry S T) : Prop where
  sourceId : entry'.sourceId = entry.sourceId
  topic    : entry'.topic = entry.topic
  tracks   : entry'.tracksPendingBytes = true → entry.tracksPendingBytes = true

/-- One id of the catalog was written; the others, and the next id, are as before. -/
structure Wrote (catalog : SubscriptionCatalog S T) (id : SubscriptionId)
    (value : Option (SubscriptionEntry S T)) (catalog' : SubscriptionCatalog S T) : Prop where
  lookup : ∀ id', catalog'.entries.lookup id' =
    if id' = id then value else catalog.entries.lookup id'
  next   : catalog'.nextSubscriptionId = catalog.nextSubscriptionId

omit [TopicMetadata T] in
theorem Wrote.trans {value value' : Option (SubscriptionEntry S T)}
    {catalog'' : SubscriptionCatalog S T} (h : Wrote catalog id value catalog')
    (h' : Wrote catalog' id value' catalog'') : Wrote catalog id value' catalog'' := by
  refine ⟨fun id' => ?_, h'.next.trans h.next⟩
  rw [h'.lookup, h.lookup]
  split <;> rfl

theorem countWeight_le (hwf : Wf limits catalog) (h : catalog.entries.lookup id = some entry) :
    countWeight id entry ≤ catalog.pendingCount := by
  rw [hwf.count, ← sumEntries_erase _ h]
  exact Nat.le_add_left _ _

theorem byteWeight_le (hwf : Wf limits catalog) (h : catalog.entries.lookup id = some entry) :
    byteWeight id entry ≤ catalog.pendingTopicBytes := by
  rw [hwf.bytes, ← sumEntries_erase _ h]
  exact Nat.le_add_left _ _

/-- **The accounting does not underflow**, and moves the counters from the weight of
the old entry to the weight of the new one. -/
theorem account_spec (entries : Table SubscriptionId (SubscriptionEntry S T))
    (isPending : Bool) (hwf : Wf limits catalog) (h : catalog.entries.lookup id = some entry)
    (hpending : isPending = true → entry.tracksPendingBytes = true) :
    ∃ count bytes, ({ catalog with entries := entries }).account entry.tracksPendingBytes isPending
        (byteLen entry.topic) =
        some { catalog with entries := entries, pendingCount := count, pendingTopicBytes := bytes } ∧
      count + countWeight id entry = catalog.pendingCount + (if isPending then 1 else 0) ∧
      bytes + byteWeight id entry = catalog.pendingTopicBytes +
        (if isPending then byteLen entry.topic else 0) := by
  have hcount := countWeight_le hwf h
  have hbytes := byteWeight_le hwf h
  simp only [countWeight] at hcount ⊢
  simp only [byteWeight] at hbytes ⊢
  cases hwas : entry.tracksPendingBytes with
  | false =>
    have hnot : isPending = false := by
      cases isPending with
      | false => rfl
      | true => exact absurd (hpending rfl) (by simp [hwas])
    subst hnot
    exact ⟨_, _, rfl, rfl, rfl⟩
  | true =>
    rw [hwas] at hcount hbytes
    simp only [↓reduceIte] at hcount hbytes
    cases isPending with
    | true => exact ⟨_, _, rfl, rfl, rfl⟩
    | false =>
      refine ⟨catalog.pendingCount - 1, catalog.pendingTopicBytes - byteLen entry.topic,
        ?_, ?_, ?_⟩
      · simp only [account, checkedSubOrAbort_of_le hcount, checkedSubOrAbort_of_le hbytes]
        rfl
      · simp only [↓reduceIte, Bool.false_eq_true]
        omega
      · simp only [↓reduceIte, Bool.false_eq_true]
        omega

/-- **`with_entry` keeps the invariant** and does not stop the process. -/
theorem withEntry_wf {R : Type} {update : SubscriptionEntry S T → SubscriptionEntry S T × R}
    (hwf : Wf limits catalog) (h : catalog.entries.lookup id = some entry)
    (ht : Transition entry (update entry).1) :
    ∃ catalog', catalog.withEntry id update = some (catalog', some (update entry).2) ∧
      Wf limits catalog' ∧ Wrote catalog id (some (update entry).1) catalog' ∧
      catalog'.identities = catalog.identities := by
  obtain ⟨count, bytes, haccount, hcount, hbytes⟩ :=
    account_spec (catalog.entries.insert id (update entry).1) _ hwf h ht.tracks
  have hlookup : ∀ id', (catalog.entries.insert id (update entry).1).lookup id' =
      if id' = id then some (update entry).1 else catalog.entries.lookup id' :=
    fun id' => lookup_insert_ite _ _ _ _
  have hkey : keyOf (update entry).1 = keyOf entry := by
    rw [keyOf, keyOf, ht.sourceId, ht.topic]
  have hsum : ∀ weight : SubscriptionId → SubscriptionEntry S T → Nat,
      sumEntries weight (catalog.entries.insert id (update entry).1) + weight id entry =
        sumEntries weight catalog.entries + weight id (update entry).1 :=
    fun weight => sumEntries_insert_old weight _ h
  have hcountWeight : (if (update entry).1.tracksPendingBytes then 1 else 0) =
      countWeight id (update entry).1 := rfl
  have hbyteWeight : (if (update entry).1.tracksPendingBytes then byteLen entry.topic
      else 0) = byteWeight id (update entry).1 := by rw [byteWeight, ht.topic]
  have hle : count ≤ catalog.pendingCount := by
    have hmono : countWeight id (update entry).1 ≤ countWeight id entry := by
      simp only [countWeight]
      split
      next hp => rw [if_pos (ht.tracks hp)]
      next => exact Nat.zero_le _
    omega
  have hle' : bytes ≤ catalog.pendingTopicBytes := by
    have hmono : byteWeight id (update entry).1 ≤ byteWeight id entry := by
      simp only [byteWeight]
      split
      next hp => rw [if_pos (ht.tracks hp), ht.topic]
      next => exact Nat.zero_le _
    omega
  refine ⟨{ catalog with
      entries           := catalog.entries.insert id (update entry).1
      pendingCount      := count
      pendingTopicBytes := bytes }, ?_, ⟨fun key id' => ?_, hwf.nodup, hwf.nonempty,
    fun id₁ id₂ e₁ e₂ h₁ h₂ hs htopic => ?_, fun source => ?_, ?_, ?_,
    hle.trans hwf.countLimit, hle'.trans hwf.bytesLimit, fun id' entry' hentry => ?_⟩,
    ⟨hlookup, rfl⟩, rfl⟩
  · simp only [withEntry, h, haccount, map_some]
  · rw [hwf.indexed, hlookup]
    split
    next heq =>
      subst heq
      rw [h]
      constructor
      · rintro ⟨entry', hentry', hk⟩
        cases hentry'
        exact ⟨_, rfl, hkey.trans hk⟩
      · rintro ⟨entry', hentry', hk⟩
        cases hentry'
        exact ⟨_, rfl, hkey.symm.trans hk⟩
    next => rfl
  -- An entry and its update have the same source and topic.
  · have hold : ∀ id' entry', (catalog.entries.insert id (update entry).1).lookup id' = some entry' →
        ∃ old, catalog.entries.lookup id' = some old ∧ entry'.sourceId = old.sourceId ∧
          entry'.topic = old.topic := by
      intro id' entry' hentry'
      rw [hlookup] at hentry'
      split at hentry'
      next heq =>
        cases hentry'
        exact ⟨entry, heq ▸ h, ht.sourceId, ht.topic⟩
      next => exact ⟨entry', hentry', rfl, rfl⟩
    obtain ⟨old₁, hold₁, hs₁, ht₁⟩ := hold id₁ e₁ h₁
    obtain ⟨old₂, hold₂, hs₂, ht₂⟩ := hold id₂ e₂ h₂
    exact hwf.distinct id₁ id₂ old₁ old₂ hold₁ hold₂ (by rw [← hs₁, hs, hs₂])
      (by rw [← ht₁, htopic, ht₂])
  · have hweight : sourceWeight source id (update entry).1 = sourceWeight source id entry := by
      rw [sourceWeight, sourceWeight, ht.sourceId]
    have hsource := hwf.sources source
    have hnew := hsum (sourceWeight source)
    show catalog.identities.sourceCount source =
      sumEntries (sourceWeight source) (catalog.entries.insert id (update entry).1)
    omega
  · have hold := hwf.count
    have hnew := hsum countWeight
    show count = sumEntries countWeight (catalog.entries.insert id (update entry).1)
    omega
  · have hold := hwf.bytes
    have hnew := hsum byteWeight
    show bytes = sumEntries byteWeight (catalog.entries.insert id (update entry).1)
    omega
  · rw [hlookup] at hentry
    split at hentry
    next heq =>
      subst heq
      exact hwf.fresh id' entry h
    next => exact hwf.fresh id' entry' hentry

/-- **`remove_entry` keeps the invariant** and does not stop the process. -/
theorem removeEntry_wf (hwf : Wf limits catalog) (h : catalog.entries.lookup id = some entry) :
    ∃ catalog', catalog.removeEntry id = some (catalog', some entry) ∧
      Wf limits catalog' ∧ Wrote catalog id none catalog' := by
  obtain ⟨count, bytes, haccount, hcount, hbytes⟩ :=
    account_spec (catalog.entries.erase id) false hwf h nofun
  have hmem : id ∈ catalog.identities.candidates (keyOf entry) :=
    (hwf.indexed _ id).mpr ⟨entry, h, rfl⟩
  have hsum : ∀ weight : SubscriptionId → SubscriptionEntry S T → Nat,
      sumEntries weight (catalog.entries.erase id) + weight id entry =
        sumEntries weight catalog.entries :=
    fun weight => sumEntries_erase weight h
  have hpos : 0 < catalog.identities.sourceCount (keyOf entry).sourceId := by
    have hself : sourceWeight (keyOf entry).sourceId id entry = 1 := if_pos rfl
    have hnew := hsum (sourceWeight (keyOf entry).sourceId)
    rw [hwf.sources]
    omega
  obtain ⟨identities, hremove, hindex⟩ := remove_of_mem hmem hpos
  have hlookup : ∀ id', (catalog.entries.erase id).lookup id' =
      if id' = id then none else catalog.entries.lookup id' :=
    fun id' => lookup_erase_ite _ _ _
  have hold : ∀ {id' entry'}, (catalog.entries.erase id).lookup id' = some entry' →
      catalog.entries.lookup id' = some entry' := by
    intro id' entry' hentry
    rw [hlookup] at hentry
    split at hentry
    next => cases hentry
    next => exact hentry
  simp only [Bool.false_eq_true, ↓reduceIte, Nat.add_zero] at hcount hbytes
  refine ⟨{ catalog with
      entries           := catalog.entries.erase id
      pendingCount      := count
      pendingTopicBytes := bytes
      identities        := identities }, ?_, ⟨fun key id' => ?_, fun key => ?_,
    hindex.nonempty hwf.nonempty,
    fun id₁ id₂ e₁ e₂ h₁ h₂ => hwf.distinct id₁ id₂ e₁ e₂ (hold h₁) (hold h₂), fun source => ?_, ?_,
    ?_, ?_, ?_, fun id' entry' hentry => hwf.fresh id' entry' (hold hentry)⟩, hlookup, rfl⟩
  · have hremove' : catalog.identities.remove (identityKey entry.sourceId entry.topic) id =
        some (identities, true) := hremove
    simp only [removeEntry, h, haccount, bind_eq_bind, bind_some, hremove']
  · show id' ∈ identities.candidates key ↔ _
    rw [hlookup]
    by_cases hkey : key = keyOf entry
    · subst hkey
      rw [hindex.bucket.mem_iff, (hwf.nodup _).mem_erase_iff, hwf.indexed]
      constructor
      · rintro ⟨hne, entry', hentry', hk⟩
        exact ⟨entry', by rw [if_neg hne, hentry'], hk⟩
      · rintro ⟨entry', hentry', hk⟩
        split at hentry'
        next => cases hentry'
        next hne => exact ⟨hne, entry', hentry', hk⟩
    · rw [hindex.others key hkey, hwf.indexed]
      refine exists_congr fun entry' => and_congr_left fun hk => ?_
      split
      next heq =>
        subst heq
        rw [h]
        refine ⟨fun hf => ?_, nofun⟩
        cases hf
        exact absurd hk.symm hkey
      next => rfl
  · by_cases hkey : key = keyOf entry
    · subst hkey
      exact hindex.bucket.nodup_iff.mpr ((hwf.nodup _).erase _)
    · show (identities.candidates key).Nodup
      rw [hindex.others key hkey]
      exact hwf.nodup key
  · have hsource := hindex.sources source
    have hwas := hwf.sources source
    have hnew := hsum (sourceWeight source)
    have hweight : sourceWeight source id entry = if source = (keyOf entry).sourceId then 1 else 0 :=
      rfl
    show identities.sourceCount source = sumEntries (sourceWeight source) (catalog.entries.erase id)
    omega
  · have hwas := hwf.count
    have hnew := hsum countWeight
    show count = sumEntries countWeight (catalog.entries.erase id)
    omega
  · have hwas := hwf.bytes
    have hnew := hsum byteWeight
    show bytes = sumEntries byteWeight (catalog.entries.erase id)
    omega
  · have hwas := hwf.countLimit
    show count ≤ _
    omega
  · have hwas := hwf.bytesLimit
    show bytes ≤ _
    omega

/-- **`settle` keeps the invariant** and does not stop the process. -/
theorem settle_wf {update : SubscriptionEntry S T → SubscriptionEntry S T × Bool}
    (hwf : Wf limits catalog) (h : catalog.entries.lookup id = some entry)
    (ht : Transition entry (update entry).1) :
    ∃ catalog', catalog.settle id update =
        some (catalog', if (update entry).2 then some (update entry).1 else none) ∧
      Wf limits catalog' ∧
      Wrote catalog id (if (update entry).2 then none else some (update entry).1) catalog' := by
  obtain ⟨catalog₁, hwith, hwf₁, hwrote₁, -⟩ := withEntry_wf hwf h ht
  cases hflag : (update entry).2 with
  | false =>
    rw [hflag] at hwith
    refine ⟨catalog₁, ?_, hwf₁, hwrote₁⟩
    simp only [settle, hwith, bind_eq_bind, bind_some]
    rfl
  | true =>
    have hentry : catalog₁.entries.lookup id = some (update entry).1 := by
      rw [hwrote₁.lookup, if_pos rfl]
    obtain ⟨catalog₂, hremove, hwf₂, hwrote₂⟩ := removeEntry_wf hwf₁ hentry
    rw [hflag] at hwith
    refine ⟨catalog₂, ?_, hwf₂, hwrote₁.trans hwrote₂⟩
    simp only [settle, hwith, bind_eq_bind, bind_some, hremove]
    rfl

end SubscriptionCatalog

end Xlfn.Subscription
