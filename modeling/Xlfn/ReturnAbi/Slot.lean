import Xlfn.Lib.Machine

/-!
# Xlfn — the slot of a return block

`return_abi/slot.rs`: storage of a thread for one return block. Who may do what to it is a
capability, and each capability is used up, dropped, or forgotten. A payload destructor runs
code that may reach the slot again, so its beginning and its end are steps of their own.

* `Inv` — what the state says about the capabilities and the payloads.
-/

namespace Xlfn.ReturnAbi

open Xlfn.Lib List

-- ---- The slot.

inductive SlotState where
  | vacant
  | reserved
  | initialized
  | published
  | freeing
  | poisoned
deriving DecidableEq

/-- `block` is the payload last written, if any. -/
structure ReturnBlockSlot where
  state : SlotState
  block : Option Nat
deriving DecidableEq

/-- The capabilities that own a slot. `PublishedSlot` is none: whatever is done with it does
nothing to the slot. `destroying` is a `FreeingSlot::destroy` under way. -/
inductive Owner where
  | reserved
  | initialized
  | freeing
  | destroying
  | reusable
deriving DecidableEq

namespace ReturnBlockSlot

def new : ReturnBlockSlot := ⟨.vacant, none⟩

def tryReserve (slot : ReturnBlockSlot) : Option Owner × ReturnBlockSlot :=
  if slot.state ≠ .vacant then (none, slot)
  else (some .reserved, { slot with state := .reserved })

/-- `own` is whether the pointer is that of this slot; `none` is `fail_stop`. -/
def claimFree (slot : ReturnBlockSlot) (own : Bool) : Option (Option Owner × ReturnBlockSlot) :=
  if ¬own then some (none, slot)
  else if slot.state ≠ .published then none
  else some (some .freeing, { slot with state := .freeing })

end ReturnBlockSlot

/-- A slot, the capabilities that are alive, the number of payloads that were written, and of
the payloads those whose destructor was run, those whose destructor returned, and those whose
owner was forgotten or given up. -/
structure SlotWorld where
  slot      : ReturnBlockSlot
  owners    : List Owner
  payloads  : Nat
  dropped   : List Nat
  destroyed : List Nat
  abandoned : List Nat
deriving DecidableEq

inductive SlotAction where
  | tryReserve
  /-- The drop of a `ReservedSlot`. -/
  | dropReserved
  | initializeBlock
  | publish
  /-- The drop of an `InitializedSlot`, up to the `FreeingSlot` it goes on with. -/
  | dropInitialized
  | claimFree (pointer : Nat)
  | destroy
  | destroyed
  | destroyPanicked
  /-- The drop of a `FreeingSlot`. -/
  | dropFreeing
  | release
  | forget (owner : Owner)
  /-- `destroy_foreign`. -/
  | destroyForeign (panics : Bool)
deriving DecidableEq

namespace SlotWorld

def new : SlotWorld := ⟨.new, [], 0, [], [], []⟩

/-- The slot has a new state, and one capability takes the place of another. -/
def move (w : SlotWorld) (owner : Owner) (state : SlotState) (owners : List Owner) :
    Option SlotWorld :=
  if owner ∈ w.owners then
    some { w with slot := { w.slot with state }, owners := owners ++ w.owners.erase owner }
  else none

/-- The payload in the slot goes into the ledgers. -/
def drop (w : SlotWorld) : SlotWorld :=
  { w with dropped := w.dropped ++ w.slot.block.toList }

def succeed (w : SlotWorld) : SlotWorld :=
  { w with destroyed := w.destroyed ++ w.slot.block.toList }

def abandon (w : SlotWorld) : SlotWorld :=
  { w with abandoned := w.abandoned ++ w.slot.block.toList }

/-- The payload Excel was given and has not freed. -/
def Live (w : SlotWorld) : Prop :=
  w.slot.state = .published ∧ ∀ payload ∈ w.slot.block, payload ∉ w.dropped

instance (w : SlotWorld) : Decidable w.Live :=
  inferInstanceAs (Decidable (_ ∧ ∀ payload ∈ w.slot.block, payload ∉ w.dropped))

/-- One step. The callers of a free promise that it is the only one of its payload. -/
def step (address : Nat) (w : SlotWorld) : SlotAction → Option SlotWorld
  | .tryReserve =>
    let (owner, slot) := w.slot.tryReserve
    some { w with slot, owners := owner.toList ++ w.owners }
  | .dropReserved => w.move .reserved .vacant []
  | .initializeBlock =>
    { w with slot := { w.slot with block := some w.payloads }, payloads := w.payloads + 1 }.move
      .reserved .initialized [.initialized]
  | .publish => w.move .initialized .published []
  | .dropInitialized => w.move .initialized .freeing [.freeing]
  | .claimFree pointer =>
    if pointer = address ∧ w.slot.state = .published ∧ ¬w.Live then none
    else (w.slot.claimFree (pointer = address)).map fun (owner, slot) =>
      { w with slot, owners := owner.toList ++ w.owners }
  | .destroy => w.drop.move .freeing w.slot.state [.destroying]
  | .destroyed => w.succeed.move .destroying w.slot.state [.reusable]
  | .destroyPanicked => w.move .destroying .poisoned []
  | .dropFreeing => w.abandon.move .freeing .poisoned []
  | .release => w.move .reusable .vacant []
  | .forget .reserved => w.move .reserved w.slot.state []
  | .forget .initialized => w.abandon.move .initialized w.slot.state []
  | .forget .freeing => w.abandon.move .freeing w.slot.state []
  | .forget .destroying => none
  | .forget .reusable => w.move .reusable w.slot.state []
  | .destroyForeign panics =>
    if w.Live then some (if panics then w.drop else w.drop.succeed) else none

-- ---- What the state says.

/-- A state with the capability that goes with it. -/
abbrev Phase := SlotState × List Owner

/-- The phases before a payload is written. -/
def empty : List Phase := [(.vacant, []), (.reserved, [.reserved]), (.reserved, [])]

/-- The phases with a payload whose destructor was not run. -/
def held : List Phase := [(.initialized, [.initialized]), (.published, []), (.freeing, [.freeing])]

/-- The phases with a payload nobody can destroy. -/
def kept : List Phase := [(.initialized, []), (.freeing, []), (.poisoned, [])]

/-- The phases with a payload whose destructor runs, or panicked. -/
def broken : List Phase := [(.freeing, [.destroying]), (.published, []), (.poisoned, [])]

/-- The phases with a payload whose destructor returned. -/
def spent : List Phase := [(.freeing, [.reusable]), (.freeing, []), (.published, [])]

/-- Every payload is destroyed but perhaps the last one, and the phase tells what became of it. -/
inductive Inv : SlotWorld → Prop
  | empty {n : Nat} {state : SlotState} {owners : List Owner} {block : Option Nat}
      (phase : (state, owners) ∈ empty) :
      Inv ⟨⟨state, block⟩, owners, n, .range n, .range n, []⟩
  | held {n : Nat} {state : SlotState} {owners : List Owner} (phase : (state, owners) ∈ held) :
      Inv ⟨⟨state, some n⟩, owners, n + 1, .range n, .range n, []⟩
  | kept {n : Nat} {state : SlotState} {owners : List Owner} (phase : (state, owners) ∈ kept) :
      Inv ⟨⟨state, some n⟩, owners, n + 1, .range n, .range n, [n]⟩
  | broken {n : Nat} {state : SlotState} {owners : List Owner}
      (phase : (state, owners) ∈ broken) :
      Inv ⟨⟨state, some n⟩, owners, n + 1, .range (n + 1), .range n, []⟩
  | spent {n : Nat} {state : SlotState} {owners : List Owner} (phase : (state, owners) ∈ spent) :
      Inv ⟨⟨state, some n⟩, owners, n + 1, .range (n + 1), .range (n + 1), []⟩

variable {address : Nat} {w w' : SlotWorld} {a : SlotAction}

theorem inv_new : Inv new := .empty (n := 0) (by decide)

variable {owner : Owner}

theorem move_eq {state : SlotState} {owners : List Owner}
    (h : w.move owner state owners = some w') : owner ∈ w.owners ∧
      w' = { w with slot := { w.slot with state }, owners := owners ++ w.owners.erase owner } := by
  unfold move at h
  split at h
  · next hmem =>
    cases h
    exact ⟨hmem, rfl⟩
  · cases h

theorem phase_of_mem {phases : List Phase} {state : SlotState} {owners : List Owner}
    (phase : (state, owners) ∈ phases) (h : owner ∈ owners) :
    (state, owners) ∈ phases.filter fun phase => owner ∈ phase.2 :=
  mem_filter.mpr ⟨phase, decide_eq_true h⟩

/-- **A capability tells the phase**, and with it what became of the last payload. -/
theorem Inv.of_owner (h : w.Inv) (hmem : owner ∈ w.owners) : match owner with
    | .reserved => ∃ n block, w = ⟨⟨.reserved, block⟩, [.reserved], n, .range n, .range n, []⟩
    | .initialized =>
      ∃ n, w = ⟨⟨.initialized, some n⟩, [.initialized], n + 1, .range n, .range n, []⟩
    | .freeing => ∃ n, w = ⟨⟨.freeing, some n⟩, [.freeing], n + 1, .range n, .range n, []⟩
    | .destroying =>
      ∃ n, w = ⟨⟨.freeing, some n⟩, [.destroying], n + 1, .range (n + 1), .range n, []⟩
    | .reusable =>
      ∃ n, w = ⟨⟨.freeing, some n⟩, [.reusable], n + 1, .range (n + 1), .range (n + 1), []⟩ := by
  cases h with
  | @empty n _ _ block phase =>
    have hphase := phase_of_mem phase hmem
    cases owner <;> simp [SlotWorld.empty] at hphase
    obtain ⟨rfl, rfl⟩ := hphase
    exact ⟨n, block, rfl⟩
  | held phase =>
    have hphase := phase_of_mem phase hmem
    cases owner <;> simp [SlotWorld.held] at hphase <;> obtain ⟨rfl, rfl⟩ := hphase <;>
      exact ⟨_, rfl⟩
  | kept phase =>
    have hphase := phase_of_mem phase hmem
    cases owner <;> simp [SlotWorld.kept] at hphase
  | broken phase | spent phase =>
    have hphase := phase_of_mem phase hmem
    cases owner <;> simp [SlotWorld.broken, SlotWorld.spent] at hphase
    obtain ⟨rfl, rfl⟩ := hphase
    exact ⟨_, rfl⟩

theorem Inv.of_live (h : w.Inv) (hlive : w.Live) :
    ∃ n, w = ⟨⟨.published, some n⟩, [], n + 1, .range n, .range n, []⟩ := by
  obtain ⟨hstate, hblock⟩ := hlive
  cases h with
  | empty phase | kept phase =>
    cases hstate
    simp [SlotWorld.empty, SlotWorld.kept] at phase
  | held phase =>
    cases hstate
    simp [SlotWorld.held] at phase
    exact ⟨_, by rw [phase]⟩
  | broken phase | spent phase =>
    exact absurd (mem_range.mpr (Nat.lt_succ_self _)) (hblock _ rfl)

theorem Inv.of_vacant (h : w.Inv) (hstate : w.slot.state = .vacant) :
    ∃ n block, w = ⟨⟨.vacant, block⟩, [], n, .range n, .range n, []⟩ := by
  cases h with
  | empty phase =>
    cases hstate
    simp [SlotWorld.empty] at phase
    exact ⟨_, _, by rw [phase]⟩
  | held phase | kept phase | broken phase | spent phase =>
    cases hstate
    simp [SlotWorld.held, SlotWorld.kept, SlotWorld.broken, SlotWorld.spent] at phase

-- ---- Every step.

theorem claimFree_cases {pointer : Nat} (hstep : w.step address (.claimFree pointer) = some w') :
    pointer ≠ address ∧ w' = w ∨ pointer = address ∧ w.Live ∧
      w' = ⟨⟨.freeing, w.slot.block⟩, .freeing :: w.owners, w.payloads, w.dropped, w.destroyed,
        w.abandoned⟩ := by
  unfold step ReturnBlockSlot.claimFree at hstep
  by_cases hpointer : pointer = address
  · by_cases hstate : w.slot.state = .published
    · by_cases hlive : w.Live
      · simp [hpointer, hstate, hlive] at hstep
        exact .inr ⟨hpointer, hlive, hstep.symm⟩
      · simp [hpointer, hstate, hlive] at hstep
    · simp [hpointer, hstate] at hstep
  · simp [hpointer] at hstep
    exact .inl ⟨hpointer, hstep.symm⟩

theorem tryReserve_cases (hstep : w.step address .tryReserve = some w') :
    w.slot.state ≠ .vacant ∧ w' = w ∨ w.slot.state = .vacant ∧
      w' = ⟨⟨.reserved, w.slot.block⟩, .reserved :: w.owners, w.payloads, w.dropped, w.destroyed,
        w.abandoned⟩ := by
  simp only [step, Option.some.injEq] at hstep
  by_cases hstate : w.slot.state = .vacant
  · have hgrant : w.slot.tryReserve = (some .reserved, { w.slot with state := .reserved }) :=
      if_neg (not_not.mpr hstate)
    rw [hgrant] at hstep
    exact .inr ⟨hstate, hstep.symm⟩
  · have hnone : w.slot.tryReserve = (none, w.slot) := if_pos hstate
    rw [hnone] at hstep
    exact .inl ⟨hstate, hstep.symm⟩

/-- **Every step keeps the invariant.** -/
theorem Inv.step (h : w.Inv) (hstep : w.step address a = some w') : w'.Inv := by
  have hnew : ∀ n, range n ++ [n] = range (n + 1) := fun n => range_succ.symm
  have hmoved : ∀ {v : SlotWorld} {owner owners state}, v.move owner state owners = some w' →
      v.owners = w.owners → owner ∈ w.owners ∧
        w' = { v with slot := { v.slot with state }, owners := owners ++ v.owners.erase owner } :=
    fun hv howners => ⟨howners ▸ (move_eq hv).1, (move_eq hv).2⟩
  cases a with
  | tryReserve =>
    rcases tryReserve_cases hstep with ⟨-, rfl⟩ | ⟨hstate, rfl⟩
    · exact h
    · obtain ⟨n, block, rfl⟩ := h.of_vacant hstate
      exact .empty (by simp [SlotWorld.empty])
  | dropReserved =>
    obtain ⟨hmem, rfl⟩ := hmoved hstep rfl
    obtain ⟨n, block, rfl⟩ := h.of_owner hmem
    exact .empty (by simp [SlotWorld.empty])
  | initializeBlock =>
    obtain ⟨hmem, rfl⟩ := hmoved hstep rfl
    obtain ⟨n, block, rfl⟩ := h.of_owner hmem
    exact .held (by simp [SlotWorld.held])
  | publish | dropInitialized =>
    obtain ⟨hmem, rfl⟩ := hmoved hstep rfl
    obtain ⟨n, rfl⟩ := h.of_owner hmem
    exact .held (by simp [SlotWorld.held])
  | claimFree pointer =>
    rcases claimFree_cases hstep with ⟨-, rfl⟩ | ⟨-, hlive, rfl⟩
    · exact h
    · obtain ⟨n, rfl⟩ := h.of_live hlive
      exact .held (by simp [SlotWorld.held])
  | destroy =>
    obtain ⟨hmem, rfl⟩ := hmoved hstep rfl
    obtain ⟨n, rfl⟩ := h.of_owner hmem
    simp only [drop, Option.toList_some, hnew]
    exact .broken (by simp [SlotWorld.broken])
  | destroyed =>
    obtain ⟨hmem, rfl⟩ := hmoved hstep rfl
    obtain ⟨n, rfl⟩ := h.of_owner hmem
    simp only [succeed, Option.toList_some, hnew]
    exact .spent (by simp [SlotWorld.spent])
  | destroyPanicked =>
    obtain ⟨hmem, rfl⟩ := hmoved hstep rfl
    obtain ⟨n, rfl⟩ := h.of_owner hmem
    exact .broken (by simp [SlotWorld.broken])
  | dropFreeing =>
    obtain ⟨hmem, rfl⟩ := hmoved hstep rfl
    obtain ⟨n, rfl⟩ := h.of_owner hmem
    exact .kept (by simp [SlotWorld.kept, abandon])
  | release =>
    obtain ⟨hmem, rfl⟩ := hmoved hstep rfl
    obtain ⟨n, rfl⟩ := h.of_owner hmem
    exact .empty (by simp [SlotWorld.empty])
  | forget owner =>
    cases owner with
    | destroying => cases hstep
    | reserved =>
      obtain ⟨hmem, rfl⟩ := hmoved hstep rfl
      obtain ⟨n, block, rfl⟩ := h.of_owner hmem
      exact .empty (by simp [SlotWorld.empty])
    | initialized | freeing =>
      obtain ⟨hmem, rfl⟩ := hmoved hstep rfl
      obtain ⟨n, rfl⟩ := h.of_owner hmem
      exact .kept (by simp [SlotWorld.kept, abandon])
    | reusable =>
      obtain ⟨hmem, rfl⟩ := hmoved hstep rfl
      obtain ⟨n, rfl⟩ := h.of_owner hmem
      exact .spent (by simp [SlotWorld.spent])
  | destroyForeign panics =>
    by_cases hlive : w.Live
    · rw [SlotWorld.step, if_pos hlive] at hstep
      cases hstep
      obtain ⟨n, rfl⟩ := h.of_live hlive
      simp only [drop, succeed, Option.toList_some, hnew]
      cases panics
      · exact .spent (by simp [SlotWorld.spent])
      · exact .broken (by simp [SlotWorld.broken])
    · rw [SlotWorld.step, if_neg hlive] at hstep
      cases hstep

theorem Inv.of_reachable (hw : Reachable (SlotWorld.step address) new w) : w.Inv :=
  hw.invariant (fun _ _ _ h hstep => h.step hstep) inv_new

-- ---- What a run does to the payloads.

/-- A payload was destroyed once, or given up and never destroyed, or is the one in the slot and
can still be destroyed. -/
def Fate (w : SlotWorld) (payload : Nat) : Prop :=
  w.dropped.count payload = 1 ∧ payload ∉ w.abandoned ∨
    w.dropped.count payload = 0 ∧ payload ∈ w.abandoned ∨
    w.dropped.count payload = 0 ∧ w.slot.block = some payload ∧
      (.initialized ∈ w.owners ∨ .freeing ∈ w.owners ∨ w.slot.state = .published)

theorem count_range {payload n : Nat} (h : payload < n) : (range n).count payload = 1 :=
  (nodup_range.count).trans (if_pos (mem_range.mpr h))

theorem count_range_self (n : Nat) : (range n).count n = 0 :=
  count_eq_zero.mpr fun h => Nat.lt_irrefl n (mem_range.mp h)

theorem Inv.fate (h : w.Inv) {payload : Nat} (hpayload : payload < w.payloads) :
    w.Fate payload := by
  cases h with
  | empty phase | broken phase | spent phase => exact .inl ⟨count_range hpayload, not_mem_nil⟩
  | @held n state owners phase =>
    rcases Nat.lt_succ_iff_lt_or_eq.mp hpayload with hlt | rfl
    · exact .inl ⟨count_range hlt, not_mem_nil⟩
    · refine .inr (.inr ⟨count_range_self _, rfl, ?_⟩)
      simp only [SlotWorld.held, mem_cons, Prod.mk.injEq, not_mem_nil, or_false] at phase
      rcases phase with ⟨-, rfl⟩ | ⟨rfl, -⟩ | ⟨-, rfl⟩
      · exact .inl mem_cons_self
      · exact .inr (.inr rfl)
      · exact .inr (.inl mem_cons_self)
  | kept phase =>
    rcases Nat.lt_succ_iff_lt_or_eq.mp hpayload with hlt | rfl
    · exact .inl ⟨count_range hlt, fun hmem => Nat.ne_of_lt hlt (mem_singleton.mp hmem)⟩
    · exact .inr (.inl ⟨count_range_self _, mem_cons_self⟩)

theorem step_vacant (hstep : w.step address a = some w')
    (hbefore : w.slot.state ≠ .vacant) (hafter : w'.slot.state = .vacant) :
    a = .dropReserved ∨ a = .release := by
  have hmoved : ∀ {v owner owners state},
      SlotWorld.move v owner state owners = some w' → state = .vacant := fun hv => by
    rw [(move_eq hv).2] at hafter
    exact hafter
  cases a with
  | dropReserved => exact .inl rfl
  | release => exact .inr rfl
  | tryReserve =>
    rcases tryReserve_cases hstep with ⟨-, rfl⟩ | ⟨hstate, -⟩
    · exact absurd hafter hbefore
    · exact absurd hstate hbefore
  | claimFree pointer =>
    rcases claimFree_cases hstep with ⟨-, rfl⟩ | ⟨-, -, rfl⟩
    · exact absurd hafter hbefore
    · cases hafter
  | initializeBlock | publish | dropInitialized | destroyPanicked | dropFreeing =>
    cases hmoved hstep
  | destroy | destroyed => exact absurd (hmoved hstep) hbefore
  | forget owner =>
    cases owner with
    | destroying => cases hstep
    | _ => exact absurd (hmoved hstep) hbefore
  | destroyForeign panics =>
    rw [step] at hstep
    split at hstep
    · cases hstep
      cases panics <;> exact absurd hafter hbefore
    · cases hstep

theorem Inv.of_poisoned (h : w.Inv) (hstate : w.slot.state = .poisoned) : w.owners = [] := by
  cases h with
  | empty phase | held phase | spent phase =>
    cases hstate
    simp [SlotWorld.empty, SlotWorld.held, SlotWorld.spent] at phase
  | kept phase | broken phase =>
    cases hstate
    simpa [SlotWorld.kept, SlotWorld.broken] using phase

/-- **A poisoned slot stays as it is.** -/
theorem step_poisoned (howners : w.owners = []) (hstate : w.slot.state = .poisoned)
    (hstep : w.step address a = some w') : w' = w := by
  have hmove : ∀ {v owner state owners}, SlotWorld.move v owner state owners = some w' →
      v.owners = w.owners → False := fun hv hsame => by
    have hmem := (move_eq hv).1
    rw [hsame, howners] at hmem
    exact not_mem_nil hmem
  have hlive : ¬w.Live := fun hlive => by
    have hpublished := hlive.1
    rw [hstate] at hpublished
    cases hpublished
  cases a with
  | tryReserve =>
    rcases tryReserve_cases hstep with ⟨-, rfl⟩ | ⟨hvacant, -⟩
    · rfl
    · rw [hstate] at hvacant
      cases hvacant
  | claimFree pointer =>
    rcases claimFree_cases hstep with ⟨-, rfl⟩ | ⟨-, h, -⟩
    · rfl
    · exact absurd h hlive
  | forget owner =>
    cases owner with
    | destroying => cases hstep
    | _ => exact (hmove hstep rfl).elim
  | destroyForeign panics => cases (if_neg hlive).symm.trans hstep
  | _ => exact (hmove hstep rfl).elim

theorem run_poisoned (howners : w.owners = []) (hstate : w.slot.state = .poisoned) :
    ∀ as w', run (step address) w as = some w' → w' = w := by
  intro as
  induction as with
  | nil =>
    intro w' hrun
    exact (Option.some.inj hrun).symm
  | cons a as ih =>
    intro w' hrun
    obtain ⟨v, hv, hrest⟩ := Option.bind_eq_some_iff.mp hrun
    rw [step_poisoned howners hstate hv] at hrest
    exact ih w' hrest

end SlotWorld

open SlotWorld

/-- **The slot of a return block.** Over every run: a payload is destroyed exactly once unless its
owner was forgotten or its claimed free was dropped, and then never, or is still to be destroyed;
a vacant slot has only payloads whose destruction succeeded, and gets vacant again by a reservation
that is dropped or after a destruction; a poisoned slot stays as it is; and a free that is not of
the live payload of the slot does nothing, or stops the process. -/
theorem return_block_slot (address : Nat) : ∀ w, Reachable (step address) SlotWorld.new w →
      (∀ payload < w.payloads, w.Fate payload) ∧
      (w.slot.state = .vacant → ∀ payload < w.payloads, payload ∈ w.destroyed) ∧
      (∀ a w', w.step address a = some w' → w.slot.state ≠ .vacant → w'.slot.state = .vacant →
        a = .dropReserved ∨ a = .release) ∧
      (w.slot.state = .poisoned → ∀ as w', run (step address) w as = some w' → w' = w) ∧
      ∀ pointer w', w.step address (.claimFree pointer) = some w' →
        pointer ≠ address ∧ w' = w ∨ pointer = address ∧ w.Live := by
  intro w hw
  have hinv := Inv.of_reachable hw
  refine ⟨fun payload => hinv.fate, ?_, fun a w' => step_vacant, ?_, ?_⟩
  · intro hstate payload hpayload
    obtain ⟨n, block, rfl⟩ := hinv.of_vacant hstate
    exact mem_range.mpr hpayload
  · exact fun hstate => run_poisoned (hinv.of_poisoned hstate) hstate
  · intro pointer w' hstep
    rcases claimFree_cases hstep with hother | ⟨hpointer, hlive, -⟩
    · exact .inl hother
    · exact .inr ⟨hpointer, hlive⟩

theorem return_block_slot_freed :
    ∃ w, run (step 0) SlotWorld.new [.tryReserve, .initializeBlock, .publish, .claimFree 0,
        .destroy, .destroyed, .release] = some w ∧
      w.payloads = 1 ∧ w.Fate 0 ∧ ∀ payload < w.payloads, payload ∈ w.destroyed := by
  refine ⟨⟨⟨.vacant, some 0⟩, [], 1, [0], [0], []⟩, by decide, rfl, ?_⟩
  have h := return_block_slot 0 _ ⟨[.tryReserve, .initializeBlock, .publish, .claimFree 0,
    .destroy, .destroyed, .release], (by decide : run (step 0) SlotWorld.new _ =
      some ⟨⟨.vacant, some 0⟩, [], 1, [0], [0], []⟩)⟩
  exact ⟨h.1 0 Nat.zero_lt_one, h.2.1 rfl⟩

/-- A claimed free that is dropped: its payload is never destroyed. And a reservation that is
dropped: the slot is vacant again, and nothing was destroyed. -/
theorem return_block_slot_given_up : (∃ w, run (step 0) SlotWorld.new
        [.tryReserve, .initializeBlock, .publish, .claimFree 0, .dropFreeing] = some w ∧
      w.payloads = 1 ∧ ∀ as w', run (step 0) w as = some w' → w'.dropped.count 0 = 0) ∧
    ∃ w, run (step 0) SlotWorld.new [.tryReserve, .dropReserved] = some w ∧
      w.slot.state = .vacant ∧ w.destroyed = [] := by
  refine ⟨⟨⟨⟨.poisoned, some 0⟩, [], 1, [], [], [0]⟩, by decide, rfl, ?_⟩, ?_⟩
  · intro as w' hrun
    rw [run_poisoned rfl rfl as w' hrun]
    rfl
  · exact ⟨⟨⟨.vacant, none⟩, [], 0, [], [], []⟩, by decide, rfl, rfl⟩

end Xlfn.ReturnAbi
