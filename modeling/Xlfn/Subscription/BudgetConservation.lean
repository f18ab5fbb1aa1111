import Mathlib.Algebra.Order.BigOperators.Group.List
import Mathlib.Algebra.Order.Ring.Nat
import Xlfn.Subscription.Budget

/-!
# Xlfn — conservation of the channel budgets

Every unit a budget has in use is held by one ledger, one operation on a ledger,
or one permit. What an operation adds to a budget it adds to its own holdings in
the same step, and what it gives back it had; so nothing leaks and no release
underflows.

* `charge` — what a ledger or a permit holds of a budget.
-/

namespace Xlfn.Subscription

open Xlfn.Lib ChannelBudget Function List Usage Permit

variable {ι : Type} [DecidableEq ι]

-- ---- Who holds what.

/-- What a ledger and the operation on it hold of their source's budget. -/
def ChannelLedger.sourceCharge (c : ChannelLedger ι) : Usage :=
  match c.phase with
  | .idle => .buffered c.ledger.values c.ledger.bytes
  | .sourceAcquired values bytes _ =>
    .buffered (c.ledger.values + values) (c.ledger.bytes + bytes)
  | .runtimeRefused values bytes => .buffered (c.ledger.values + values) (c.ledger.bytes + bytes)
  | .sourceReleased bytes => .buffered c.ledger.values (c.ledger.bytes - bytes)

def ChannelLedger.charge (c : ChannelLedger ι) : BudgetId ι → Usage
  | .runtime => .buffered c.ledger.values c.ledger.bytes
  | .source i => if i = c.source then c.sourceCharge else .zero

def Permit.charge (permit : Permit ι) (b : BudgetId ι) : Usage :=
  match permit with
  | .subscription b' => if b = b' then { Usage.zero with subscriptions := 1 } else .zero
  | .worker b' => if b = b' then { Usage.zero with workers := 1 } else .zero
  | .buffer source values bytes =>
    if b = .runtime ∨ b = .source source then .buffered values bytes else .zero
  | .returning values bytes => if b = .runtime then .buffered values bytes else .zero
  | .dropped => .zero

namespace BudgetSystem

variable {s s' : BudgetSystem ι}

/-- All the holdings of one field of one budget. -/
def held (s : BudgetSystem ι) (b : BudgetId ι) (r : Resource) : Nat :=
  (s.channels.map fun c => (c.charge b).get r).sum +
    (s.permits.map fun p => (p.charge b).get r).sum

/-- What the operation on a ledger relies on. A charge of the source is still within
its limit, unless the source was configured again. -/
def PhaseOk (s : BudgetSystem ι) (c : ChannelLedger ι) : Prop :=
  match c.phase with
  | .sourceAcquired values bytes since =>
    since ≤ (s.budgets (.source c.source)).configured ∧
      (since = (s.budgets (.source c.source)).configured →
        ∀ r, (Usage.buffered values bytes).get r ≠ 0 →
          (s.budgets (.source c.source)).used.get r ≤ (s.budgets (.source c.source)).limit.get r)
  | .sourceReleased bytes => bytes ≤ c.ledger.bytes
  | _ => True

/-- **The invariant of the budgets.** -/
structure Inv (s : BudgetSystem ι) : Prop where
  conserved : ∀ b r, (s.budgets b).used.get r = s.held b r
  phases    : ∀ (k : Nat) c, s.channels[k]? = some c → s.PhaseOk c
  sound     : s.underflow = false

/-- Nothing is in use at the start. -/
theorem new_inv (limits : BudgetId ι → Usage) : (new limits).Inv where
  conserved b r := by cases r <;> rfl
  phases k c hc := by simp [new] at hc
  sound := rfl

-- ---- Moves of one budget.

/-- Where no limit is set, a field within its limit stays there. -/
structure Steady (budget budget' : ChannelBudget) : Prop where
  configured : budget.configured ≤ budget'.configured
  within     : budget'.configured = budget.configured → ∀ r,
    budget.used.get r ≤ budget.limit.get r → budget'.used.get r ≤ budget'.limit.get r

/-- Nothing changes. -/
theorem Steady.refl (budget : ChannelBudget) : Steady budget budget :=
  ⟨Nat.le_refl _, fun _ _ h => h⟩

variable {budget budget' : ChannelBudget} {amount : Usage} {c : ChannelLedger ι} {b : BudgetId ι}
  {k bytes values : Nat} {x : Permit ι} {action : Action ι}

/-- An acquisition sets no limit. -/
theorem Steady.of_acquired (h : Acquired budget amount budget') : Steady budget budget' where
  configured := Nat.le_of_eq h.configured.symm
  within _ r hle := by
    by_cases hzero : amount.get r = 0
    · rw [h.used, hzero, h.limit]
      exact hle
    · exact h.bounded r hzero

/-- Nor does a release. -/
theorem Steady.of_released (h : Released budget amount budget') : Steady budget budget' where
  configured := Nat.le_of_eq h.configured.symm
  within _ r hle := by
    have hused := h.used r
    rw [h.limit]
    omega

omit [DecidableEq ι] in
/-- A running acquisition only minds the limits. -/
theorem PhaseOk.of_steady (h : s.PhaseOk c) (hsteady : ∀ b, Steady (s.budgets b) (s'.budgets b)) :
    s'.PhaseOk c := by
  unfold PhaseOk at h ⊢
  have hsource := hsteady (.source c.source)
  split at h
  next values bytes since _ =>
    refine ⟨Nat.le_trans h.1 hsource.configured, fun hsince r hne => ?_⟩
    have hsame : (s'.budgets (.source c.source)).configured =
        (s.budgets (.source c.source)).configured := by
      have hle := hsource.configured
      omega
    exact hsource.within hsame r (h.2 (hsince.trans hsame) r hne)
  next => exact h
  next => exact trivial

theorem setBudget_self (s : BudgetSystem ι) (b : BudgetId ι) (budget : ChannelBudget) :
    (s.setBudget b budget).budgets b = budget := update_self ..

theorem setBudget_ne (s : BudgetSystem ι) {b' : BudgetId ι} (budget : ChannelBudget) (h : b' ≠ b) :
    (s.setBudget b budget).budgets b' = s.budgets b' := update_of_ne h ..

theorem forall_setBudget {P : BudgetId ι → ChannelBudget → Prop} (hself : P b budget)
    (hother : ∀ b', b' ≠ b → P b' (s.budgets b')) :
    ∀ b', P b' ((s.setBudget b budget).budgets b') := by
  intro b'
  by_cases h : b' = b
  · subst h
    rwa [setBudget_self]
  · rw [setBudget_ne s budget h]
    exact hother b' h

theorem steady_setBudget (h : Steady (s.budgets b) budget) (b' : BudgetId ι) :
    Steady (s.budgets b') ((s.setBudget b budget).budgets b') :=
  forall_setBudget (P := fun b' budget => Steady (s.budgets b') budget) h
    (fun _ _ => .refl _) b'

-- ---- One holder moves.

/-- **One ledger moves**, and the budgets move with it. -/
theorem Inv.of_channel (hinv : s.Inv) {c' : ChannelLedger ι} (hc : s.channels[k]? = some c)
    (hchannels : s'.channels = s.channels.set k c') (hpermits : s'.permits = s.permits)
    (hsound : s'.underflow = s.underflow) (hsteady : ∀ b, Steady (s.budgets b) (s'.budgets b))
    (hbalance : ∀ b r, (s'.budgets b).used.get r + (c.charge b).get r =
      (s.budgets b).used.get r + (c'.charge b).get r) (hok : s'.PhaseOk c') : s'.Inv := by
  refine ⟨fun b r => ?_, fun j d hd => ?_, hsound.trans hinv.sound⟩
  · have hsum := sum_map_set_add (fun c => (c.charge b).get r) c' hc
    have hold := hinv.conserved b r
    have hbal := hbalance b r
    simp only [held, hchannels, hpermits] at hold ⊢
    omega
  · rw [hchannels] at hd
    rcases getElem?_set_cases hc hd with ⟨-, rfl⟩ | ⟨-, hd⟩
    · exact hok
    · exact (hinv.phases j d hd).of_steady hsteady

variable {p : Nat}

/-- **One permit moves**, and the budgets move with it. -/
theorem Inv.of_permit (hinv : s.Inv) {x' : Permit ι} (hx : s.permits[p]? = some x)
    (hpermits : s'.permits = s.permits.set p x') (hchannels : s'.channels = s.channels)
    (hsound : s'.underflow = s.underflow) (hsteady : ∀ b, Steady (s.budgets b) (s'.budgets b))
    (hbalance : ∀ b r, (s'.budgets b).used.get r + (x.charge b).get r =
      (s.budgets b).used.get r + (x'.charge b).get r) : s'.Inv := by
  refine ⟨fun b r => ?_, fun j d hd => ?_, hsound.trans hinv.sound⟩
  · have hsum := sum_map_set_add (fun p => (p.charge b).get r) x' hx
    have hold := hinv.conserved b r
    have hbal := hbalance b r
    simp only [held, hchannels, hpermits] at hold ⊢
    omega
  · rw [hchannels] at hd
    exact (hinv.phases j d hd).of_steady hsteady

/-- A new permit adds its charge. -/
theorem held_addPermit (s : BudgetSystem ι) (x : Permit ι) (b : BudgetId ι) (r : Resource) :
    (s.addPermit x).held b r = s.held b r + (x.charge b).get r := by
  simp only [held, addPermit, map_append, sum_append, map_cons, map_nil, sum_cons, sum_nil]
  omega

/-- The charge of a channel is in use. -/
theorem Inv.channel_le (hinv : s.Inv) (hc : s.channels[k]? = some c) (b : BudgetId ι)
    (r : Resource) : (c.charge b).get r ≤ (s.budgets b).used.get r := by
  rw [hinv.conserved b r, held]
  have hmem := List.mem_map_of_mem (f := fun c => (c.charge b).get r) (mem_of_getElem? hc)
  exact (le_sum_of_mem hmem).trans (Nat.le_add_right _ _)

/-- So is that of a permit. -/
theorem Inv.permit_le (hinv : s.Inv) (hx : s.permits[p]? = some x) (b : BudgetId ι) (r : Resource) :
    (x.charge b).get r ≤ (s.budgets b).used.get r := by
  rw [hinv.conserved b r, held]
  have hmem := List.mem_map_of_mem (f := fun p => (p.charge b).get r) (mem_of_getElem? hx)
  exact (le_sum_of_mem hmem).trans (Nat.le_add_left _ _)

-- ---- Charges and refunds of one ledger.

/-- **The rule for acquisitions** of a channel. -/
theorem Inv.of_charge (hinv : s.Inv) {c' : ChannelLedger ι} (hc : s.channels[k]? = some c)
    (hacquired : Acquired (s.budgets b) amount budget)
    (hself : ∀ r, (c'.charge b).get r = (c.charge b).get r + amount.get r)
    (hother : ∀ b', b' ≠ b → c'.charge b' = c.charge b')
    (hok : ((s.setBudget b budget).setChannel k c').PhaseOk c') :
    ((s.setBudget b budget).setChannel k c').Inv := by
  refine hinv.of_channel hc rfl rfl rfl (steady_setBudget (.of_acquired hacquired)) ?_ hok
  refine forall_setBudget (P := fun b' budget => ∀ r, budget.used.get r + (c.charge b').get r =
    (s.budgets b').used.get r + (c'.charge b').get r) (fun r => ?_) (fun b' hne r => ?_)
  · rw [hacquired.used, hself]
    omega
  · rw [hother b' hne]

/-- **The rule for releases** of a channel: none underflows. -/
theorem Inv.of_refund (hinv : s.Inv) {d : ChannelLedger ι} (hc : s.channels[k]? = some c)
    (values bytes : Nat)
    (hself : ∀ r, (d.charge b).get r + (buffered values bytes).get r = (c.charge b).get r)
    (hother : ∀ b', b' ≠ b → d.charge b' = c.charge b')
    (hok : ∀ budget, ((s.setBudget b budget).setChannel k d).PhaseOk d) :
    ∃ budget, (s.budgets b).releaseBuffered values bytes = some budget ∧
      Released (s.budgets b) (.buffered values bytes) budget ∧
      ((s.setBudget b budget).setChannel k d).Inv := by
  have hfits : ∀ r, (buffered values bytes).get r ≤ (s.budgets b).used.get r := by
    intro r
    have hle := hinv.channel_le hc b r
    have hparts := hself r
    omega
  obtain ⟨budget, hrelease⟩ := releaseBuffered_of_le hfits
  have hreleased := released_of_releaseBuffered hrelease
  refine ⟨budget, hrelease, hreleased, ?_⟩
  refine hinv.of_channel hc rfl rfl rfl (steady_setBudget (.of_released hreleased)) ?_ (hok budget)
  refine forall_setBudget (P := fun b' budget => ∀ r, budget.used.get r + (c.charge b').get r =
    (s.budgets b').used.get r + (d.charge b').get r) (fun r => ?_) (fun b' hne r => ?_)
  · have hused := hreleased.used r
    have hparts := hself r
    omega
  · rw [hother b' hne]

/-- **The rule for a dropped permit.** -/
theorem Inv.of_drop (hinv : s.Inv) {x' : Permit ι} (hx : s.permits[p]? = some x)
    {released : Option ChannelBudget} (hreleased : (∀ r, amount.get r ≤ (s.budgets b).used.get r) →
      ∃ budget, released = some budget ∧ Released (s.budgets b) amount budget)
    (hself : ∀ r, (x'.charge b).get r + amount.get r = (x.charge b).get r)
    (hother : ∀ b', b' ≠ b → x'.charge b' = x.charge b') :
    (s.releasing b released (·.setPermit p x')).Inv := by
  obtain ⟨budget, rfl, hbudget⟩ := hreleased fun r => by
    have hle := hinv.permit_le hx b r
    have hparts := hself r
    omega
  refine hinv.of_permit hx rfl rfl rfl (steady_setBudget (.of_released hbudget)) ?_
  refine forall_setBudget (P := fun b' budget => ∀ r, budget.used.get r + (x.charge b').get r =
    (s.budgets b').used.get r + (x'.charge b').get r) (fun r => ?_) (fun b' hne r => ?_)
  · have hused := hbudget.used r
    have hparts := hself r
    omega
  · rw [hother b' hne]

/-- What a channel charges to its source. -/
theorem charge_source (c : ChannelLedger ι) : c.charge (.source c.source) = c.sourceCharge :=
  if_pos rfl

/-- The phase matters to the source only. -/
theorem charge_phase {phase : LedgerPhase} (h : b ≠ .source c.source) :
    { c with phase := phase }.charge b = c.charge b := by
  cases b with
  | runtime => rfl
  | source i =>
    have hi : i ≠ c.source := fun hi => h (by rw [hi])
    simp [ChannelLedger.charge, hi]

section

variable (hinv : s.Inv) (hc : s.channels[k]? = some c)
include hinv hc

/-- The source's part of an acquisition. -/
theorem Inv.of_acquireSource
    (hidle : c.phase = .idle) (values bytes : Nat) : (s.acquireSource k c values bytes).Inv := by
  unfold acquireSource
  split
  next budget hacquire =>
    have hacquired := acquired_of_acquireBuffered hacquire
    refine hinv.of_charge hc hacquired (fun r => ?_) (fun b' hne => charge_phase hne) ?_
    · rw [charge_source, charge_source c]
      simp only [ChannelLedger.sourceCharge, hidle]
      cases r <;> rfl
    · show _ ∧ _
      simp only [setChannel, setBudget_self]
      exact ⟨Nat.le_refl _, fun _ => hacquired.bounded⟩
  next => exact hinv

/-- A batch is pushed. -/
theorem Inv.of_tryPushBatch
    (hidle : c.phase = .idle) (values bytes : Nat) : (s.tryPushBatch k c values bytes).Inv := by
  unfold tryPushBatch
  split
  · exact hinv
  · split
    · exact hinv.of_acquireSource hc hidle values bytes
    · exact hinv

/-- The one value is replaced. -/
theorem Inv.of_resize (hidle : c.phase = .idle) (bytes : Nat) : (s.resize k c bytes).Inv := by
  unfold resize
  split
  · exact hinv.of_acquireSource hc hidle _ _
  · split
    next hlt =>
      obtain ⟨budget, hrelease, -, hinv'⟩ := hinv.of_refund hc (b := .source c.source)
        (d := { c with phase := .sourceReleased (c.ledger.bytes - bytes) }) 0
        (c.ledger.bytes - bytes) (fun r => by
          rw [charge_source, charge_source c]
          simp only [ChannelLedger.sourceCharge, hidle]
          cases r with
          | bytes => exact Nat.sub_add_cancel (Nat.sub_le _ _)
          | _ => rfl)
        (fun b' hne => charge_phase hne) (fun _ => Nat.sub_le _ _)
      rw [hrelease]
      exact hinv'
    next => exact hinv

/-- The runtime's part, or the way back. -/
theorem Inv.of_proceed (h : s.proceed k c = some s') : s'.Inv := by
  have hok := hinv.phases k c hc
  unfold proceed at h
  split at h
  next => cases h
  next values bytes since hphase =>
    split at h
    next budget hacquire =>
      cases h
      refine hinv.of_charge hc (acquired_of_acquireBuffered hacquire) (fun r => ?_)
        (fun b' hne => ?_) trivial
      · cases r <;> rfl
      · cases b' with
        | runtime => exact absurd rfl hne
        | source i => simp [ChannelLedger.charge, ChannelLedger.sourceCharge, hphase]
    next =>
      cases h
      refine hinv.of_channel hc rfl rfl rfl (fun _ => .refl _) (fun b r => ?_) trivial
      have hcharge : ({ c with phase := .runtimeRefused values bytes }).charge b = c.charge b := by
        cases b with
        | runtime => rfl
        | source i => simp [ChannelLedger.charge, ChannelLedger.sourceCharge, hphase]
      rw [hcharge]
      rfl
  next values bytes hphase =>
    cases h
    obtain ⟨budget, hrelease, -, hinv'⟩ := hinv.of_refund hc (b := .source c.source)
      (d := { c with phase := .idle }) values bytes (fun r => by
        rw [charge_source, charge_source c]
        simp only [ChannelLedger.sourceCharge, hphase]
        cases r <;> rfl)
      (fun b' hne => charge_phase hne) (fun _ => trivial)
    rw [hrelease]
    exact hinv'
  next bytes hphase =>
    cases h
    have hle : bytes ≤ c.ledger.bytes := by
      unfold PhaseOk at hok
      rw [hphase] at hok
      exact hok
    obtain ⟨budget, hrelease, -, hinv'⟩ := hinv.of_refund hc (b := .runtime)
      (d := { c with
        ledger := { c.ledger with bytes := c.ledger.bytes - bytes }
        phase  := .idle }) 0 bytes (fun r => by
        cases r with
        | bytes => exact Nat.sub_add_cancel hle
        | _ => rfl)
      (fun b' hne => by
        cases b' with
        | runtime => exact absurd rfl hne
        | source i => simp [ChannelLedger.charge, ChannelLedger.sourceCharge, hphase])
      (fun _ => trivial)
    rw [hrelease]
    exact hinv'

/-- A part of the ledger becomes a permit. -/
theorem Inv.of_split (hidle : c.phase = .idle)
    (h : s.split k c values bytes = some s') : s'.Inv := by
  unfold split at h
  split at h
  next =>
    cases h
    exact hinv
  next =>
    split at h
    next hle =>
      cases h
      have hparts : ∀ b r,
          (({ c with ledger := ⟨c.ledger.values - values, c.ledger.bytes - bytes⟩ }).charge b).get r +
            ((buffer c.source values bytes).charge b).get r = (c.charge b).get r := by
        intro b r
        have hbuffered : ∀ r, (buffered (c.ledger.values - values)
            (c.ledger.bytes - bytes)).get r + (buffered values bytes).get r =
            (buffered c.ledger.values c.ledger.bytes).get r := by
          intro r
          cases r with
          | values => exact Nat.sub_add_cancel hle.1
          | bytes => exact Nat.sub_add_cancel hle.2
          | _ => rfl
        cases b with
        | runtime => exact hbuffered r
        | source i =>
          by_cases hi : i = c.source
          · subst hi
            simpa [ChannelLedger.charge, ChannelLedger.sourceCharge, hidle, charge]
              using hbuffered r
          · simp only [ChannelLedger.charge, charge, hi, if_false]
            simp [hi]
            cases r <;> rfl
      refine ⟨fun b r => ?_, fun j d hd => ?_, hinv.sound⟩
      · rw [held_addPermit]
        have hsum := sum_map_set_add (fun c => (c.charge b).get r)
          { c with ledger := ⟨c.ledger.values - values, c.ledger.bytes - bytes⟩ } hc
        have hold := hinv.conserved b r
        have hp := hparts b r
        simp only [held, setChannel, addPermit] at hold ⊢
        omega
      · rcases getElem?_set_cases hc hd with ⟨-, rfl⟩ | ⟨-, hd⟩
        · show PhaseOk _ _
          simp [PhaseOk, hidle]
        · exact (hinv.phases j d hd).of_steady fun _ => .refl _
    next => cases h

end

/-- A permit is acquired from one budget. -/
theorem Inv.of_tryPermit (hinv : s.Inv) (hself : x.charge b = amount)
    (hother : ∀ b', b' ≠ b → x.charge b' = .zero) : (s.tryPermit b amount x).Inv := by
  unfold tryPermit
  split
  next budget hacquire =>
    have hacquired := acquired_of_acquire hacquire
    refine ⟨?_, fun j d hd => ?_, hinv.sound⟩
    · refine forall_setBudget (P := fun b' budget => ∀ r, budget.used.get r =
        ((s.setBudget b _).addPermit x).held b' r) (fun r => ?_) (fun b' hne r => ?_)
      · rw [held_addPermit, hacquired.used, hself, hinv.conserved b r]
        rfl
      · rw [held_addPermit, hother b' hne, hinv.conserved b' r]
        cases r <;> rfl
    · exact (hinv.phases j d hd).of_steady (steady_setBudget (.of_acquired hacquired))
  next => exact hinv

/-- A limit is set. -/
theorem Inv.of_configure (hinv : s.Inv) (hused : budget.used = (s.budgets b).used)
    (hconfigured : budget.configured = (s.budgets b).configured + 1) :
    (s.setBudget b budget).Inv := by
  refine ⟨?_, fun j d hd => (hinv.phases j d hd).of_steady (steady_setBudget ?_), hinv.sound⟩
  · refine forall_setBudget (P := fun b' budget => ∀ r, budget.used.get r =
      (s.setBudget b _).held b' r) (fun r => ?_) (fun b' hne r => hinv.conserved b' r)
    rw [hused]
    exact hinv.conserved b r
  · exact ⟨by omega, fun h => by omega⟩

/-- A permit is dropped. -/
theorem Inv.of_dropPermit (hinv : s.Inv) (hx : s.permits[p]? = some x)
    (h : s.dropPermit p x = some s') : s'.Inv := by
  cases x with
  | subscription b | worker b =>
    cases h
    refine hinv.of_drop hx (fun h => (release_of_le h).imp fun _ h => ⟨h, released_of_release h⟩)
      (fun r => ?_) (fun b' hne => ?_)
    · cases r <;> simp [charge, zero, Usage.get]
    · simp [charge, hne]
  | buffer source values bytes =>
    simp only [dropPermit] at h
    split at h
    next =>
      cases h
      refine hinv.of_drop hx (fun h => (releaseBuffered_of_le h).imp fun _ h =>
        ⟨h, released_of_releaseBuffered h⟩) (fun r => ?_) (fun b' hne => ?_)
      · cases r <;> simp [charge, zero, buffered, Usage.get]
      · simp [charge, hne]
    next hempty =>
      cases h
      push Not at hempty
      refine hinv.of_permit hx rfl rfl rfl (fun _ => .refl _) (fun b r => ?_)
      obtain ⟨rfl, rfl⟩ := hempty
      have hzero : ((buffer source 0 0 : Permit ι).charge b) = .zero := by
        simp only [charge]
        split <;> rfl
      rw [hzero]
      rfl
  | returning values bytes =>
    cases h
    refine hinv.of_drop hx (fun h => (releaseBuffered_of_le h).imp fun _ h =>
        ⟨h, released_of_releaseBuffered h⟩) (fun r => ?_) (fun b' hne => ?_)
    · cases r <;> simp [charge, zero, buffered, Usage.get]
    · simp [charge, hne]
  | dropped => cases h

omit [DecidableEq ι] in
/-- The owner starts an operation when none is running. -/
theorem whenIdle_eq_some {op : ChannelLedger ι → Option (BudgetSystem ι)}
    (h : s.whenIdle k op = some s') :
    ∃ c, s.channels[k]? = some c ∧ c.phase = .idle ∧ op c = some s' := by
  unfold whenIdle at h
  split at h
  next c hc =>
    split at h
    next hidle => exact ⟨c, hc, hidle, h⟩
    next => cases h
  next => cases h

/-- **The invariant is kept by every step.** -/
theorem Inv.step (hinv : s.Inv) (h : s.step action = some s') : s'.Inv := by
  unfold BudgetSystem.step at h
  split at h
  next => cases h
  next =>
    cases action with
    | attach source =>
      cases h
      refine ⟨fun b r => ?_, fun j d hd => ?_, hinv.sound⟩
      · have hnew : ((⟨source, ⟨0, 0⟩, .idle⟩ : ChannelLedger ι).charge b).get r = 0 := by
          cases b with
          | runtime => cases r <;> rfl
          | source i =>
            simp only [ChannelLedger.charge]
            split <;> cases r <;> rfl
        have hold := hinv.conserved b r
        simp only [held, map_append, sum_append, map_cons, map_nil,
          sum_cons, sum_nil, hnew] at hold ⊢
        omega
      · rcases getElem?_append_singleton_cases hd with hd | ⟨-, rfl⟩
        · exact (hinv.phases j d hd).of_steady fun _ => .refl _
        · exact trivial
    | push k values bytes =>
      obtain ⟨c, hc, hidle, hop⟩ := whenIdle_eq_some h
      cases hop
      exact hinv.of_tryPushBatch hc hidle values bytes
    | resize k bytes =>
      obtain ⟨c, hc, hidle, hop⟩ := whenIdle_eq_some h
      cases hop
      exact hinv.of_resize hc hidle bytes
    | proceed k =>
      simp only [] at h
      split at h
      next c hc => exact hinv.of_proceed hc h
      next => cases h
    | split k values bytes | takeAll k =>
      obtain ⟨c, hc, hidle, hop⟩ := whenIdle_eq_some h
      exact hinv.of_split hc hidle hop
    | trySubscription b | tryWorker b =>
      cases h
      exact hinv.of_tryPermit (if_pos rfl) fun b' hne => if_neg hne
    | dropPermit p =>
      simp only [] at h
      split at h
      next x hx => exact hinv.of_dropPermit hx h
      next => cases h
    | configureSource b limits | configureWorkerLimit b limit =>
      cases h
      exact hinv.of_configure rfl rfl

-- ---- What an acquisition does.

/-- What a ledger itself charges, without the operation on it. -/
def ledgerCharge (c : ChannelLedger ι) (b : BudgetId ι) : Usage :=
  if b = .runtime ∨ b = .source c.source then .buffered c.ledger.values c.ledger.bytes else .zero

/-- Without an operation a channel charges its ledger. -/
theorem charge_idle (h : c.phase = .idle) (b : BudgetId ι) : c.charge b = ledgerCharge c b := by
  cases b with
  | runtime => rfl
  | source i => simp [ChannelLedger.charge, ledgerCharge, ChannelLedger.sourceCharge, h]

/-- The source refuses without a trace, or is charged. -/
theorem acquireSource_cases (s : BudgetSystem ι) (k : Nat) (c : ChannelLedger ι)
    (values bytes : Nat) :
    s.acquireSource k c values bytes = s ∨
    ∃ budget, Acquired (s.budgets (.source c.source)) (.buffered values bytes) budget ∧
      s.acquireSource k c values bytes = (s.setBudget (.source c.source) budget).setChannel k
        { c with phase := .sourceAcquired values bytes budget.configured } := by
  unfold acquireSource
  split
  next budget h => exact .inr ⟨budget, acquired_of_acquireBuffered h, rfl⟩
  next => exact .inl rfl

/-- A budget that grows in some field is within its limit there. -/
def Grows (budget budget' : ChannelBudget) : Prop :=
  ∀ r, budget.used.get r < budget'.used.get r → budget'.used.get r ≤ budget'.limit.get r

/-- An acquisition ends within the limit. -/
theorem Grows.of_acquired (h : Acquired budget amount budget') : Grows budget budget' := by
  intro r hlt
  refine h.bounded r fun hzero => ?_
  have hused := h.used r
  omega

/-- A release does not grow. -/
theorem Grows.of_released (h : Released budget amount budget') : Grows budget budget' := by
  intro r hlt
  have hused := h.used r
  omega

/-- Nothing changes. -/
theorem Grows.refl (budget : ChannelBudget) : Grows budget budget :=
  fun _ h => absurd h (Nat.lt_irrefl _)

theorem grows_setBudget (h : Grows (s.budgets b) budget) (b' : BudgetId ι) :
    Grows (s.budgets b') ((s.setBudget b budget).budgets b') :=
  forall_setBudget (P := fun b' budget => Grows (s.budgets b') budget) h (fun _ _ => .refl _) b'

/-- A release as a part of a step. -/
theorem grows_releasing {released : Option ChannelBudget} {next : BudgetSystem ι → BudgetSystem ι}
    (hnext : ∀ t, (next t).budgets = t.budgets)
    (hreleased : ∀ budget, released = some budget → Released (s.budgets b) amount budget)
    (b' : BudgetId ι) : Grows (s.budgets b') ((s.releasing b released next).budgets b') := by
  unfold releasing
  split
  next budget =>
    rw [hnext]
    exact grows_setBudget (.of_released (hreleased budget rfl)) b'
  next => exact .refl _

/-- The source's part. -/
theorem grows_acquireSource (k : Nat) (c : ChannelLedger ι) (values bytes : Nat)
    (b : BudgetId ι) : Grows (s.budgets b) ((s.acquireSource k c values bytes).budgets b) := by
  rcases acquireSource_cases s k c values bytes with heq | ⟨budget, hacquired, heq⟩
  · rw [heq]
    exact .refl _
  · rw [heq]
    exact grows_setBudget (.of_acquired hacquired) b

/-- A permit. -/
theorem grows_tryPermit (b : BudgetId ι) (amount : Usage) (x : Permit ι) (b' : BudgetId ι) :
    Grows (s.budgets b') ((s.tryPermit b amount x).budgets b') := by
  unfold tryPermit
  split
  next budget h => exact grows_setBudget (.of_acquired (acquired_of_acquire h)) b'
  next => exact .refl _

omit [DecidableEq ι] in
/-- A split. -/
theorem grows_split (h : s.split k c values bytes = some s') (b : BudgetId ι) :
    Grows (s.budgets b) (s'.budgets b) := by
  unfold split at h
  split at h
  next =>
    cases h
    exact .refl _
  next =>
    split at h
    next =>
      cases h
      exact .refl _
    next => cases h

/-- The runtime's part, or the way back. -/
theorem grows_proceed (h : s.proceed k c = some s') (b : BudgetId ι) :
    Grows (s.budgets b) (s'.budgets b) := by
  unfold proceed at h
  split at h
  next => cases h
  next =>
    split at h
    next budget hacquire =>
      cases h
      exact grows_setBudget (.of_acquired (acquired_of_acquireBuffered hacquire)) b
    next =>
      cases h
      exact .refl _
  next =>
    cases h
    exact grows_releasing (fun _ => by rfl) (fun _ => released_of_releaseBuffered) b
  next =>
    cases h
    exact grows_releasing (fun _ => by rfl) (fun _ => released_of_releaseBuffered) b

/-- A dropped permit. -/
theorem grows_dropPermit (h : s.dropPermit p x = some s') (b : BudgetId ι) :
    Grows (s.budgets b) (s'.budgets b) := by
  cases x with
  | subscription b' | worker b' =>
    cases h
    exact grows_releasing (fun _ => by rfl) (fun _ => released_of_release) b
  | buffer source values bytes =>
    simp only [dropPermit] at h
    split at h
    next =>
      cases h
      exact grows_releasing (fun _ => by rfl) (fun _ => released_of_releaseBuffered) b
    next =>
      cases h
      exact .refl _
  | returning values bytes =>
    cases h
    exact grows_releasing (fun _ => by rfl) (fun _ => released_of_releaseBuffered) b
  | dropped => cases h

/-- **Whatever makes a used amount grow leaves it within the limit.** -/
theorem grows_step (h : s.step action = some s') (b : BudgetId ι) :
    Grows (s.budgets b) (s'.budgets b) := by
  unfold BudgetSystem.step at h
  split at h
  next => cases h
  next =>
    cases action with
    | attach source =>
      cases h
      exact .refl _
    | push k values bytes =>
      obtain ⟨c, -, -, hop⟩ := whenIdle_eq_some h
      cases hop
      unfold tryPushBatch
      split
      · exact .refl _
      · split
        · exact grows_acquireSource k c values bytes b
        · exact .refl _
    | resize k bytes =>
      obtain ⟨c, -, -, hop⟩ := whenIdle_eq_some h
      cases hop
      unfold resize
      split
      · exact grows_acquireSource k c _ _ b
      · split
        · exact grows_releasing (fun _ => by rfl) (fun _ => released_of_releaseBuffered) b
        · exact .refl _
    | proceed k =>
      simp only [] at h
      split at h
      next c hc => exact grows_proceed h b
      next => cases h
    | split k values bytes | takeAll k =>
      obtain ⟨c, -, -, hop⟩ := whenIdle_eq_some h
      exact grows_split hop b
    | trySubscription b' | tryWorker b' =>
      cases h
      exact grows_tryPermit b' _ _ b
    | dropPermit p =>
      simp only [] at h
      split at h
      next x hx => exact grows_dropPermit h b
      next => cases h
    | configureSource b' limits | configureWorkerLimit b' limit =>
      cases h
      refine grows_setBudget (fun r hlt => ?_) b
      exact absurd hlt (Nat.lt_irrefl _)

/-- A sound system lets the owner proceed. -/
theorem step_proceed (hsound : s.underflow = false) (hc : s.channels[k]? = some c) :
    step s (.proceed k) = s.proceed k c := by
  simp [step, hsound, hc]

/-- **The second half of an acquisition.** It charges the runtime and installs the
new counts, with both budgets within their limits, or only remembers the refusal. -/
theorem Inv.proceed_acquired (hinv : s.Inv) (hc : s.channels[k]? = some c) {since : Nat}
    (hphase : c.phase = .sourceAcquired values bytes since) (h : s.step (.proceed k) = some s') :
    (s'.channels = s.channels.set k
        { c with
          ledger := ⟨c.ledger.values + values, c.ledger.bytes + bytes⟩
          phase  := .idle } ∧
      ∀ r, (buffered values bytes).get r ≠ 0 →
        (s'.budgets .runtime).used.get r ≤ (s'.budgets .runtime).limit.get r ∧
        ((s'.budgets (.source c.source)).configured = since →
          (s'.budgets (.source c.source)).used.get r ≤
            (s'.budgets (.source c.source)).limit.get r)) ∨
    s' = s.setChannel k { c with phase := .runtimeRefused values bytes } := by
  rw [step_proceed hinv.sound hc] at h
  have hok := hinv.phases k c hc
  simp only [proceed, hphase] at h
  split at h
  next budget hacquire =>
    cases h
    refine .inl ⟨rfl, fun r hne => ⟨?_, fun hsince => ?_⟩⟩
    · simp only [setChannel, setBudget_self]
      exact (acquired_of_acquireBuffered hacquire).bounded r hne
    · have hother : (s.setBudget .runtime budget).budgets (.source c.source) =
          s.budgets (.source c.source) := setBudget_ne s budget nofun
      simp only [setChannel, hother] at hsince ⊢
      unfold PhaseOk at hok
      rw [hphase] at hok
      exact hok.2 hsince.symm r hne
  next =>
    cases h
    exact .inr rfl

/-- **The rollback** takes back what the first half had added, and nothing else. -/
theorem Inv.proceed_refused (hinv : s.Inv) (hc : s.channels[k]? = some c)
    (hphase : c.phase = .runtimeRefused values bytes) (h : s.step (.proceed k) = some s') :
    ∃ budget, Released (s.budgets (.source c.source)) (.buffered values bytes) budget ∧
      s' = (s.setBudget (.source c.source) budget).setChannel k { c with phase := .idle } := by
  have hsound' := (hinv.step h).sound
  rw [step_proceed hinv.sound hc] at h
  simp only [proceed, hphase] at h
  cases h
  unfold releasing at hsound' ⊢
  split at hsound'
  next budget hrelease => exact ⟨budget, released_of_releaseBuffered hrelease, rfl⟩
  next => cases hsound'

/-- A budget is its limits and its use. -/
theorem budget_eq_of_get (hlimit : budget'.limit = budget.limit)
    (hconfigured : budget'.configured = budget.configured)
    (hused : ∀ r, budget'.used.get r = budget.used.get r) : budget' = budget := by
  have hs : budget'.used.subscriptions = budget.used.subscriptions := hused .subscriptions
  have hv : budget'.used.values = budget.used.values := hused .values
  have hb : budget'.used.bytes = budget.used.bytes := hused .bytes
  have hw : budget'.used.workers = budget.used.workers := hused .workers
  obtain ⟨limit, ⟨_, _, _, _⟩, configured⟩ := budget
  obtain ⟨limit', ⟨_, _, _, _⟩, configured'⟩ := budget'
  simp_all

/-- A push or a growth that is refused at the source leaves everything as it was;
one that is not, charges the source. -/
theorem Inv.acquire_cases (hinv : s.Inv) (hc : s.channels[k]? = some c)
    (haction : (∃ values bytes, action = .push k values bytes) ∨
      ∃ bytes, c.ledger.bytes < bytes ∧ action = .resize k bytes) (h : s.step action = some s') :
    c.phase = .idle ∧ (s' = s ∨
      ∃ values bytes budget, Acquired (s.budgets (.source c.source)) (.buffered values bytes) budget ∧
        s' = (s.setBudget (.source c.source) budget).setChannel k
          { c with phase := .sourceAcquired values bytes budget.configured }) := by
  have hwhen : ∀ {op}, s.whenIdle k op = some s' → c.phase = .idle ∧ op c = some s' := by
    intro op hop
    obtain ⟨d, hd, hidle, hop⟩ := whenIdle_eq_some hop
    rw [hc] at hd
    cases hd
    exact ⟨hidle, hop⟩
  rcases haction with ⟨values, bytes, rfl⟩ | ⟨bytes, hlt, rfl⟩
  · simp only [BudgetSystem.step, hinv.sound, Bool.false_eq_true, if_false] at h
    obtain ⟨hidle, hop⟩ := hwhen h
    refine ⟨hidle, ?_⟩
    cases hop
    unfold tryPushBatch
    split
    · exact .inl rfl
    · split
      · exact (acquireSource_cases s k c values bytes).imp_right fun h => ⟨values, bytes, h⟩
      · exact .inl rfl
  · simp only [BudgetSystem.step, hinv.sound, Bool.false_eq_true, if_false] at h
    obtain ⟨hidle, hop⟩ := hwhen h
    refine ⟨hidle, ?_⟩
    cases hop
    rw [resize, if_pos hlt]
    exact (acquireSource_cases s k c _ _).imp_right fun h => ⟨_, _, h⟩

/-- **A refused acquisition that nobody interrupts restores the state it found.** -/
theorem Inv.refused_restores (hinv : s.Inv) (hc : s.channels[k]? = some c)
    (haction : (∃ values bytes, action = .push k values bytes) ∨
      ∃ bytes, c.ledger.bytes < bytes ∧ action = .resize k bytes) {s₁ s₂ s₃ : BudgetSystem ι}
    (h₁ : s.step action = some s₁) (h₂ : s₁.step (.proceed k) = some s₂) {c₂ : ChannelLedger ι}
    (hc₂ : s₂.channels[k]? = some c₂) (hphase : c₂.phase = .runtimeRefused values bytes)
    (h₃ : s₂.step (.proceed k) = some s₃) : s₃ = s := by
  have hinv₁ := hinv.step h₁
  have hinv₂ := hinv₁.step h₂
  have hlt : k < s.channels.length := (List.getElem_of_getElem? hc).1
  obtain ⟨hidle, rfl | ⟨v, n, budget, hacquired, rfl⟩⟩ := hinv.acquire_cases hc haction h₁
  · -- nothing was begun, so there is nothing to go on with
    rw [step_proceed hinv.sound hc, proceed, hidle] at h₂
    cases h₂
  · have hc₁ : ((s.setBudget (.source c.source) budget).setChannel k
        { c with phase := .sourceAcquired v n budget.configured }).channels[k]? =
        some { c with phase := .sourceAcquired v n budget.configured } :=
      getElem?_set_self hlt
    rcases hinv₁.proceed_acquired hc₁ rfl h₂ with ⟨hchannels, -⟩ | rfl
    · rw [hchannels, getElem?_set_self (by simpa [setChannel, setBudget] using hlt)] at hc₂
      cases hc₂
      cases hphase
    · rw [setChannel, getElem?_set_self (by simpa [setChannel, setBudget] using hlt)] at hc₂
      cases hc₂
      cases hphase
      obtain ⟨budget', hreleased, rfl⟩ := hinv₂.proceed_refused
        (getElem?_set_self (by simpa [setChannel, setBudget] using hlt)) rfl h₃
      have hbudget : budget' = s.budgets (.source c.source) := by
        simp only [setChannel, setBudget_self] at hreleased
        refine budget_eq_of_get (hreleased.limit.trans hacquired.limit)
          (hreleased.configured.trans hacquired.configured) fun r => ?_
        have hadd := hacquired.used r
        have hsub := hreleased.used r
        omega
      have hself : { c with phase := .idle } = c := by
        rw [← hidle]
      have hbudgets : update (update s.budgets (.source c.source) budget)
          (.source c.source) (s.budgets (.source c.source)) = s.budgets := by
        rw [update_idem, update_eq_self]
      have hchannels : s.channels.set k c = s.channels := by
        obtain ⟨hk, hget⟩ := List.getElem_of_getElem? hc
        rw [← hget]
        exact set_getElem_self hk
      subst hbudget
      simp only [setChannel, setBudget, set_set, hself, hbudgets, hchannels]

-- ---- The guarantees.

/-- **Conservation of the channel budgets.** In every state that any interleaving of
reservations, growths, shrinkings, splits, drops of permits and settings of limits
reaches, for any number of sources and channels:

* what a budget has in use is what the ledgers, the operations on them and the
  permits hold of it; where no operation is running, what the ledgers and the
  permits hold;
* no release was larger than what was used;
* a step that makes a used amount grow leaves it within that budget's limit, and an
  acquisition that succeeds leaves both budgets within their limits in every field
  it asked for, unless the source's limits were set while it ran;
* an acquisition refused by the source changes nothing; one refused by the runtime
  changes nothing but the operation's phase and then takes back exactly what it had
  added to the source's budget, with the ledger as it was; and so, when nothing
  happens in between, it restores the very state it found. -/
theorem budget_conservation {limits : BudgetId ι → Usage} (h : Reachable step (new limits) s) :
    (∀ b r, (s.budgets b).used.get r = s.held b r) ∧
    ((∀ c ∈ s.channels, c.phase = .idle) → ∀ b r, (s.budgets b).used.get r =
      (s.channels.map fun c => (ledgerCharge c b).get r).sum +
        (s.permits.map fun p => (p.charge b).get r).sum) ∧
    s.underflow = false ∧
    (∀ action s', step s action = some s' → ∀ b r,
      (s.budgets b).used.get r < (s'.budgets b).used.get r →
        (s'.budgets b).used.get r ≤ (s'.budgets b).limit.get r) ∧
    (∀ (k : Nat) c, s.channels[k]? = some c →
      (∀ values bytes since s', c.phase = .sourceAcquired values bytes since →
        step s (.proceed k) = some s' →
        (s'.channels = s.channels.set k
            { c with
              ledger := ⟨c.ledger.values + values, c.ledger.bytes + bytes⟩
              phase  := .idle } ∧
          ∀ r, (Usage.buffered values bytes).get r ≠ 0 →
            (s'.budgets .runtime).used.get r ≤ (s'.budgets .runtime).limit.get r ∧
            ((s'.budgets (.source c.source)).configured = since →
              (s'.budgets (.source c.source)).used.get r ≤
                (s'.budgets (.source c.source)).limit.get r)) ∨
        s' = s.setChannel k { c with phase := .runtimeRefused values bytes }) ∧
      (∀ values bytes s', c.phase = .runtimeRefused values bytes → step s (.proceed k) = some s' →
        ∃ budget, Released (s.budgets (.source c.source)) (.buffered values bytes) budget ∧
          s' = (s.setBudget (.source c.source) budget).setChannel k { c with phase := .idle }) ∧
      (∀ action, (∃ values bytes, action = .push k values bytes) ∨
          (∃ bytes, c.ledger.bytes < bytes ∧ action = .resize k bytes) →
        ∀ s₁, step s action = some s₁ →
        (s₁ = s ∨ ∃ values bytes budget,
          Acquired (s.budgets (.source c.source)) (.buffered values bytes) budget ∧
          s₁ = (s.setBudget (.source c.source) budget).setChannel k
            { c with phase := .sourceAcquired values bytes budget.configured }) ∧
        ∀ s₂ s₃ c₂ values bytes, step s₁ (.proceed k) = some s₂ → s₂.channels[k]? = some c₂ →
          c₂.phase = .runtimeRefused values bytes → step s₂ (.proceed k) = some s₃ → s₃ = s)) := by
  have hinv : s.Inv := Reachable.invariant (fun _ _ _ hi hs => hi.step hs) (new_inv limits) h
  refine ⟨hinv.conserved, fun hidle b r => ?_, hinv.sound,
    fun action s' hstep b r => grows_step hstep b r, fun k c hc => ⟨?_, ?_, ?_⟩⟩
  · rw [hinv.conserved b r, held]
    congr 2
    exact map_congr_left fun c hc => by rw [charge_idle (hidle c hc)]
  · exact fun values bytes since s' hphase hstep => hinv.proceed_acquired hc hphase hstep
  · exact fun values bytes s' hphase hstep => hinv.proceed_refused hc hphase hstep
  · intro action haction s₁ h₁
    refine ⟨(hinv.acquire_cases hc haction h₁).2, ?_⟩
    intro s₂ s₃ c₂ values bytes h₂ hc₂ hphase h₃
    exact hinv.refused_restores hc haction h₁ h₂ hc₂ hphase h₃

/-- One source with room for two values in a runtime with room for one. The first
value is admitted; the second has the source's part and is refused by the runtime. -/
def refusedRun : List (Action Unit) :=
  [.attach (), .push 0 1 40, .proceed 0, .push 0 1 24, .proceed 0]

def refusedLimits : BudgetId Unit → Usage
  | .runtime => ⟨usizeMax, 1, 100, 1⟩
  | .source _ => ⟨1, 2, 100, usizeMax⟩

/-- The refused acquisition gives the source its part back. -/
theorem budget_conservation_refusedRun :
    ∃ s s' : BudgetSystem Unit, run step (new refusedLimits) refusedRun = some s ∧
      (s.budgets (.source ())).used.values = 2 ∧ s.held (.source ()) .values = 2 ∧
      s.underflow = false ∧ step s (.proceed 0) = some s' ∧
      (s'.budgets (.source ())).used.values = 1 ∧
      s'.channels = [⟨(), ⟨1, 40⟩, .idle⟩] := by
  have hrun : ((run step (new refusedLimits) refusedRun).bind fun s =>
      (step s (.proceed 0)).map fun s' =>
        (s.channels, (s.budgets (.source ())).used.values, s'.channels)) =
      some ([⟨(), ⟨1, 40⟩, .runtimeRefused 1 24⟩], 2, [⟨(), ⟨1, 40⟩, .idle⟩]) := by
    decide +kernel
  obtain ⟨s, hs, hval⟩ := Option.bind_eq_some_iff.mp hrun
  obtain ⟨s', hs', hval⟩ := Option.map_eq_some_iff.mp hval
  simp only [Prod.mk.injEq] at hval
  obtain ⟨hchannels, hused, hchannels'⟩ := hval
  obtain ⟨hconserved, -, hsound, -, hops⟩ := budget_conservation ⟨refusedRun, hs⟩
  have hheld := hconserved (.source ()) .values
  obtain ⟨budget, hreleased, rfl⟩ :=
    (hops 0 ⟨(), ⟨1, 40⟩, .runtimeRefused 1 24⟩ (by rw [hchannels]; rfl)).2.1 1 24 s' rfl hs'
  refine ⟨s, _, hs, hused, hheld.symm.trans hused, hsound, hs', ?_, hchannels'⟩
  have hvalues : budget.used.values + 1 = (s.budgets (.source ())).used.values :=
    hreleased.used .values
  rw [hused] at hvalues
  simp only [setChannel, setBudget_self]
  omega

/-- The source has admitted two values when its limit is lowered to one; the runtime admits them
afterwards. -/
def loweredRun : List (Action Unit) :=
  [.attach (), .push 0 2 40, .configureSource (.source ()) ⟨1, 1, 100⟩]

/-- The acquisition succeeds, and leaves more in use than the source's limit. -/
theorem lowered_limit_overshoots : ∃ s s' : BudgetSystem Unit,
      run step (new fun _ => ⟨usizeMax, 2, 100, 1⟩) loweredRun = some s ∧
      s.channels = [⟨(), ⟨0, 0⟩, .sourceAcquired 2 40 0⟩] ∧ step s (.proceed 0) = some s' ∧
      s'.channels = [⟨(), ⟨2, 40⟩, .idle⟩] ∧
      (s'.budgets (.source ())).limit.values < (s'.budgets (.source ())).used.values := by
  have hrun : ((run step (new fun _ => ⟨usizeMax, 2, 100, 1⟩) loweredRun).bind fun s =>
      (step s (.proceed 0)).map fun s' => (s.channels, s'.channels,
        (s'.budgets (.source ())).limit.values, (s'.budgets (.source ())).used.values)) =
      some ([⟨(), ⟨0, 0⟩, .sourceAcquired 2 40 0⟩], [⟨(), ⟨2, 40⟩, .idle⟩], 1, 2) := by
    decide +kernel
  obtain ⟨s, hs, hval⟩ := Option.bind_eq_some_iff.mp hrun
  obtain ⟨s', hs', hval⟩ := Option.map_eq_some_iff.mp hval
  simp only [Prod.mk.injEq] at hval
  obtain ⟨hchannels, hchannels', hlimit, hused⟩ := hval
  exact ⟨s, s', hs, hchannels, hs', hchannels', by rw [hlimit, hused]; exact Nat.one_lt_two⟩

end BudgetSystem

end Xlfn.Subscription
