import Mathlib.Algebra.Order.BigOperators.Group.List
import Mathlib.Algebra.Order.Group.Nat
import Xlfn.ReturnAbi.Numeric

/-!
# Xlfn — the ledger of numeric returns

Every unit of the four process totals is held by one task or one slot, every unit of a
module's totals by one of its slots, and what a step adds to or takes from a total it adds
to or takes from its own holdings.

* `Task.held`, `Slot.held`, `Slot.moduleHeld` — the holdings.
-/

namespace Xlfn.ReturnAbi

open Xlfn.Lib Function List Option Slot PreparePc NumericSystem

-- ---- Holdings.

/-- Holdings of the four totals. -/
def holds (reservedBytes reservedBuffers publishedBytes publishedBuffers : Nat) : Counter → Nat
  | .reservedBytes => reservedBytes
  | .reservedBuffers => reservedBuffers
  | .publishedBytes => publishedBytes
  | .publishedBuffers => publishedBuffers

def Task.held : Task → Counter → Nat
  | .reserving bytes (.buffers _) => holds bytes 0 0 0
  | .reserving bytes (.peak _) | .reserving bytes .allocate => holds bytes 1 0 0
  | .output bytes | .freeing bytes | .leaked bytes | .releasing bytes true => holds bytes 1 0 0
  | .releasing bytes false => holds bytes 0 0 0
  | _ => holds 0 0 0 0

def blockBytesSum (blocks : List Block) : Nat := (blocks.map Block.bytes).sum

/-- Published blocks hold all four totals. -/
def blocksHeld (blocks : List Block) : Counter → Nat :=
  holds (blockBytesSum blocks) blocks.length (blockBytesSum blocks) blocks.length

def PublishPc.held (bytes : Nat) : PublishPc → Counter → Nat
  | .load | .exchange _ | .modulePeak _ | .publishedBytes => holds bytes 1 0 0
  | .publishedBuffers _ => holds bytes 1 bytes 0
  | .publishedPeak _ | .link => holds bytes 1 bytes 1
  | .moduleBuffers => holds 0 0 0 0

def DischargePc.held (bytes : Nat) : DischargePc → Counter → Nat
  | .publishedBuffers => holds bytes 1 bytes 1
  | .publishedBytes => holds bytes 1 bytes 0
  | .reservedBuffers => holds bytes 1 0 0
  | .reservedBytes => holds bytes 0 0 0
  | .moduleBytes | .moduleBuffers => holds 0 0 0 0

def SlotPc.held : SlotPc → Counter → Nat
  | .idle => holds 0 0 0 0
  | .publishing bytes _ pc => pc.held bytes
  | .reclaiming rest => blocksHeld rest
  | .discharging block rest pc => fun c => blocksHeld rest c + pc.held block.bytes c

/-- The holdings of a slot: its epoch, what the heap has refused, and the call on it. -/
def Slot.held (slot : Slot) (c : Counter) : Nat :=
  blocksHeld slot.state.epoch c + blocksHeld slot.abandoned c + slot.pc.held c

/-- The two totals of a module. -/
inductive ModuleTotal where
  | bytes
  | buffers

def ModuleState.total (module : ModuleState) : ModuleTotal → Nat
  | .bytes => module.bytes
  | .buffers => module.buffers

def moduleHolds (bytes buffers : Nat) : ModuleTotal → Nat
  | .bytes => bytes
  | .buffers => buffers

def moduleBlocksHeld (blocks : List Block) : ModuleTotal → Nat :=
  moduleHolds (blockBytesSum blocks) blocks.length

def PublishPc.moduleHeld (bytes : Nat) : PublishPc → ModuleTotal → Nat
  | .load | .exchange _ | .moduleBuffers => moduleHolds 0 0
  | .modulePeak _ | .publishedBytes | .publishedBuffers _ | .publishedPeak _ | .link =>
    moduleHolds bytes 0

def DischargePc.moduleHeld (bytes : Nat) : DischargePc → ModuleTotal → Nat
  | .moduleBuffers => moduleHolds 0 1
  | _ => moduleHolds bytes 1

def SlotPc.moduleHeld : SlotPc → ModuleTotal → Nat
  | .idle => moduleHolds 0 0
  | .publishing bytes _ pc => pc.moduleHeld bytes
  | .reclaiming rest => moduleBlocksHeld rest
  | .discharging block rest pc => fun t => moduleBlocksHeld rest t + pc.moduleHeld block.bytes t

/-- The epoch as the module counts it: `publish` links a block before it counts the buffer. -/
def Slot.epochHeld (slot : Slot) : ModuleTotal → Nat
  | .bytes => blockBytesSum slot.state.epoch
  | .buffers =>
    match slot.pc with
    | .publishing _ _ .moduleBuffers => slot.state.epoch.tail.length
    | _ => slot.state.epoch.length

def Slot.moduleHeld (slot : Slot) (t : ModuleTotal) : Nat :=
  slot.epochHeld t + moduleBlocksHeld slot.abandoned t + slot.pc.moduleHeld t

-- ---- What each party relies on.

/-- The header is written. -/
def ProcessState.Attached (process : ProcessState) : Prop :=
  process.schema = schemaWord ∧ process.limitBytes = maxProcessNumericReturnBytes

/-- The header is this protocol's, as far as it is written, and the limits hold. -/
structure ProcessState.Ok (process : ProcessState) : Prop where
  schema        : process.schema = 0 ∨ process.schema = schemaWord
  limit         : process.limitBytes = 0 ∨ process.limitBytes = maxProcessNumericReturnBytes
  reserved      : process.counter .reservedBytes ≤ maxProcessNumericReturnBytes
  peakReserved  : process.peakReservedBytes ≤ maxProcessNumericReturnBytes
  peakPublished : process.peakPublishedBytes ≤ maxProcessNumericReturnBytes

/-- A step never takes back a word of the header. -/
structure ProcessState.Keeps (process process' : ProcessState) : Prop where
  schema : process.schema = schemaWord → process'.schema = schemaWord
  limit  : process.limitBytes = maxProcessNumericReturnBytes →
    process'.limitBytes = maxProcessNumericReturnBytes

variable {process process' : ProcessState} {p : Platform} {task : Task} {slot : Slot}
  {held held' : Counter → Nat} {module : ModuleState}

theorem ProcessState.Keeps.of_same (hschema : process'.schema = process.schema)
    (hlimit : process'.limitBytes = process.limitBytes) : process.Keeps process' :=
  ⟨fun h => hschema.trans h, fun h => hlimit.trans h⟩

/-- An attached header stays attached. -/
theorem ProcessState.Attached.keeps (h : process.Attached) (hkeeps : process.Keeps process') :
    process'.Attached :=
  ⟨hkeeps.schema h.1, hkeeps.limit h.2⟩

/-- The size of a block the checks of `NumericAllocation::new` let through. -/
def Fits (p : Platform) (bytes : Nat) : Prop :=
  0 < bytes ∧ bytes ≤ p.fpOffset + maxNumericReturnBytes

def Purpose.Ok (p : Platform) : Purpose → Prop
  | .reserve bytes => Fits p bytes
  | .metrics => True

def PreparePc.Ok (process : ProcessState) : PreparePc → Prop
  | .schema => True
  | .limit => process.schema = schemaWord
  | .check _ _ => process.Attached

def ReservePc.Ok : ReservePc → Prop
  | .load | .allocate => True
  | .exchange current => current ≤ maxProcessNumericReturnBytes
  | .buffers next | .peak next => next ≤ maxProcessNumericReturnBytes

/-- What a task relies on. No task ends in the protocol error. -/
def Task.Ok (p : Platform) (process : ProcessState) : Task → Prop
  | .preparing purpose pc => purpose.Ok p ∧ pc.Ok process
  | .reserving bytes pc => Fits p bytes ∧ pc.Ok
  | .output bytes | .freeing bytes | .leaked bytes | .releasing bytes _ => Fits p bytes
  | .rejected error => error ≠ .protocol
  | .finished => True

/-- What a task knows of the header survives every step. -/
theorem Task.Ok.keeps (h : task.Ok p process) (hkeeps : process.Keeps process') :
    task.Ok p process' := by
  cases task with
  | preparing purpose pc =>
    refine ⟨h.1, ?_⟩
    cases pc with
    | schema => trivial
    | limit => exact hkeeps.schema h.2
    | check second field => exact ProcessState.Attached.keeps h.2 hkeeps
  | _ => exact h

def PublishPc.Ok : PublishPc → Prop
  | .modulePeak next => next ≤ maxModuleNumericReturnBytes
  | .publishedBuffers next | .publishedPeak next => next ≤ maxProcessNumericReturnBytes
  | _ => True

/-- The call of a slot: it was admitted by the thread's limit, and runs under a guard. -/
def Slot.CallOk (p : Platform) (slot : Slot) : Prop :=
  match slot.pc with
  | .idle => True
  | .publishing bytes threadBytes pc =>
    Fits p bytes ∧ pc.Ok ∧ 0 < slot.state.depth ∧
      match pc with
      | .moduleBuffers => slot.state.epoch ≠ []
      | _ => threadBytes = slot.state.bytes + bytes ∧ threadBytes ≤ maxThreadNumericReturnBytes
  | .reclaiming rest => slot.state.depth = 1 ∧ ∀ b ∈ rest, Fits p b.bytes
  | .discharging block rest _ =>
    slot.state.depth = 1 ∧ Fits p block.bytes ∧ ∀ b ∈ rest, Fits p b.bytes

/-- What a slot relies on. -/
structure Slot.Ok (p : Platform) (slot : Slot) : Prop where
  bytes     : slot.state.bytes = blockBytesSum slot.state.epoch
  buffers   : slot.state.buffers = slot.state.epoch.length
  limit     : slot.state.bytes ≤ maxThreadNumericReturnBytes
  epoch     : ∀ b ∈ slot.state.epoch, Fits p b.bytes
  abandoned : ∀ b ∈ slot.abandoned, Fits p b.bytes
  call      : slot.CallOk p

-- ---- Buffers and published bytes are covered by reserved bytes.

/-- Every block has bytes, so there are no more blocks than bytes. -/
theorem length_le_blockBytesSum {blocks : List Block} (h : ∀ b ∈ blocks, Fits p b.bytes) :
    blocks.length ≤ blockBytesSum blocks := by
  induction blocks with
  | nil => exact Nat.le_refl _
  | cons b blocks ih =>
    have hb := (h b mem_cons_self).1
    have hrest := ih fun x hx => h x (mem_cons_of_mem _ hx)
    simp only [blockBytesSum, map_cons, sum_cons, length_cons] at hrest ⊢
    omega

/-- Holdings in which the reserved bytes cover the other three totals. -/
def Covered (held : Counter → Nat) : Prop := ∀ c, held c ≤ held .reservedBytes

theorem covered_holds {rb rn pb pn : Nat} (hrn : rn ≤ rb) (hpb : pb ≤ rb) (hpn : pn ≤ rb) :
    Covered (holds rb rn pb pn) := by
  intro c
  cases c with
  | reservedBytes => exact Nat.le_refl _
  | reservedBuffers => exact hrn
  | publishedBytes => exact hpb
  | publishedBuffers => exact hpn

/-- The blocks are covered by their bytes. -/
theorem covered_blocks {blocks : List Block} (h : ∀ b ∈ blocks, Fits p b.bytes) :
    Covered (blocksHeld blocks) :=
  covered_holds (length_le_blockBytesSum h) (Nat.le_refl _) (length_le_blockBytesSum h)

/-- What is held together is covered. -/
theorem Covered.add {f g : Counter → Nat} (hf : Covered f) (hg : Covered g) :
    Covered fun c => f c + g c := fun c => Nat.add_le_add (hf c) (hg c)

/-- A task reserves at least what it publishes. -/
theorem Task.Ok.covered (h : task.Ok p process) : Covered task.held := by
  have hzero : Covered (holds 0 0 0 0) :=
    covered_holds (Nat.le_refl _) (Nat.le_refl _) (Nat.le_refl _)
  have hone : ∀ {bytes}, Fits p bytes → Covered (holds bytes 1 0 0) := fun h =>
    covered_holds h.1 (Nat.zero_le _) (Nat.zero_le _)
  have hbytes : ∀ {bytes}, Covered (holds bytes 0 0 0) :=
    covered_holds (Nat.zero_le _) (Nat.zero_le _) (Nat.zero_le _)
  cases task with
  | preparing purpose pc | rejected error | finished => exact hzero
  | reserving bytes pc =>
    cases pc with
    | load | exchange current => exact hzero
    | buffers next => exact hbytes
    | peak next | allocate => exact hone h.1
  | output bytes | freeing bytes | leaked bytes => exact hone h
  | releasing bytes buffers =>
    cases buffers with
    | true => exact hone h
    | false => exact hbytes

/-- So does a slot. -/
theorem Slot.Ok.covered (h : slot.Ok p) : Covered slot.held := by
  refine ((covered_blocks h.epoch).add (covered_blocks h.abandoned)).add ?_
  have hcall := h.call
  unfold CallOk at hcall
  cases hpc : slot.pc with
  | idle => exact covered_holds (Nat.le_refl _) (Nat.le_refl _) (Nat.le_refl _)
  | publishing bytes threadBytes pc =>
    rw [hpc] at hcall
    have hpos := hcall.1.1
    cases pc <;> exact covered_holds (by omega) (by omega) (by omega)
  | reclaiming rest =>
    rw [hpc] at hcall
    exact covered_blocks hcall.2
  | discharging block rest pc =>
    rw [hpc] at hcall
    have hpos := hcall.2.1.1
    refine (covered_blocks hcall.2.2).add ?_
    cases pc <;> exact covered_holds (by omega) (by omega) (by omega)

-- ---- One step of a task.

@[simp] theorem ProcessState.fetchAdd_self (process : ProcessState) (c : Counter) (n : Nat) :
    (process.fetchAdd c n).counter c = process.counter c + n := update_self ..

variable {c : Counter}

theorem ProcessState.fetchAdd_ne (process : ProcessState) {c' : Counter} (n : Nat) (h : c' ≠ c) :
    (process.fetchAdd c n).counter c' = process.counter c' :=
  update_of_ne h ..

@[simp] theorem ProcessState.fetchSub_self (process : ProcessState) (c : Counter) (n : Nat) :
    (process.fetchSub c n).counter c = process.counter c - n := update_self ..

theorem ProcessState.fetchSub_ne (process : ProcessState) {c' : Counter} (n : Nat) (h : c' ≠ c) :
    (process.fetchSub c n).counter c' = process.counter c' :=
  update_of_ne h ..

/-- An addition matched by what is held. -/
theorem fetchAdd_balanced (process : ProcessState) (c₀ : Counter) (n : Nat)
    (hself : held' c₀ = held c₀ + n) (hother : ∀ c, c ≠ c₀ → held' c = held c) (c : Counter) :
    (process.fetchAdd c₀ n).counter c + held c = process.counter c + held' c := by
  by_cases hc : c = c₀
  · subst hc
    rw [process.fetchAdd_self, hself]
    omega
  · rw [process.fetchAdd_ne n hc, hother c hc]

/-- A subtraction matched by what is held. -/
theorem fetchSub_balanced (process : ProcessState) (c₀ : Counter) (n : Nat)
    (hheld : held c₀ ≤ process.counter c₀) (hself : held' c₀ + n = held c₀)
    (hother : ∀ c, c ≠ c₀ → held' c = held c) (c : Counter) :
    (process.fetchSub c₀ n).counter c + held c = process.counter c + held' c := by
  by_cases hc : c = c₀
  · subst hc
    rw [process.fetchSub_self]
    omega
  · rw [process.fetchSub_ne n hc, hother c hc]

/-- A subtraction keeps the counters in order. -/
theorem ProcessState.Ok.fetchSub (h : process.Ok) (c : Counter) (n : Nat) :
    (process.fetchSub c n).Ok := by
  refine ⟨h.schema, h.limit, ?_, h.peakReserved, h.peakPublished⟩
  by_cases hc : c = .reservedBytes
  · subst hc
    rw [process.fetchSub_self]
    exact Nat.le_trans (Nat.sub_le _ _) h.reserved
  · rw [process.fetchSub_ne n (Ne.symm hc)]
    exact h.reserved

/-- So does an addition, but for the reserved bytes. -/
theorem ProcessState.Ok.fetchAdd (h : process.Ok) (n : Nat) (hc : c ≠ .reservedBytes) :
    (process.fetchAdd c n).Ok := by
  refine ⟨h.schema, h.limit, ?_, h.peakReserved, h.peakPublished⟩
  rw [process.fetchAdd_ne n (Ne.symm hc)]
  exact h.reserved

/-- What a step of one party makes of the process: it balances with the party's holdings,
keeps the limits and takes nothing it does not hold. -/
structure Balanced (process process' : ProcessState) (held held' : Counter → Nat)
    (underflow : Bool) : Prop where
  counters : ∀ c, process'.counter c + held c = process.counter c + held' c
  ok       : process'.Ok
  keeps    : process.Keeps process'
  sound    : underflow = false

theorem Balanced.refl (h : process.Ok) (held : Counter → Nat) :
    Balanced process process held held false :=
  ⟨fun _ => rfl, h, .of_same rfl rfl, rfl⟩

variable {c₀ : Counter} {n : Nat}

/-- One counter goes up with what is held. -/
theorem Balanced.of_add (h : process.Ok) (hc : c₀ ≠ .reservedBytes) (hself : held' c₀ = held c₀ + n)
    (hother : ∀ c, c ≠ c₀ → held' c = held c) :
    Balanced process (process.fetchAdd c₀ n) held held' false :=
  ⟨fetchAdd_balanced process c₀ n hself hother, h.fetchAdd n hc, .of_same rfl rfl, rfl⟩

/-- One counter goes down with what is held, and does not underflow. -/
theorem Balanced.of_sub (h : process.Ok) (hheld : held c₀ ≤ process.counter c₀)
    (hself : held' c₀ + n = held c₀) (hother : ∀ c, c ≠ c₀ → held' c = held c) :
    Balanced process (process.fetchSub c₀ n) held held' (process.counter c₀ < n) := by
  refine ⟨fetchSub_balanced process c₀ n hheld hself hother, h.fetchSub c₀ n, .of_same rfl rfl, ?_⟩
  rw [decide_eq_false_iff_not]
  omega

variable {purpose : Purpose}

/-- A task begins with nothing held. -/
theorem start_ok {attached : Bool} (hpurpose : purpose.Ok p)
    (h : start process purpose attached = some task) :
    task.Ok p process ∧ ∀ c, task.held c = 0 := by
  have hzero : ∀ c, holds 0 0 0 0 c = 0 := by
    intro c
    cases c <;> rfl
  unfold start at h
  split at h
  · split at h
    · next hattached =>
      cases h
      exact ⟨⟨hpurpose, hattached⟩, hzero⟩
    · cases h
  · cases h
    exact ⟨⟨hpurpose, trivial⟩, hzero⟩

theorem Purpose.proceed_ok (hpurpose : purpose.Ok p) (hattached : process.Attached)
    (second : Bool) :
    (purpose.proceed second).Ok p process ∧ (purpose.proceed second).held = holds 0 0 0 0 := by
  cases second with
  | false => exact ⟨⟨hpurpose, hattached⟩, rfl⟩
  | true =>
    cases purpose with
    | reserve bytes => exact ⟨⟨hpurpose, trivial⟩, rfl⟩
    | metrics => exact ⟨trivial, rfl⟩

/-- What one step does, said once: it balances, keeps the limits, and never takes more than it
holds. -/
theorem PreparePc.step_spec {pc : PreparePc} (hok : (Task.preparing purpose pc).Ok p process)
    (hprocess : process.Ok)
    (hvalid : process.Attached → ∀ field : Field, field.valid process = true) :
    Balanced process (pc.step process purpose).process (holds 0 0 0 0)
        (pc.step process purpose).task.held (pc.step process purpose).underflow ∧
      (pc.step process purpose).task.Ok p (pc.step process purpose).process := by
  obtain ⟨hpurpose, hpc⟩ := hok
  cases pc with
  | schema =>
    rcases hprocess.schema with hzero | hword
    · have hstep : step process purpose .schema =
          ⟨{ process with schema := schemaWord }, .preparing purpose .limit, false⟩ := by
        rw [step, if_pos hzero]
      rw [hstep]
      exact ⟨⟨fun _ => rfl, { hprocess with schema := .inr rfl }, ⟨fun _ => rfl, id⟩, rfl⟩,
        hpurpose, rfl⟩
    · have hstep : step process purpose .schema =
          ⟨process, .preparing purpose .limit, false⟩ := by
        rw [step, if_neg (by rw [hword]; decide), if_neg (not_not.mpr hword)]
      rw [hstep]
      exact ⟨.refl hprocess _, hpurpose, hword⟩
  | limit =>
    rcases hprocess.limit with hzero | hmax
    · have hstep : step process purpose .limit =
          ⟨{ process with limitBytes := maxProcessNumericReturnBytes },
            .preparing purpose (.check false .schema), false⟩ := by
        rw [step, if_pos hzero]
      rw [hstep]
      exact ⟨⟨fun _ => rfl, { hprocess with limit := .inr rfl }, ⟨id, fun _ => rfl⟩, rfl⟩,
        hpurpose, hpc, rfl⟩
    · have hstep : step process purpose .limit =
          ⟨process, .preparing purpose (.check false .schema), false⟩ := by
        rw [step, if_neg (by rw [hmax]; decide), if_neg (not_not.mpr hmax)]
      rw [hstep]
      exact ⟨.refl hprocess _, hpurpose, hpc, hmax⟩
  | check second field =>
    rw [step, if_pos (hvalid hpc field)]
    split
    · exact ⟨.refl hprocess _, hpurpose, hpc⟩
    · obtain ⟨hnext, hheld⟩ := Purpose.proceed_ok hpurpose hpc second
      dsimp only
      rw [hheld]
      exact ⟨.refl hprocess _, hnext⟩

variable {bytes : Nat}

/-- **One access of a reservation is balanced.** -/
theorem ReservePc.step_spec {pc : ReservePc} (ok : Bool)
    (hok : (Task.reserving bytes pc).Ok p process) (hprocess : process.Ok) :
    Balanced process (pc.step p process bytes ok).process (Task.reserving bytes pc).held
        (pc.step p process bytes ok).task.held (pc.step p process bytes ok).underflow ∧
      (pc.step p process bytes ok).task.Ok p (pc.step p process bytes ok).process := by
  obtain ⟨hfits, hpc⟩ := hok
  cases pc with
  | load =>
    have hpos := hfits.1
    rw [ReservePc.step, if_neg (by omega)]
    exact ⟨.refl hprocess _, hfits, hprocess.reserved⟩
  | exchange current =>
    have hcurrent : current ≤ maxProcessNumericReturnBytes := hpc
    have hheader := p.header
    have hsmall := hfits.2
    rw [ReservePc.step]
    rw [if_neg (by
      unfold maxProcessNumericReturnBytes at hcurrent
      unfold maxNumericReturnBytes at hsmall
      omega)]
    split
    · exact ⟨.refl hprocess _, nofun⟩
    · next hlimit =>
      split
      · next hexchange =>
        refine ⟨⟨fetchAdd_balanced process .reservedBytes bytes (Nat.zero_add _).symm ?_, ?_,
          .of_same rfl rfl, rfl⟩, hfits, not_lt.mp hlimit⟩
        · intro c hc
          cases c <;> first | rfl | exact absurd rfl hc
        · refine ⟨hprocess.schema, hprocess.limit, ?_, hprocess.peakReserved,
            hprocess.peakPublished⟩
          rw [process.fetchAdd_self, hexchange.1]
          exact not_lt.mp hlimit
      · exact ⟨.refl hprocess _, hfits, hprocess.reserved⟩
  | buffers next =>
    refine ⟨.of_add hprocess nofun rfl ?_, hfits, hpc⟩
    intro c hc
    cases c <;> first | rfl | exact absurd rfl hc
  | peak next =>
    refine ⟨⟨fun _ => rfl, ?_, .of_same rfl rfl, rfl⟩, hfits, trivial⟩
    exact { hprocess with peakReserved := Nat.max_le.mpr ⟨hprocess.peakReserved, hpc⟩ }
  | allocate =>
    rw [ReservePc.step]
    split
    · exact ⟨.refl hprocess _, hfits⟩
    · exact ⟨.refl hprocess _, hfits⟩

/-- **One step of a task balances.** -/
theorem Task.step_spec {ok : Bool} {next : TaskStep} (h : task.step p process ok = some next)
    (hok : task.Ok p process) (hprocess : process.Ok)
    (hvalid : process.Attached → ∀ field : Field, field.valid process = true)
    (hheld : ∀ c, task.held c ≤ process.counter c) :
    Balanced process next.process task.held next.task.held next.underflow ∧
      next.task.Ok p next.process := by
  cases task with
  | preparing purpose pc =>
    cases h
    exact step_spec hok hprocess hvalid
  | reserving bytes pc =>
    cases h
    exact ReservePc.step_spec ok hok hprocess
  | freeing bytes =>
    cases h
    split
    · exact ⟨.refl hprocess _, hok⟩
    · exact ⟨.refl hprocess _, hok⟩
  | releasing bytes buffers =>
    cases buffers with
    | true =>
      cases h
      refine ⟨.of_sub hprocess (hheld .reservedBuffers) rfl ?_, hok⟩
      intro c hc
      cases c <;> first | rfl | exact absurd rfl hc
    | false =>
      cases h
      refine ⟨.of_sub hprocess (hheld .reservedBytes) (Nat.zero_add _) ?_, trivial⟩
      intro c hc
      cases c <;> first | rfl | exact absurd rfl hc
  | output bytes | leaked bytes | rejected error | finished => cases h

-- ---- One step of a slot.

/-- Whatever is held beside stays balanced. -/
theorem Balanced.frame {underflow : Bool} (h : Balanced process process' held held' underflow)
    (beside : Counter → Nat) :
    Balanced process process' (fun c => beside c + held c) (fun c => beside c + held' c)
      underflow := by
  refine ⟨fun c => ?_, h.ok, h.keeps, h.sound⟩
  have hcounter := h.counters c
  omega

/-- What the output of a rejected publication holds. -/
def droppedHeld : Option Nat → Counter → Nat
  | none => holds 0 0 0 0
  | some bytes => holds bytes 1 0 0

/-- What a step of a slot makes of the shared state. -/
structure Slot.Moves (p : Platform) (process : ProcessState) (module : ModuleState) (slot : Slot)
    (next : SlotStep) : Prop where
  totals       : Balanced process next.process slot.held
    (fun c => next.slot.held c + droppedHeld next.dropped c) next.underflow
  moduleTotals : ∀ t, next.module.total t + slot.moduleHeld t =
    module.total t + next.slot.moduleHeld t
  moduleLimit  : module.bytes ≤ maxModuleNumericReturnBytes →
    next.module.bytes ≤ maxModuleNumericReturnBytes
  ok           : next.slot.Ok p
  dropped      : ∀ bytes ∈ next.dropped, Fits p bytes
  same         : next.slot.module = slot.module

theorem holds_zero (c : Counter) : holds 0 0 0 0 c = 0 := by cases c <;> rfl

/-- A step of a slot that moves nothing but its place. -/
theorem Slot.Moves.of_pc {module' : ModuleState} {pc : SlotPc} {underflow : Bool}
    (hbalanced : Balanced process process' slot.pc.held pc.held underflow)
    (hmodule : ∀ t, module'.total t + slot.moduleHeld t =
      module.total t + Slot.moduleHeld { slot with pc } t)
    (hlimit : module.bytes ≤ maxModuleNumericReturnBytes →
      module'.bytes ≤ maxModuleNumericReturnBytes) (hok : slot.Ok p)
    (hcall : CallOk p { slot with pc }) :
    Moves p process module slot ⟨process', module', { slot with pc }, none, underflow⟩ where
  totals := by
    have hframe := hbalanced.frame fun c =>
      blocksHeld slot.state.epoch c + blocksHeld slot.abandoned c
    refine ⟨fun c => ?_, hframe.ok, hframe.keeps, hframe.sound⟩
    have hcounter := hframe.counters c
    simp only [Slot.held, droppedHeld, holds_zero]
    omega
  moduleTotals := hmodule
  moduleLimit := hlimit
  ok := ⟨hok.bytes, hok.buffers, hok.limit, hok.epoch, hok.abandoned, hcall⟩
  dropped := by rintro bytes ⟨⟩
  same := rfl

/-- What is retained is within the limit. -/
theorem retainedBytesAfter_ok {current additional limit next : Nat} {argument : String}
    (h : retainedBytesAfter p current additional limit argument = .ok next) :
    next = current + additional ∧ next ≤ limit := by
  unfold retainedBytesAfter enforceLimit at h
  split at h
  · cases h
  · split at h
    · cases h
    · next hlimit =>
      cases h
      split at hlimit
      · cases hlimit
      · exact ⟨rfl, by omega⟩

/-- **One access of a publication is balanced.** -/
theorem Slot.publishStep_spec {threadBytes : Nat} {pc : PublishPc} (ok : Bool)
    (hpc : slot.pc = .publishing bytes threadBytes pc) (hok : slot.Ok p) (hprocess : process.Ok)
    (hslack : process.counter .publishedBytes + slot.held .reservedBytes ≤
      process.counter .reservedBytes + slot.held .publishedBytes) : Moves p process module slot
      (slot.publishStep p process module bytes threadBytes ok pc) := by
  have hcall := hok.call
  rw [CallOk, hpc] at hcall
  obtain ⟨hfits, hnext, hdepth, hthread⟩ := hcall
  cases pc with
  | load =>
    refine .of_pc ?_ ?_ id hok ⟨hfits, trivial, hdepth, hthread⟩
    · rw [hpc]
      exact .refl hprocess _
    · intro t
      simp only [Slot.moduleHeld, epochHeld, hpc]
      rfl
  | exchange current =>
    rw [publishStep]
    split
    · -- The module has no room: the output is dropped with its reservation.
      refine ⟨⟨fun c => ?_, hprocess, .of_same rfl rfl, rfl⟩, ?_, id,
        ⟨hok.bytes, hok.buffers, hok.limit, hok.epoch, hok.abandoned, trivial⟩, ?_, rfl⟩
      · simp only [Slot.held, hpc, SlotPc.held, PublishPc.held, droppedHeld, holds_zero]
        omega
      · intro t
        simp only [Slot.moduleHeld, epochHeld, hpc]
        rfl
      · rintro bytes' ⟨⟩
        exact hfits
    · next next hretained =>
      obtain ⟨hsum, hlimit⟩ := retainedBytesAfter_ok hretained
      split
      · next hexchange =>
        refine .of_pc ?_ ?_ (fun _ => hlimit) hok ⟨hfits, hlimit, hdepth, hthread⟩
        · rw [hpc]
          exact .refl hprocess _
        · intro t
          have hbytes := hexchange.1
          cases t <;>
            simp only [Slot.moduleHeld, epochHeld, hpc, SlotPc.moduleHeld,
              PublishPc.moduleHeld, moduleHolds, ModuleState.total]
          omega
      · refine .of_pc ?_ ?_ id hok ⟨hfits, trivial, hdepth, hthread⟩
        · rw [hpc]
          exact .refl hprocess _
        · intro t
          simp only [Slot.moduleHeld, epochHeld, hpc]
          rfl
  | modulePeak next =>
    refine .of_pc ?_ ?_ id hok ⟨hfits, trivial, hdepth, hthread⟩
    · rw [hpc]
      exact .refl hprocess _
    · intro t
      simp only [Slot.moduleHeld, epochHeld, hpc]
      cases t <;> rfl
  | publishedBytes =>
    have hroom : process.counter .publishedBytes + bytes ≤ maxProcessNumericReturnBytes := by
      have hreserved := hprocess.reserved
      simp only [Slot.held, hpc, SlotPc.held, PublishPc.held, holds, blocksHeld] at hslack
      omega
    refine .of_pc ?_ ?_ id hok ⟨hfits, hroom, hdepth, hthread⟩
    · rw [hpc]
      refine .of_add hprocess (fun h => by cases h) (Nat.zero_add _).symm ?_
      intro c hc
      cases c <;> first | rfl | exact absurd rfl hc
    · intro t
      simp only [Slot.moduleHeld, epochHeld, hpc]
      rfl
  | publishedBuffers next =>
    refine .of_pc ?_ ?_ id hok ⟨hfits, hnext, hdepth, hthread⟩
    · rw [hpc]
      refine .of_add hprocess (fun h => by cases h) rfl ?_
      intro c hc
      cases c <;> first | rfl | exact absurd rfl hc
    · intro t
      simp only [Slot.moduleHeld, epochHeld, hpc]
      rfl
  | publishedPeak next =>
    refine .of_pc ?_ ?_ id hok ⟨hfits, trivial, hdepth, hthread⟩
    · rw [hpc]
      refine ⟨fun _ => rfl, ?_, .of_same rfl rfl, rfl⟩
      exact { hprocess with peakPublished := Nat.max_le.mpr ⟨hprocess.peakPublished, hnext⟩ }
    · intro t
      simp only [Slot.moduleHeld, epochHeld, hpc]
      rfl
  | link =>
    obtain ⟨hbytes, hlimit⟩ := hthread
    refine ⟨⟨fun c => ?_, hprocess, .of_same rfl rfl, rfl⟩, ?_, id, ?_, by rintro b ⟨⟩, rfl⟩
    · cases c <;>
        simp only [publishStep, Slot.held, Slot.link, hpc, SlotPc.held, PublishPc.held,
          droppedHeld, blocksHeld, holds, blockBytesSum, map_cons, sum_cons,
          length_cons] <;> omega
    · intro t
      cases t <;>
        simp only [publishStep, Slot.moduleHeld, epochHeld, Slot.link, hpc,
          SlotPc.moduleHeld, PublishPc.moduleHeld, moduleHolds, blockBytesSum, map_cons,
          sum_cons, tail_cons]
      omega
    · refine ⟨?_, ?_, hlimit, ?_, hok.abandoned, hfits, trivial, hdepth, cons_ne_nil _ _⟩
      · have hold := hok.bytes
        simp only [publishStep, Slot.link, blockBytesSum, map_cons, sum_cons]
        unfold blockBytesSum at hold
        omega
      · have hold := hok.buffers
        simp only [publishStep, Slot.link, length_cons]
        omega
      · intro b hb
        rcases mem_cons.mp hb with rfl | hb
        · exact hfits
        · exact hok.epoch b hb
  | moduleBuffers =>
    refine .of_pc ?_ ?_ id hok trivial
    · rw [hpc]
      exact .refl hprocess _
    · intro t
      have hepoch : slot.state.epoch.tail.length + 1 = slot.state.epoch.length := by
        have hpos := length_pos_iff.mpr hthread
        rw [length_tail]
        omega
      cases t <;>
        simp only [Slot.moduleHeld, epochHeld, hpc, SlotPc.moduleHeld, PublishPc.moduleHeld,
          moduleHolds, ModuleState.total]
      omega

theorem Slot.discharge_balanced {block : Block} {rest : List Block} {pc pc' : DischargePc}
    (hpc : slot.pc = .discharging block rest pc) (hprocess : process.Ok)
    (hheld : ∀ c, slot.held c ≤ process.counter c)
    (hself : pc'.held block.bytes c₀ + n = pc.held block.bytes c₀)
    (hother : ∀ c, c ≠ c₀ → pc'.held block.bytes c = pc.held block.bytes c) :
    Balanced process (process.fetchSub c₀ n) slot.pc.held
      (SlotPc.discharging block rest pc').held (process.counter c₀ < n) := by
  have hcovered : pc.held block.bytes c₀ ≤ process.counter c₀ := by
    have hslot := hheld c₀
    simp only [Slot.held, hpc, SlotPc.held] at hslot
    omega
  rw [hpc]
  exact (Balanced.of_sub hprocess hcovered hself hother).frame (blocksHeld rest)

/-- **One access of a discharge is balanced.** -/
theorem Slot.dischargeStep_spec {block : Block} {rest : List Block} {pc : DischargePc}
    (hpc : slot.pc = .discharging block rest pc) (hok : slot.Ok p) (hprocess : process.Ok)
    (hheld : ∀ c, slot.held c ≤ process.counter c)
    (hmodule : ∀ t, slot.moduleHeld t ≤ module.total t) :
    Moves p process module slot (slot.dischargeStep process module block rest pc) := by
  have hcall := hok.call
  rw [CallOk, hpc] at hcall
  have hsame : ∀ pc', (∀ t, pc'.moduleHeld block.bytes t = pc.moduleHeld block.bytes t) → ∀ t,
      module.total t + slot.moduleHeld t =
        module.total t + Slot.moduleHeld { slot with pc := .discharging block rest pc' } t := by
    intro pc' hheld t
    simp only [Slot.moduleHeld, SlotPc.moduleHeld, hheld t]
    cases t <;> simp only [epochHeld, hpc]
  cases pc with
  | publishedBuffers =>
    refine .of_pc (discharge_balanced hpc hprocess hheld rfl ?_)
      (hsame .publishedBytes fun _ => rfl) id hok hcall
    intro c hc
    cases c <;> first | rfl | exact absurd rfl hc
  | publishedBytes =>
    refine .of_pc (discharge_balanced hpc hprocess hheld (Nat.zero_add _) ?_)
      (hsame .reservedBuffers fun _ => rfl) id hok hcall
    intro c hc
    cases c <;> first | rfl | exact absurd rfl hc
  | reservedBuffers =>
    refine .of_pc (discharge_balanced hpc hprocess hheld rfl ?_)
      (hsame .reservedBytes fun _ => rfl) id hok hcall
    intro c hc
    cases c <;> first | rfl | exact absurd rfl hc
  | reservedBytes =>
    refine .of_pc (discharge_balanced hpc hprocess hheld (Nat.zero_add _) ?_)
      (hsame .moduleBytes fun _ => rfl) id hok hcall
    intro c hc
    cases c <;> first | rfl | exact absurd rfl hc
  | moduleBytes =>
    have hroom := hmodule .bytes
    simp only [Slot.moduleHeld, hpc, SlotPc.moduleHeld, DischargePc.moduleHeld, moduleHolds,
      ModuleState.total] at hroom
    have hsound : decide (module.bytes < block.bytes) = false := by
      rw [decide_eq_false_iff_not]
      omega
    rw [dischargeStep, hsound]
    refine .of_pc ?_ ?_ (fun h => Nat.le_trans (Nat.sub_le _ _) h) hok hcall
    · rw [hpc]
      exact .refl hprocess _
    · intro t
      cases t <;>
        simp only [Slot.moduleHeld, epochHeld, hpc, SlotPc.moduleHeld,
          DischargePc.moduleHeld, moduleHolds, ModuleState.total]
      omega
  | moduleBuffers =>
    have hroom := hmodule .buffers
    simp only [Slot.moduleHeld, hpc, SlotPc.moduleHeld, DischargePc.moduleHeld, moduleHolds,
      ModuleState.total] at hroom
    have hsound : decide (module.buffers < 1) = false := by
      rw [decide_eq_false_iff_not]
      omega
    rw [dischargeStep, hsound]
    refine .of_pc ?_ ?_ id hok ⟨hcall.1, hcall.2.2⟩
    · rw [hpc]
      refine ⟨fun c => ?_, hprocess, .of_same rfl rfl, rfl⟩
      simp only [SlotPc.held, DischargePc.held, holds_zero]
      omega
    · intro t
      cases t <;>
        simp only [Slot.moduleHeld, epochHeld, hpc, SlotPc.moduleHeld,
          DischargePc.moduleHeld, moduleHolds, ModuleState.total] <;> omega

/-- **One step of a slot balances.** -/
theorem Slot.step_spec {ok : Bool} {next : SlotStep}
    (h : slot.step p process module ok = some next) (hok : slot.Ok p) (hprocess : process.Ok)
    (hheld : ∀ c, slot.held c ≤ process.counter c)
    (hmodule : ∀ t, slot.moduleHeld t ≤ module.total t)
    (hslack : process.counter .publishedBytes + slot.held .reservedBytes ≤
      process.counter .reservedBytes + slot.held .publishedBytes) :
    Moves p process module slot next := by
  have hcall := hok.call
  unfold Slot.step at h
  cases hpc : slot.pc with
  | idle =>
    rw [hpc] at h
    cases h
  | publishing bytes threadBytes pc =>
    rw [hpc] at h
    cases h
    exact publishStep_spec ok hpc hok hprocess hslack
  | discharging block rest pc =>
    rw [hpc] at h
    cases h
    exact dischargeStep_spec hpc hok hprocess hheld hmodule
  | reclaiming rest =>
    rw [hpc] at h
    rw [CallOk, hpc] at hcall
    cases rest with
    | nil =>
      cases h
      refine .of_pc ?_ ?_ id hok trivial
      · rw [hpc]
        refine ⟨fun c => ?_, hprocess, .of_same rfl rfl, rfl⟩
        cases c <;> rfl
      · intro t
        simp only [Slot.moduleHeld, epochHeld, hpc]
        cases t <;> rfl
    | cons block rest =>
      obtain ⟨hdepth, hblocks⟩ := hcall
      have hblock := hblocks block mem_cons_self
      have hrest : ∀ b ∈ rest, Fits p b.bytes := fun b hb => hblocks b (mem_cons_of_mem _ hb)
      dsimp only at h
      split at h
      · cases h
        refine ⟨⟨fun c => ?_, hprocess, .of_same rfl rfl, rfl⟩, ?_, id,
          ⟨hok.bytes, hok.buffers, hok.limit, hok.epoch, hok.abandoned, hdepth, hblock, hrest⟩,
          by rintro b ⟨⟩, rfl⟩
        · cases c <;>
            simp only [Slot.held, hpc, SlotPc.held, DischargePc.held, droppedHeld, blocksHeld,
              holds, blockBytesSum, map_cons, sum_cons, length_cons] <;> omega
        · intro t
          cases t <;>
            simp only [Slot.moduleHeld, epochHeld, hpc, SlotPc.moduleHeld,
              DischargePc.moduleHeld, moduleBlocksHeld, moduleHolds, blockBytesSum,
              map_cons, sum_cons, length_cons]
          omega
      · cases h
        refine ⟨⟨fun c => ?_, hprocess, .of_same rfl rfl, rfl⟩, ?_, id,
          ⟨hok.bytes, hok.buffers, hok.limit, hok.epoch, ?_, hdepth, hrest⟩,
          by rintro b ⟨⟩, rfl⟩
        · cases c <;>
            simp only [Slot.held, hpc, SlotPc.held, droppedHeld, blocksHeld, holds,
              blockBytesSum, map_cons, sum_cons, length_cons] <;> omega
        · intro t
          cases t <;>
            simp only [Slot.moduleHeld, epochHeld, hpc, SlotPc.moduleHeld,
              moduleBlocksHeld, moduleHolds, blockBytesSum, map_cons, sum_cons,
              length_cons] <;> omega
        · intro b hb
          rcases mem_cons.mp hb with rfl | hb
          · exact hblock
          · exact hok.abandoned b hb

/-- Entering and leaving move no total. -/
structure Slot.Still (p : Platform) (slot slot' : Slot) : Prop where
  held       : ∀ c, slot'.held c = slot.held c
  moduleHeld : ∀ t, slot'.moduleHeld t = slot.moduleHeld t
  ok         : slot'.Ok p
  same       : slot'.module = slot.module

theorem Slot.enter_still (hok : slot.Ok p) (hpc : slot.pc = .idle) : slot.Still p slot.enter := by
  unfold Slot.enter
  split
  · next hdepth =>
    refine ⟨fun c => ?_, fun t => ?_, ⟨rfl, rfl, Nat.zero_le _, ?_, hok.abandoned, rfl, hok.epoch⟩,
      rfl⟩
    · simp only [Slot.held, hpc, SlotPc.held, holds_zero]
      cases c <;> simp [blocksHeld, holds, blockBytesSum, Nat.add_comm]
    · simp only [Slot.moduleHeld, epochHeld, hpc, SlotPc.moduleHeld]
      cases t <;> simp [moduleBlocksHeld, moduleHolds, blockBytesSum, Nat.add_comm]
    · rintro b ⟨⟩
  · refine ⟨fun c => rfl, fun t => ?_, ⟨hok.bytes, hok.buffers, hok.limit, hok.epoch,
      hok.abandoned, ?_⟩, rfl⟩
    · simp only [Slot.moduleHeld, epochHeld]
    · rw [CallOk, hpc]
      trivial

theorem Slot.leave_still (hok : slot.Ok p) (hpc : slot.pc = .idle) : slot.Still p slot.leave := by
  refine ⟨fun c => rfl, fun t => ?_, ⟨hok.bytes, hok.buffers, hok.limit, hok.epoch,
    hok.abandoned, ?_⟩, rfl⟩
  · simp only [Slot.moduleHeld, epochHeld, Slot.leave]
  · rw [CallOk, Slot.leave, hpc]
    trivial

variable {error : XllError}

theorem enforceLimit_error {actual limit : Nat} {argument : String}
    (h : enforceLimit actual limit argument = .error error) : error ≠ .protocol := by
  unfold enforceLimit at h
  split at h
  · cases h
    rintro ⟨⟩
  · cases h

variable {rows columns : Nat}

theorem numericElementCount_error (h : numericElementCount p rows columns = .error error) :
    error ≠ .protocol := by
  unfold numericElementCount at h
  simp only [bind, Except.bind, pure, Except.pure, throw, throwThe, MonadExceptOf.throw] at h
  by_cases hempty : rows = 0 ∨ columns = 0
  · rw [if_pos hempty] at h
    cases h
    rintro ⟨⟩
  · rw [if_neg hempty] at h
    cases hrows : enforceLimit rows 1048576 "<numeric return rows>" with
    | error e =>
      rw [hrows] at h
      cases h
      exact enforceLimit_error hrows
    | ok _ =>
      rw [hrows] at h
      cases hcolumns : enforceLimit columns 16384 "<numeric return columns>" with
      | error e =>
        rw [hcolumns] at h
        cases h
        exact enforceLimit_error hcolumns
      | ok _ =>
        rw [hcolumns] at h
        by_cases hproduct : rows * columns > p.usizeMax
        · simp only [if_pos hproduct] at h
          cases h
          rintro ⟨⟩
        · simp only [if_neg hproduct] at h
          cases h

/-- The checks of the dimensions answer with an input error or an overflow. -/
theorem blockBytes_error (h : blockBytes p rows columns = .error error) : error ≠ .protocol := by
  unfold blockBytes at h
  simp only [bind, Except.bind, pure, Except.pure, throw, throwThe, MonadExceptOf.throw] at h
  cases hcount : numericElementCount p rows columns with
  | error e =>
    rw [hcount] at h
    cases h
    exact numericElementCount_error hcount
  | ok len =>
    rw [hcount] at h
    by_cases hoverflow : len * 8 > p.usizeMax ∨ len * 8 + 8 > p.usizeMax
    · simp only [if_pos hoverflow] at h
      cases h
      rintro ⟨⟩
    · simp only [if_neg hoverflow] at h
      cases hlimit : enforceLimit (len * 8 + 8) maxNumericReturnBytes "<numeric return>" with
      | error e =>
        rw [hlimit] at h
        cases h
        exact enforceLimit_error hlimit
      | ok _ =>
        rw [hlimit] at h
        cases h

/-- The size of a block fits the platform. -/
theorem blockBytes_fits (h : blockBytes p rows columns = .ok bytes) : Fits p bytes := by
  unfold blockBytes at h
  cases hcount : numericElementCount p rows columns with
  | error error =>
    rw [hcount] at h
    cases h
  | ok len =>
    rw [hcount] at h
    unfold enforceLimit at h
    simp only [bind, Except.bind, pure, Except.pure, throw, throwThe, MonadExceptOf.throw] at h
    by_cases hoverflow : len * 8 > p.usizeMax ∨ len * 8 + 8 > p.usizeMax
    · rw [if_pos hoverflow] at h
      cases h
    · rw [if_neg hoverflow] at h
      by_cases hlimit : len * 8 + 8 > maxNumericReturnBytes
      · rw [if_pos hlimit] at h
        cases h
      · rw [if_neg hlimit] at h
        cases h
        exact ⟨by omega, by omega⟩

-- ---- The whole ledger.

/-- What a slot holds of a module's totals. -/
def Slot.heldOf (m : Nat) (t : ModuleTotal) (slot : Slot) : Nat :=
  if slot.module = m then slot.moduleHeld t else 0

namespace NumericSystem

variable {s s' : NumericSystem}

/-- **The invariant of the ledger.** -/
structure Inv (p : Platform) (s : NumericSystem) : Prop where
  process      : s.process.Ok
  tasks        : ∀ task ∈ s.tasks, task.Ok p s.process
  slots        : ∀ slot ∈ s.slots, slot.Ok p
  totals       : ∀ c, s.process.counter c =
    (s.tasks.map (·.held c)).sum + (s.slots.map (·.held c)).sum
  moduleTotals : ∀ m t, (s.modules m).total t = (s.slots.map (Slot.heldOf m t)).sum
  moduleLimit  : ∀ m, (s.modules m).bytes ≤ maxModuleNumericReturnBytes
  sound        : s.underflow = false

theorem new_inv : new.Inv p where
  process      := ⟨.inl rfl, .inl rfl, Nat.zero_le _, Nat.zero_le _, Nat.zero_le _⟩
  tasks        := by rintro task ⟨⟩
  slots        := by rintro slot ⟨⟩
  totals       := fun _ => rfl
  moduleTotals := fun m t => by cases t <;> rfl
  moduleLimit  := fun _ => Nat.zero_le _
  sound        := rfl

/-- Sums are compared part by part. -/
theorem sum_le_sum_of_covered {α : Type} {l : List α} {f g : α → Nat}
    (h : ∀ x ∈ l, f x ≤ g x) : (l.map f).sum ≤ (l.map g).sum := by
  induction l with
  | nil => exact Nat.le_refl _
  | cons x l ih =>
    have hx := h x mem_cons_self
    have hrest := ih fun y hy => h y (mem_cons_of_mem _ hy)
    simp only [map_cons, sum_cons]
    omega

/-- No counter is above the reserved bytes. -/
theorem Inv.covered (hinv : s.Inv p) (c : Counter) :
    s.process.counter c ≤ s.process.counter .reservedBytes := by
  rw [hinv.totals c, hinv.totals .reservedBytes]
  exact Nat.add_le_add
    (sum_le_sum_of_covered fun task htask => (hinv.tasks task htask).covered c)
    (sum_le_sum_of_covered fun slot hslot => (hinv.slots slot hslot).covered c)

/-- **No validation of an attached mapping fails.** -/
theorem Inv.valid (hinv : s.Inv p) (h : s.process.Attached) (field : Field) :
    field.valid s.process = true := by
  cases field with
  | schema => exact decide_eq_true h.1
  | limit => exact decide_eq_true h.2
  | total c => exact decide_eq_true (Nat.le_trans (hinv.covered c) hinv.process.reserved)
  | peakReserved => exact decide_eq_true hinv.process.peakReserved
  | peakPublished => exact decide_eq_true hinv.process.peakPublished

/-- What a task holds is in the counters. -/
theorem Inv.task_le (hinv : s.Inv p) (h : task ∈ s.tasks) (c : Counter) :
    task.held c ≤ s.process.counter c := by
  rw [hinv.totals c]
  exact (le_sum_of_mem (List.mem_map_of_mem (f := fun task => task.held c) h)).trans
    (Nat.le_add_right _ _)

variable {slot : Slot}

/-- What a slot holds is in the counters. -/
theorem Inv.slot_le (hinv : s.Inv p) (h : slot ∈ s.slots) (c : Counter) :
    slot.held c ≤ s.process.counter c := by
  rw [hinv.totals c]
  exact (le_sum_of_mem (List.mem_map_of_mem (f := fun slot => slot.held c) h)).trans
    (Nat.le_add_left _ _)

/-- What a slot holds is in the totals of its module. -/
theorem Inv.slot_moduleHeld_le (hinv : s.Inv p) (h : slot ∈ s.slots) (t : ModuleTotal) :
    slot.moduleHeld t ≤ (s.modules slot.module).total t := by
  rw [hinv.moduleTotals]
  have hmem := le_sum_of_mem (List.mem_map_of_mem (f := heldOf slot.module t) h)
  rwa [heldOf, if_pos rfl] at hmem

variable {i : Nat}

section

variable (hinv : s.Inv p)
include hinv

/-- The reserved bytes leave room for what a slot is about to publish. -/
theorem Inv.slack (h : s.slots[i]? = some slot) :
    s.process.counter .publishedBytes + slot.held .reservedBytes ≤
      s.process.counter .reservedBytes + slot.held .publishedBytes := by
  have hpublished := sum_map_set_add (fun slot => slot.held .publishedBytes) (Slot.new 0) h
  have hreserved := sum_map_set_add (fun slot => slot.held .reservedBytes) (Slot.new 0) h
  have htasks : (s.tasks.map (·.held .publishedBytes)).sum ≤
      (s.tasks.map (·.held .reservedBytes)).sum :=
    sum_le_sum_of_covered fun task htask => (hinv.tasks task htask).covered _
  have hothers : ((s.slots.set i (Slot.new 0)).map (·.held .publishedBytes)).sum ≤
      ((s.slots.set i (Slot.new 0)).map (·.held .reservedBytes)).sum := by
    refine sum_le_sum_of_covered fun other hother => ?_
    rcases mem_or_eq_of_mem_set hother with hmem | rfl
    · exact (hinv.slots other hmem).covered _
    · exact Nat.le_refl _
  have hnew : (Slot.new 0).held .publishedBytes = (Slot.new 0).held .reservedBytes := rfl
  rw [hinv.totals .publishedBytes, hinv.totals .reservedBytes]
  omega

/-- **One task moves**, and the process with it. -/
theorem Inv.of_task {k : Nat} {task task' : Task} {process' : ProcessState}
    {underflow : Bool} (htask : s.tasks[k]? = some task)
    (hmove : Balanced s.process process' task.held task'.held underflow)
    (hok : task'.Ok p process') :
    Inv p { s with process := process', tasks := s.tasks.set k task',
                   underflow := s.underflow || underflow } where
  process := hmove.ok
  tasks other hother := by
    rcases mem_or_eq_of_mem_set hother with hmem | rfl
    · exact (hinv.tasks other hmem).keeps hmove.keeps
    · exact hok
  slots := hinv.slots
  totals c := by
    have hsum := sum_map_set_add (fun task => task.held c) task' htask
    have hold := hinv.totals c
    have hbalance := hmove.counters c
    simp only at hold ⊢
    omega
  moduleTotals := hinv.moduleTotals
  moduleLimit := hinv.moduleLimit
  sound := by rw [hinv.sound, hmove.sound, Bool.or_false]

/-- A task may begin at any time. -/
theorem Inv.of_new_task (hok : task.Ok p s.process) (hheld : ∀ c, task.held c = 0) :
    Inv p { s with tasks := s.tasks ++ [task] } :=
  { hinv with
    tasks other hother := by
      rcases mem_append.mp hother with hmem | hmem
      · exact hinv.tasks other hmem
      · rw [mem_singleton.mp hmem]
        exact hok
    totals c := by
      have hold := hinv.totals c
      simp only [map_append, map_cons, map_nil, sum_append, sum_cons, sum_nil, hheld c] at hold ⊢
      omega }

/-- A step of a slot that holds what it held. -/
theorem Inv.of_still {slot' : Slot} (hslot : s.slots[i]? = some slot)
    (hstill : slot.Still p slot') : Inv p { s with slots := s.slots.set i slot' } where
  process := hinv.process
  tasks := hinv.tasks
  slots other hother := by
    rcases mem_or_eq_of_mem_set hother with hmem | rfl
    · exact hinv.slots other hmem
    · exact hstill.ok
  totals c := by
    have hsum := sum_map_set_add (fun slot => slot.held c) slot' hslot
    have hold := hinv.totals c
    rw [hstill.held c] at hsum
    simp only at hold ⊢
    omega
  moduleTotals m t := by
    have hsum := sum_map_set_add (heldOf m t) slot' hslot
    have hsame : slot'.heldOf m t = slot.heldOf m t := by
      rw [heldOf, heldOf, hstill.same, hstill.moduleHeld t]
    have hold := hinv.moduleTotals m t
    simp only at hold ⊢
    omega
  moduleLimit := hinv.moduleLimit
  sound := hinv.sound

/-- **One slot moves**, and with it the process, its module and what it drops. -/
theorem Inv.of_slot {next : SlotStep} (hslot : s.slots[i]? = some slot)
    (hmove : slot.Moves p s.process (s.modules slot.module) next) : Inv p { s with
      process   := next.process
      modules   := update s.modules slot.module next.module
      slots     := s.slots.set i next.slot
      tasks     := s.tasks ++ next.dropped.toList.map Task.freeing
      underflow := s.underflow || next.underflow } where
  process := hmove.totals.ok
  tasks other hother := by
    rcases mem_append.mp hother with hmem | hmem
    · exact (hinv.tasks other hmem).keeps hmove.totals.keeps
    · obtain ⟨bytes, hbytes, rfl⟩ := List.mem_map.mp hmem
      exact hmove.dropped bytes (mem_toList.mp hbytes)
  slots other hother := by
    rcases mem_or_eq_of_mem_set hother with hmem | rfl
    · exact hinv.slots other hmem
    · exact hmove.ok
  totals c := by
    have hsum := sum_map_set_add (fun slot => slot.held c) next.slot hslot
    have hold := hinv.totals c
    have hbalance := hmove.totals.counters c
    have hdropped : ((next.dropped.toList.map Task.freeing).map (·.held c)).sum =
        droppedHeld next.dropped c := by
      cases next.dropped with
      | none => exact (holds_zero c).symm
      | some bytes => exact Nat.add_zero _
    simp only [map_append, sum_append] at hold ⊢
    omega
  moduleTotals m t := by
    have hsum := sum_map_set_add (heldOf m t) next.slot hslot
    have hold := hinv.moduleTotals m t
    have hbalance := hmove.moduleTotals t
    by_cases hm : m = slot.module
    · subst hm
      have hself : (update s.modules slot.module next.module) slot.module =
          next.module := update_self ..
      have hthis : slot.heldOf slot.module t = slot.moduleHeld t := if_pos rfl
      have hthat : next.slot.heldOf slot.module t = next.slot.moduleHeld t := if_pos hmove.same
      simp only [hself] at hold ⊢
      omega
    · have hother : (update s.modules slot.module next.module) m = s.modules m :=
        update_of_ne hm ..
      have hthis : slot.heldOf m t = 0 := if_neg fun h => hm h.symm
      have hthat : next.slot.heldOf m t = 0 := if_neg fun h => hm (h.symm.trans hmove.same)
      simp only [hother] at hold ⊢
      omega
  moduleLimit m := by
    by_cases hm : m = slot.module
    · subst hm
      have hself : (update s.modules slot.module next.module) slot.module =
          next.module := update_self ..
      simp only [hself]
      exact hmove.moduleLimit (hinv.moduleLimit slot.module)
    · have hother : (update s.modules slot.module next.module) m = s.modules m :=
        update_of_ne hm ..
      simp only [hother]
      exact hinv.moduleLimit m
  sound := by rw [hinv.sound, hmove.totals.sound, Bool.or_false]

theorem Inv.of_publish {k threadBytes : Nat} (hslot : s.slots[i]? = some slot)
    (hpc : slot.pc = .idle) (hdepth : slot.state.depth ≠ 0)
    (htask : s.tasks[k]? = some (.output bytes)) (hsum : threadBytes = slot.state.bytes + bytes)
    (hlimit : threadBytes ≤ maxThreadNumericReturnBytes) : Inv p { s with
      tasks := s.tasks.set k .finished
      slots := s.slots.set i { slot with pc := .publishing bytes threadBytes .load } } where
  process := hinv.process
  tasks other hother := by
    rcases mem_or_eq_of_mem_set hother with hmem | rfl
    · exact hinv.tasks other hmem
    · trivial
  slots other hother := by
    rcases mem_or_eq_of_mem_set hother with hmem | rfl
    · exact hinv.slots other hmem
    · have hok := hinv.slots slot (mem_of_getElem? hslot)
      have hfits : Fits p bytes := hinv.tasks _ (mem_of_getElem? htask)
      exact ⟨hok.bytes, hok.buffers, hok.limit, hok.epoch, hok.abandoned, hfits, trivial,
        Nat.pos_of_ne_zero hdepth, hsum, hlimit⟩
  totals c := by
    have htasks := sum_map_set_add (fun task => task.held c) Task.finished htask
    have hslots := sum_map_set_add (fun slot => slot.held c)
      { slot with pc := .publishing bytes threadBytes .load } hslot
    have hold := hinv.totals c
    have hmoved : Slot.held { slot with pc := .publishing bytes threadBytes .load } c =
        slot.held c + (Task.output bytes).held c := by
      simp only [Slot.held, hpc, SlotPc.held, PublishPc.held, holds_zero, Task.held]
      omega
    have hdone : Task.finished.held c = 0 := holds_zero c
    simp only at hold ⊢
    omega
  moduleTotals m t := by
    have hslots := sum_map_set_add (heldOf m t)
      { slot with pc := .publishing bytes threadBytes .load } hslot
    have hsame : heldOf m t { slot with pc := .publishing bytes threadBytes .load } =
        slot.heldOf m t := by
      simp only [heldOf, Slot.moduleHeld, epochHeld, hpc]
      cases t <;> rfl
    have hold := hinv.moduleTotals m t
    simp only at hold ⊢
    omega
  moduleLimit := hinv.moduleLimit
  sound := hinv.sound

theorem Inv.of_freeing {k : Nat} (htask : s.tasks[k]? = some (.output bytes)) :
    Inv p { s with tasks := s.tasks.set k (.freeing bytes) } := by
  have hfits : Fits p bytes := hinv.tasks _ (mem_of_getElem? htask)
  have hmove : Balanced s.process s.process (Task.output bytes).held (Task.freeing bytes).held
      false := .refl hinv.process _
  have hnext := hinv.of_task htask hmove hfits
  rwa [Bool.or_false] at hnext

/-- Handing an output to a slot keeps the invariant. -/
theorem Inv.publish {k : Nat} (h : publish p s i k = some s') : s'.Inv p := by
  unfold NumericSystem.publish at h
  obtain ⟨slot, hslot, h⟩ := bind_eq_some_iff.mp h
  obtain ⟨task, htask, h⟩ := bind_eq_some_iff.mp h
  split at h
  · next bytes hpc =>
    split at h
    · cases h
    · next hdepth =>
      split at h
      · cases h
        exact hinv.of_freeing htask
      · next threadBytes hretained =>
        cases h
        obtain ⟨hsum, hlimit⟩ := retainedBytesAfter_ok hretained
        exact hinv.of_publish hslot hpc hdepth htask hsum hlimit
  · cases h

/-- **Every step keeps the ledger.** -/
theorem Inv.step {action : Action} (h : step p s action = some s') : s'.Inv p := by
  cases action with
  | create rows columns attached =>
    simp only [NumericSystem.step] at h
    cases hbytes : blockBytes p rows columns with
    | error error =>
      rw [hbytes] at h
      cases h
      exact hinv.of_new_task (blockBytes_error hbytes) holds_zero
    | ok bytes =>
      rw [hbytes] at h
      obtain ⟨task, hstart, h⟩ := bind_eq_some_iff.mp h
      cases h
      have hpurpose : (Purpose.reserve bytes).Ok p := blockBytes_fits hbytes
      obtain ⟨hok, hheld⟩ := start_ok hpurpose hstart
      exact hinv.of_new_task hok hheld
  | readMetrics attached =>
    obtain ⟨task, hstart, h⟩ := bind_eq_some_iff.mp h
    cases h
    have hpurpose : Purpose.metrics.Ok p := trivial
    obtain ⟨hok, hheld⟩ := start_ok hpurpose hstart
    exact hinv.of_new_task hok hheld
  | task k ok =>
    obtain ⟨task, htask, h⟩ := bind_eq_some_iff.mp h
    obtain ⟨next, hnext, h⟩ := bind_eq_some_iff.mp h
    cases h
    have hmem := mem_of_getElem? htask
    obtain ⟨hmove, hok⟩ := Task.step_spec hnext (hinv.tasks task hmem) hinv.process hinv.valid
      (hinv.task_le hmem)
    exact hinv.of_task htask hmove hok
  | drop k =>
    obtain ⟨task, htask, h⟩ := bind_eq_some_iff.mp h
    split at h
    · cases h
      exact hinv.of_freeing htask
    · cases h
  | attach module =>
    cases h
    refine ⟨hinv.process, hinv.tasks, fun slot hslot => ?_, fun c => ?_, fun m t => ?_,
      hinv.moduleLimit, hinv.sound⟩
    · rcases mem_append.mp hslot with hmem | hmem
      · exact hinv.slots slot hmem
      · rw [mem_singleton.mp hmem]
        exact ⟨rfl, rfl, Nat.zero_le _, by rintro b ⟨⟩, by rintro b ⟨⟩, trivial⟩
    · have hold := hinv.totals c
      have hnew : (Slot.new module).held c = 0 := by cases c <;> rfl
      simp only [map_append, map_cons, map_nil, sum_append, sum_cons, sum_nil, hnew] at hold ⊢
      omega
    · have hold := hinv.moduleTotals m t
      have hnew : (Slot.new module).heldOf m t = 0 := by
        unfold heldOf
        split
        · cases t <;> rfl
        · rfl
      simp only [map_append, map_cons, map_nil, sum_append, sum_cons, sum_nil, hnew] at hold ⊢
      omega
  | enter i =>
    obtain ⟨slot, hslot, h⟩ := bind_eq_some_iff.mp h
    split at h
    · next hpc =>
      cases h
      exact hinv.of_still hslot
        (enter_still (hinv.slots slot (mem_of_getElem? hslot)) hpc)
    · cases h
  | leave i =>
    obtain ⟨slot, hslot, h⟩ := bind_eq_some_iff.mp h
    split at h
    · next hpc =>
      split at h
      · cases h
      · cases h
        exact hinv.of_still hslot
          (leave_still (hinv.slots slot (mem_of_getElem? hslot)) hpc)
    · cases h
  | publish i k => exact hinv.publish h
  | slot i ok =>
    obtain ⟨slot, hslot, h⟩ := bind_eq_some_iff.mp h
    obtain ⟨next, hnext, h⟩ := bind_eq_some_iff.mp h
    cases h
    have hmem := mem_of_getElem? hslot
    exact hinv.of_slot hslot (Slot.step_spec hnext (hinv.slots slot hmem) hinv.process
      (hinv.slot_le hmem) (hinv.slot_moduleHeld_le hmem) (hinv.slack hslot))

end

/-- Every state reached is in the invariant. -/
theorem inv_of_reachable (h : Reachable (step p) new s) : s.Inv p :=
  Reachable.invariant (fun _ _ _ hinv hstep => Inv.step hinv hstep) new_inv h

end NumericSystem

end Xlfn.ReturnAbi
