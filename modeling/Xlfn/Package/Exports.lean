import Xlfn.Package.PeInfo

/-!
# Xlfn — the export surface of an add-in

The export table of an image has a slot for each ordinal and a list of names, each bound to a slot.
Names and slots need not go together one by one: the parser reduces them to sets of names, and the
check of an add-in is made on these sets.

* `parsePeFile`, `verifyXllExports` — the code.
* `Surface` — what the check is for.
* `Shadowed` — a name with an executable slot and another slot beside it.
-/

namespace Xlfn.Package

open List Option

-- ---- The image.

/-- `ExportTarget`: an address of the image, or an export of another library. -/
inductive ExportTarget where
  | address (address : Nat)
  | forward (library : Name) (symbol : ExportSymbol)

structure SectionHeader where
  virtualAddress : UInt32
  virtualSize    : UInt32
  sizeOfRawData  : UInt32
  executable     : Bool

/-- An image as it is decoded. A slot is its ordinal and its address, a name is bound to the index
of a slot; what cannot be decoded is `none`. `rest` has what the other tables say. -/
structure PeFile where
  sectionAlignment : UInt32
  fileAlignment    : UInt32
  sizeOfImage      : UInt32
  sizeOfHeaders    : UInt32
  sections         : List SectionHeader
  slots            : List (Nat × Nat)
  names            : List (Option Name × Nat)
  target           : Nat → Option ExportTarget
  rest             : PeInfo

inductive PeError where
  | inconsistent
  | overflow
  | disordered
  | malformed
  | outside (ordinal : Nat)
  | ordinalIndex
  | unsafePath (library : Name)
  | notBasename (library : Name)
  | invalidName (library : Name)

structure MappedSection where
  start      : Nat
  contentEnd : Nat
  executable : Bool

def MappedSection.Contains (mapped : MappedSection) (address : Nat) : Prop :=
  mapped.start ≤ address ∧ address < mapped.contentEnd

instance (mapped : MappedSection) (address : Nat) : Decidable (mapped.Contains address) :=
  inferInstanceAs (Decidable (_ ∧ _))

/-- `u32::checked_add`. -/
def checkedAdd (a b : Nat) : Except PeError Nat :=
  if a + b < 2 ^ 32 then .ok (a + b) else .error .overflow

/-- `align_end`; clearing the low bits of a power of two is rounding down to a multiple. -/
def alignEnd (alignment end' : Nat) : Except PeError Nat := do
  let end' ← checkedAdd end' (alignment - 1)
  return end' / alignment * alignment

def isPowerOfTwo (n : Nat) : Bool := n ≠ 0 && n &&& (n - 1) == 0

/-- The loop of `validate_mapped_sections`. -/
def mapSections (alignment imageSize : Nat) :
    Nat → List SectionHeader → Except PeError (List MappedSection)
  | _, [] => .ok []
  | previousEnd, header :: headers =>
    let start := header.virtualAddress.toNat
    let size := max header.virtualSize.toNat header.sizeOfRawData.toNat
    if size = 0 then mapSections alignment imageSize previousEnd headers
    else do
      let contentEnd ← checkedAdd start size
      let mappedEnd ← alignEnd alignment contentEnd
      if start % alignment ≠ 0 ∨ start < previousEnd ∨ imageSize < mappedEnd then
        throw .disordered
      let mapped ← mapSections alignment imageSize mappedEnd headers
      return ⟨start, contentEnd, header.executable⟩ :: mapped

def validateMappedSections (pe : PeFile) : Except PeError (List MappedSection) := do
  let alignment := pe.sectionAlignment.toNat
  let fileAlignment := pe.fileAlignment.toNat
  let imageSize := pe.sizeOfImage.toNat
  let headersSize := pe.sizeOfHeaders.toNat
  if ¬isPowerOfTwo alignment ∨ ¬isPowerOfTwo fileAlignment ∨ alignment < fileAlignment ∨
      (alignment < 4096 ∧ alignment ≠ fileAlignment) ∨ imageSize % alignment ≠ 0 ∨
      imageSize < headersSize then
    throw .inconsistent
  let previousEnd ← alignEnd alignment headersSize
  mapSections alignment imageSize previousEnd pe.sections

-- ---- The library of a forwarded export.

/-- What `validate_relative` accepts. Where neither `\` nor `:` occurs, a path is absolute when it
begins with `/`, and its components are the parts between slashes that are not empty. -/
def isRelative (value : Name) : Bool :=
  value ≠ [] && value.all (fun c => c ≠ '\\' && c ≠ ':') && value.head? ≠ some '/' &&
    (value.splitOn '/').all fun component => component ≠ ['.'] && component ≠ ['.', '.']

/-- `Path::file_name`, where no component is `..`. -/
def fileName (value : Name) : Option Name := ((value.splitOn '/').filter (· ≠ [])).getLast?

/-- `normalize_forwarder_library`. -/
def normalizeForwarderLibrary (library : Name) : Except PeError Name :=
  let normalized := toAsciiLowercase library
  if ¬isRelative library then .error (.unsafePath library)
  else if fileName library ≠ some library then .error (.notBasename library)
  else if '.' ∉ normalized then .ok (normalized ++ ".dll".toList)
  else if ¬".dll".toList <:+ normalized ∧ ¬".xll".toList <:+ normalized then
    .error (.invalidName library)
  else .ok normalized

variable {name : Name}

/-- An accepted library is a basename, and is known by a name with the ending of a library. -/
theorem normalizeForwarderLibrary_ok {library : Name}
    (h : normalizeForwarderLibrary library = .ok name) :
    fileName library = some library ∧ (".dll".toList <:+ name ∨ ".xll".toList <:+ name) := by
  simp only [normalizeForwarderLibrary] at h
  split at h
  · cases h
  split at h
  · cases h
  next hname =>
  refine ⟨not_not.1 hname, ?_⟩
  split at h
  · cases h
    exact .inl (suffix_append _ _)
  split at h
  · cases h
  next hsuffix =>
  cases h
  exact or_iff_not_and_not.2 hsuffix

-- ---- The export table.

/-- What is known of a slot that is not zero. -/
structure SlotTarget where
  executable : Bool
  ordinal    : Nat
  forwarded  : Option ForwardedExport

/-- The body of the loop over the slots. -/
def readSlot (pe : PeFile) (mapped : List MappedSection) (slot : Nat × Nat) :
    Except PeError (Option SlotTarget) :=
  if slot.2 = 0 then .ok none
  else
    match pe.target slot.2 with
    | none => .error .malformed
    | some (.address address) =>
      match mapped.find? fun mapped => mapped.Contains address with
      | none => .error (.outside slot.1)
      | some mapped => .ok (some ⟨mapped.executable, slot.1, none⟩)
    | some (.forward library symbol) =>
      match normalizeForwarderLibrary library with
      | .error error => .error error
      | .ok library => .ok (some ⟨false, slot.1, some ⟨library, symbol⟩⟩)

/-- The body of the loop over the names: a name of a zero slot is no export. -/
def readName (targets : List (Option SlotTarget)) (entry : Option Name × Nat) :
    Except PeError (Option (Name × SlotTarget)) :=
  match targets[entry.2]? with
  | none => .error .ordinalIndex
  | some none => .ok none
  | some (some target) =>
    match entry.1 with
    | none => .error .malformed
    | some name => .ok (some (name, target))

/-- A loop that ends at the first error. -/
def readAll {α β : Type} (f : α → Except PeError β) : List α → Except PeError (List β)
  | [] => .ok []
  | x :: xs => do
    let y ← f x
    let ys ← readAll f xs
    return y :: ys

/-- The slots that are forwarded, by ordinal. -/
def forwardedOrdinals (targets : List (Option SlotTarget)) : List (Nat × ForwardedExport) :=
  targets.filterMap fun target => target.bind fun target =>
    target.forwarded.map fun forwarded => (target.ordinal, forwarded)

/-- `parse_pe_file`. -/
def parsePeFile (pe : PeFile) : Except PeError PeInfo := do
  let mapped ← validateMappedSections pe
  let targets ← readAll (readSlot pe mapped) pe.slots
  let named ← readAll (readName targets) pe.names
  let named := named.filterMap id
  let forwarded := (forwardedOrdinals targets).reverse
  return { pe.rest with
    exports := named.map Prod.fst
    executableExports := (named.filter fun named => named.2.executable).map Prod.fst
    forwardedExports := (named.filterMap fun named =>
        (forwarded.lookup named.2.ordinal).map fun target => (.name named.1, target)).reverse ++
      forwarded.map fun forwarded => (.ordinal forwarded.1, forwarded.2)
    exportedOrdinals := targets.filterMap fun target => target.map SlotTarget.ordinal
    nonzeroExportSlots := (List.range targets.length).filter fun index =>
      (targets[index]?.bind id).isSome
    namedExportSlots := pe.names.map Prod.snd }

-- ---- The check.

inductive XllExportError where
  | noManifest
  | noCrtPolicy
  | missing (exports : List Name)
  | forwarded (name : Name)
  | notExecutable (exports : List Name)
  | incompleteManifest (name : Name)
  | unexpected (exports : List Name)
  | ordinalOnly

/-- `REQUIRED_XLL_EXPORTS`. -/
def requiredXllExports : List Name :=
  ["xlAutoOpen", "xlAutoClose", "xlAutoRemove", "xlAutoFree12", "xlAddInManagerInfo12",
    "__xlfn_calculation_ended"].map String.toList

def dllMainCrtStartup : Name := "_DllMainCRTStartup".toList

/-- A test that ends the check when it fails. -/
def require (condition : Prop) [Decidable condition] (error : XllExportError) :
    Except XllExportError Unit :=
  if condition then .ok () else .error error

def rejectForwardedXllExport (info : PeInfo) (name : Name) : Except XllExportError Unit :=
  require (info.forwardedExports.lookup (.name name) = none) (.forwarded name)

/-- An export that is there, implemented directly and executable. -/
def checkExport (info : PeInfo) (name : Name) : Except XllExportError Unit := do
  require (name ∈ info.exports) (.missing [name])
  rejectForwardedXllExport info name
  require (name ∈ info.executableExports) (.notExecutable [name])

def checkAll (check : Name → Except XllExportError Unit) : List Name → Except XllExportError Unit
  | [] => .ok ()
  | name :: names => do
    check name
    checkAll check names

/-- No name may be left over. -/
def noneLeft (names : List Name) (error : List Name → XllExportError) :
    Except XllExportError Unit :=
  require (names = []) (error names)

def verifyXllExports (info : PeInfo) (requiredExports : List Name) :
    Except XllExportError Unit := do
  require info.hasExportManifest .noManifest
  require info.crtPolicy .noCrtPolicy
  checkAll (fun name => do
    checkExport info name
    require (name ∈ info.expectedExports) (.incompleteManifest name)) requiredXllExports
  checkAll (checkExport info) requiredExports
  noneLeft (info.expectedExports.filter (· ∉ info.exports)) .missing
  checkAll (rejectForwardedXllExport info) info.expectedExports
  noneLeft (info.expectedExports.filter (· ∉ info.executableExports)) .notExecutable
  noneLeft (info.exports.filter fun name =>
    name ∉ info.expectedExports ∧ name ≠ dllMainCrtStartup) .unexpected
  require (info.nonzeroExportSlots.filter (· ∉ info.namedExportSlots) = []) .ordinalOnly

-- ---- What a file that is accepted has.

section Accepted

variable {pe : PeFile} {info : PeInfo} {required : List Name} {mapped : List MappedSection}
  {targets : List (Option SlotTarget)} {α β : Type}

theorem readAll_ok {f : α → Except PeError β} : ∀ {xs : List α} {ys : List β},
    readAll f xs = .ok ys → xs.map f = ys.map .ok
  | [], ys, h => by cases h; rfl
  | x :: xs, ys, h => by
    rw [readAll] at h
    cases hx : f x with
    | error error => rw [hx] at h; cases h
    | ok y =>
      cases hxs : readAll f xs with
      | error error => rw [hx, hxs] at h; cases h
      | ok ys' =>
        rw [hx, hxs] at h
        cases h
        simp [hx, readAll_ok hxs]

/-- Each place of a list that is read has what its element gives. -/
theorem readAll_getElem? {f : α → Except PeError β} {xs : List α} {ys : List β}
    (h : readAll f xs = .ok ys) (index : Nat) : xs[index]?.map f = ys[index]?.map .ok := by
  have hget := congrArg (·[index]?) (readAll_ok h)
  simpa using hget

theorem parse_ok (h : parsePeFile pe = .ok info) :
    ∃ mapped targets named, validateMappedSections pe = .ok mapped ∧
      readAll (readSlot pe mapped) pe.slots = .ok targets ∧
      readAll (readName targets) pe.names = .ok named ∧
      info.exports = (named.filterMap id).map Prod.fst ∧
      info.executableExports =
        ((named.filterMap id).filter fun named => named.2.executable).map Prod.fst ∧
      info.forwardedExports = ((named.filterMap id).filterMap fun named =>
          ((forwardedOrdinals targets).reverse.lookup named.2.ordinal).map fun target =>
            (.name named.1, target)).reverse ++
        (forwardedOrdinals targets).reverse.map
          (fun forwarded => (.ordinal forwarded.1, forwarded.2)) ∧
      info.nonzeroExportSlots = (range targets.length).filter
        (fun index => (targets[index]?.bind id).isSome) ∧
      info.namedExportSlots = pe.names.map Prod.snd := by
  rw [parsePeFile] at h
  cases hmapped : validateMappedSections pe with
  | error error => rw [hmapped] at h; cases h
  | ok mapped =>
    cases htargets : readAll (readSlot pe mapped) pe.slots with
    | error error =>
      simp only [hmapped, bind, Except.bind, htargets] at h
      cases h
    | ok targets =>
      cases hnamed : readAll (readName targets) pe.names with
      | error error =>
        simp only [hmapped, bind, Except.bind, htargets, hnamed] at h
        cases h
      | ok named =>
        simp only [hmapped, bind, Except.bind, htargets, hnamed] at h
        cases h
        exact ⟨mapped, targets, named, rfl, htargets, hnamed, rfl, rfl, rfl, rfl, rfl⟩

theorem checkAll_ok {check : Name → Except XllExportError Unit} : ∀ {names : List Name},
    checkAll check names = .ok () → ∀ name ∈ names, check name = .ok ()
  | [], _ => by simp
  | name :: names, h => by
    rw [checkAll] at h
    cases hname : check name with
    | error error => rw [hname] at h; cases h
    | ok _ =>
      rw [hname] at h
      simpa [hname] using checkAll_ok h

theorem require_ok {condition : Prop} [Decidable condition] {error : XllExportError}
    (h : require condition error = .ok ()) : condition := by
  by_contra hc
  rw [require, if_neg hc] at h
  cases h

theorem bind_ok {first : Except XllExportError Unit} {next : Unit → Except XllExportError Unit}
    (h : first >>= next = .ok ()) : first = .ok () ∧ next () = .ok () := by
  cases first with
  | error error => cases h
  | ok _ => exact ⟨rfl, h⟩

theorem checkExport_ok (h : checkExport info name = .ok ()) :
    info.forwardedExports.lookup (.name name) = none ∧ name ∈ info.executableExports := by
  rw [checkExport] at h
  obtain ⟨-, h⟩ := bind_ok h
  obtain ⟨hforwarded, hexecutable⟩ := bind_ok h
  exact ⟨require_ok hforwarded, require_ok hexecutable⟩

/-- A name that is expected or required, by the manifest or by the host. -/
def Wanted (info : PeInfo) (required : List Name) (name : Name) : Prop :=
  name ∈ info.expectedExports ∨ name ∈ required ∨ name ∈ requiredXllExports

theorem verify_ok (h : verifyXllExports info required = .ok ()) :
    (∀ name, Wanted info required name →
      info.forwardedExports.lookup (.name name) = none ∧ name ∈ info.executableExports) ∧
    (∀ name ∈ info.exports, name ∈ info.expectedExports ∨ name = dllMainCrtStartup) ∧
    ∀ index ∈ info.nonzeroExportSlots, index ∈ info.namedExportSlots := by
  rw [verifyXllExports] at h
  obtain ⟨-, h⟩ := bind_ok h
  obtain ⟨-, h⟩ := bind_ok h
  obtain ⟨hlifecycle, h⟩ := bind_ok h
  obtain ⟨hrequired, h⟩ := bind_ok h
  obtain ⟨-, h⟩ := bind_ok h
  obtain ⟨hdirect, h⟩ := bind_ok h
  obtain ⟨hexecutable, h⟩ := bind_ok h
  obtain ⟨hexpected, hnamed⟩ := bind_ok h
  refine ⟨fun name hname => ?_, fun name hname => ?_, fun index hindex => ?_⟩
  · obtain hname | hname | hname := hname
    · have hleft := require_ok hexecutable
      simp only [filter_eq_nil_iff, decide_eq_true_eq, not_not] at hleft
      exact ⟨require_ok (checkAll_ok hdirect name hname), hleft name hname⟩
    · exact checkExport_ok (checkAll_ok hrequired name hname)
    · exact checkExport_ok (bind_ok (checkAll_ok hlifecycle name hname)).1
  · have hleft := require_ok hexpected
    simp only [filter_eq_nil_iff, decide_eq_true_eq, not_and_or, not_not] at hleft
    exact hleft name hname
  · have hleft := require_ok hnamed
    simp only [filter_eq_nil_iff, decide_eq_true_eq, not_not] at hleft
    exact hleft index hindex

-- ---- The sections.

/-- The extent of a section that has content, with no number cut to 32 bits. -/
def extent (header : SectionHeader) : Option MappedSection :=
  let start := header.virtualAddress.toNat
  let size := max header.virtualSize.toNat header.sizeOfRawData.toNat
  if size = 0 then none else some ⟨start, start + size, header.executable⟩

/-- The mapped sections are the ones that have content, ordered, apart, and inside the image. -/
structure Mapped (pe : PeFile) (mapped : List MappedSection) : Prop where
  extents    : mapped = pe.sections.filterMap extent
  disjoint   : mapped.Pairwise fun a b => a.contentEnd ≤ b.start
  headers    : ∀ m ∈ mapped, pe.sizeOfHeaders.toNat ≤ m.start
  inside     : ∀ m ∈ mapped, m.start < m.contentEnd ∧ m.contentEnd ≤ pe.sizeOfImage.toNat
  noOverflow : pe.sizeOfHeaders.toNat + (pe.sectionAlignment.toNat - 1) < 2 ^ 32 ∧
    ∀ m ∈ mapped, m.contentEnd + (pe.sectionAlignment.toNat - 1) < 2 ^ 32

theorem alignEnd_ok {alignment stop aligned : Nat} (hpos : 0 < alignment)
    (h : alignEnd alignment stop = .ok aligned) :
    stop ≤ aligned ∧ stop + (alignment - 1) < 2 ^ 32 := by
  rw [alignEnd, checkedAdd] at h
  split at h
  · next hfits =>
    cases h
    have hround := Nat.div_add_mod (stop + (alignment - 1)) alignment
    have hrest := Nat.mod_lt (stop + (alignment - 1)) hpos
    rw [Nat.mul_comm] at hround
    exact ⟨by omega, hfits⟩
  · cases h

theorem mapSections_ok {alignment imageSize : Nat} (hpos : 0 < alignment) :
    ∀ {headers : List SectionHeader} {previousEnd : Nat} {mapped : List MappedSection},
      mapSections alignment imageSize previousEnd headers = .ok mapped →
      mapped = headers.filterMap extent ∧ mapped.Pairwise (fun a b => a.contentEnd ≤ b.start) ∧
      (∀ m ∈ mapped, previousEnd ≤ m.start) ∧
      (∀ m ∈ mapped, m.start < m.contentEnd ∧ m.contentEnd ≤ imageSize) ∧
      ∀ m ∈ mapped, m.contentEnd + (alignment - 1) < 2 ^ 32
  | [], previousEnd, mapped, h => by cases h; simp
  | header :: headers, previousEnd, mapped, h => by
    rw [mapSections] at h
    split at h
    · next hsize => simpa [filterMap_cons, extent, hsize] using mapSections_ok hpos h
    · next hsize =>
      rw [checkedAdd] at h
      split at h
      swap
      · cases h
      cases haligned : alignEnd alignment (header.virtualAddress.toNat +
          max header.virtualSize.toNat header.sizeOfRawData.toNat) with
      | error error => simp only [bind, Except.bind, haligned] at h; cases h
      | ok mappedEnd =>
        simp only [bind, Except.bind, haligned] at h
        split at h
        · cases h
        next hplaced =>
        simp only [not_or, not_lt] at hplaced
        cases htail : mapSections alignment imageSize mappedEnd headers with
        | error error => simp only [htail] at h; cases h
        | ok tail =>
          simp only [htail] at h
          cases h
          obtain ⟨hextents, hdisjoint, hafter, hinside, hfits⟩ := mapSections_ok hpos htail
          obtain ⟨hend, hfit⟩ := alignEnd_ok hpos haligned
          have hsize : max header.virtualSize.toNat header.sizeOfRawData.toNat ≠ 0 := hsize
          refine ⟨by simp [extent, hsize, hextents], ?_, ?_, ?_, ?_⟩
          · exact pairwise_cons.2 ⟨fun m hm => hend.trans (hafter m hm), hdisjoint⟩
          · exact forall_mem_cons.2
              ⟨hplaced.2.1, fun m hm => by have := hafter m hm; omega⟩
          · exact forall_mem_cons.2 ⟨⟨by simp only; omega, hend.trans hplaced.2.2⟩, hinside⟩
          · exact forall_mem_cons.2 ⟨hfit, hfits⟩

theorem validate_ok (h : validateMappedSections pe = .ok mapped) : Mapped pe mapped := by
  rw [validateMappedSections] at h
  split at h
  · cases h
  next hvalid =>
  have hpos : 0 < pe.sectionAlignment.toNat := by
    by_contra hzero
    exact hvalid (.inl (by simp [isPowerOfTwo, Nat.eq_zero_of_not_pos hzero]))
  cases hheaders : alignEnd pe.sectionAlignment.toNat pe.sizeOfHeaders.toNat with
  | error error => simp only [bind, Except.bind, hheaders] at h; cases h
  | ok previousEnd =>
    simp only [bind, Except.bind, hheaders] at h
    obtain ⟨hextents, hdisjoint, hafter, hinside, hfits⟩ := mapSections_ok hpos h
    obtain ⟨hend, hfit⟩ := alignEnd_ok hpos hheaders
    exact ⟨hextents, hdisjoint, fun m hm => hend.trans (hafter m hm), hinside, hfit, hfits⟩

-- ---- The surface.

/-- The slot is not zero and its address lies in a section that is executable or is not. -/
def AddressOf (pe : PeFile) (mapped : List MappedSection) (index : Nat) (executable : Bool) :
    Prop :=
  ∃ slot address found, pe.slots[index]? = some slot ∧ slot.2 ≠ 0 ∧
    pe.target slot.2 = some (.address address) ∧
    mapped.find? (fun mapped => mapped.Contains address) = some found ∧
    found.executable = executable

def ZeroSlot (pe : PeFile) (index : Nat) : Prop := ∃ slot, pe.slots[index]? = some slot ∧ slot.2 = 0

/-- What the check of an add-in is for. -/
structure Surface (pe : PeFile) (info : PeInfo) (required : List Name)
    (mapped : List MappedSection) : Prop where
  sections   : Mapped pe mapped
  expected   : ∀ name index slot, (some name, index) ∈ pe.names →
    pe.slots[index]? = some slot → slot.2 ≠ 0 →
    name ∈ info.expectedExports ∨ name = dllMainCrtStartup
  named      : ∀ index slot, pe.slots[index]? = some slot → slot.2 ≠ 0 →
    ∃ name, (some name, index) ∈ pe.names
  executable : ∀ name index, Wanted info required name → (some name, index) ∈ pe.names →
    AddressOf pe mapped index true

/-- A wanted name has an executable slot, and beside it a zero slot or one of data. -/
def Shadowed (pe : PeFile) (info : PeInfo) (required : List Name) (mapped : List MappedSection) :
    Prop :=
  ∃ name i j, Wanted info required name ∧ (some name, i) ∈ pe.names ∧ (some name, j) ∈ pe.names ∧
    AddressOf pe mapped i true ∧ (ZeroSlot pe j ∨ AddressOf pe mapped j false)

variable {index : Nat}

theorem AddressOf.unique {a b : Bool} (ha : AddressOf pe mapped index a)
    (hb : AddressOf pe mapped index b) : a = b := by
  obtain ⟨slot, address, found, hslot, -, htarget, hfind, rfl⟩ := ha
  obtain ⟨slot', address', found', hslot', -, htarget', hfind', rfl⟩ := hb
  cases hslot.symm.trans hslot'
  cases htarget.symm.trans htarget'
  cases hfind.symm.trans hfind'
  rfl

theorem AddressOf.nonzero {a : Bool} (ha : AddressOf pe mapped index a) : ¬ZeroSlot pe index := by
  obtain ⟨slot, address, found, hslot, hne, -⟩ := ha
  rintro ⟨slot', hslot', hzero⟩
  cases hslot.symm.trans hslot'
  exact hne hzero

theorem readSlot_some {slot : Nat × Nat} {target : SlotTarget}
    (h : readSlot pe mapped slot = .ok (some target)) :
    slot.2 ≠ 0 ∧ ((∃ address found, pe.target slot.2 = some (.address address) ∧
        mapped.find? (fun mapped => mapped.Contains address) = some found ∧
        found.executable = target.executable) ∨
      ∃ forwarded, target.forwarded = some forwarded ∧ target.executable = false) := by
  rw [readSlot] at h
  split at h
  · cases h
  next hne =>
  refine ⟨hne, ?_⟩
  split at h
  · cases h
  · next address haddress =>
    split at h
    · cases h
    · next found hfound =>
      cases h
      exact .inl ⟨address, found, haddress, hfound, rfl⟩
  · split at h
    · cases h
    · cases h
      exact .inr ⟨_, rfl, rfl⟩

theorem readSlot_none {slot : Nat × Nat} (h : readSlot pe mapped slot = .ok none) : slot.2 = 0 := by
  rw [readSlot] at h
  split at h
  · assumption
  · repeat' split at h
    all_goals cases h

/-- A name that is read is bound to a zero slot, or is an export of the slot it is bound to. -/
theorem name_bound {named : List (Option (Name × SlotTarget))}
    (htargets : readAll (readSlot pe mapped) pe.slots = .ok targets)
    (hnamed : readAll (readName targets) pe.names = .ok named)
    (hentry : (some name, index) ∈ pe.names) :
    ∃ slot target, pe.slots[index]? = some slot ∧ targets[index]? = some target ∧
      readSlot pe mapped slot = .ok target ∧
      ∀ t, target = some t → (name, t) ∈ named.filterMap id := by
  obtain ⟨place, hplace⟩ := mem_iff_getElem?.1 hentry
  have hread := readAll_getElem? hnamed place
  rw [hplace, map_some] at hread
  obtain ⟨y, hy, hok⟩ := map_eq_some_iff.1 hread.symm
  have hslot := readAll_getElem? htargets index
  rw [readName] at hok
  cases htarget : targets[index]? with
  | none => simp only [htarget] at hok; cases hok
  | some target =>
    rw [htarget, map_some] at hslot
    obtain ⟨slot, hslot, hreadSlot⟩ := map_eq_some_iff.1 hslot
    refine ⟨slot, target, hslot, rfl, hreadSlot, ?_⟩
    rintro t rfl
    simp only [htarget, Except.ok.injEq] at hok
    exact mem_filterMap.2 ⟨y, mem_of_getElem? hy, hok⟩

/-- An export comes from a name bound to a slot that is not zero. -/
theorem named_bound {named : List (Option (Name × SlotTarget))}
    (htargets : readAll (readSlot pe mapped) pe.slots = .ok targets)
    (hnamed : readAll (readName targets) pe.names = .ok named) {target : SlotTarget}
    (hmem : (name, target) ∈ named.filterMap id) :
    ∃ index slot, (some name, index) ∈ pe.names ∧ pe.slots[index]? = some slot ∧
      readSlot pe mapped slot = .ok (some target) := by
  simp only [mem_filterMap, id_eq, exists_eq_right] at hmem
  obtain ⟨place, hplace⟩ := mem_iff_getElem?.1 hmem
  have hread := readAll_getElem? hnamed place
  rw [hplace, map_some] at hread
  obtain ⟨⟨entry, index⟩, hentry, hok⟩ := map_eq_some_iff.1 hread
  have hslot := readAll_getElem? htargets index
  rw [readName] at hok
  split at hok
  · cases hok
  · cases hok
  · next target' htarget =>
    split at hok
    · cases hok
    · next name' hname =>
      cases hok
      rw [htarget, map_some] at hslot
      obtain ⟨slot, hslot, hreadSlot⟩ := map_eq_some_iff.1 hslot
      simp only at hname
      exact ⟨index, slot, hname ▸ mem_of_getElem? hentry, hslot, hreadSlot⟩

theorem lookup_isSome [BEq α] [LawfulBEq α] : ∀ {entries : List (α × β)} {key : α} {value : β}
    , (key, value) ∈ entries → entries.lookup key ≠ none
  | (key', value') :: entries, key, value, h => by
    rw [lookup_cons]
    split
    · simp
    · next hkey =>
      refine lookup_isSome ((mem_cons.1 h).resolve_left fun heq => ?_)
      cases heq
      simp at hkey

/-- **The export surface of an accepted add-in.** The sections are ordered, apart and inside the
image, every named slot has an expected name and every slot a name; and every slot of a wanted name
is a direct executable one, exactly when no name has a zero slot or one of data beside it. -/
theorem xll_export_surface (hparse : parsePeFile pe = .ok info)
    (hverify : verifyXllExports info required = .ok ()) :
    ∃ mapped, validateMappedSections pe = .ok mapped ∧
      (Surface pe info required mapped ↔ ¬Shadowed pe info required mapped) := by
  obtain ⟨mapped, targets, named, hmapped, htargets, hnamed, hexports, hexecutables, hforwards,
    hnonzero, hnames⟩ := parse_ok hparse
  obtain ⟨hwanted, hunexpected, hordinal⟩ := verify_ok hverify
  refine ⟨mapped, hmapped, fun surface => ?_, fun hclear => ?_⟩
  · rintro ⟨name, i, j, hname, -, hj, -, hzero | hdata⟩
    · exact (surface.executable name j hname hj).nonzero hzero
    · cases (surface.executable name j hname hj).unique hdata
  refine ⟨validate_ok hmapped, fun name index slot hentry hslot hne => ?_,
    fun index slot hslot hne => ?_, fun name index hname hentry => ?_⟩
  · obtain ⟨slot', target, hslot', -, hread, hmem⟩ := name_bound htargets hnamed hentry
    cases hslot.symm.trans hslot'
    cases target with
    | none => exact absurd (readSlot_none hread) hne
    | some target =>
      exact hunexpected name (hexports ▸ List.mem_map.2 ⟨_, hmem target rfl, rfl⟩)
  · -- A slot that is not zero is in the set of them, so in the set of those with a name.
    have hslots := readAll_getElem? htargets index
    rw [hslot, map_some] at hslots
    obtain ⟨target, htarget, hread⟩ := map_eq_some_iff.1 hslots.symm
    cases target with
    | none => exact absurd (readSlot_none hread.symm) hne
    | some target =>
      have hmem : index ∈ info.namedExportSlots := hordinal index (by
        rw [hnonzero, mem_filter, mem_range, htarget]
        exact ⟨(List.getElem?_eq_some_iff.1 htarget).1, rfl⟩)
      rw [hnames] at hmem
      obtain ⟨⟨entry, _⟩, hentry, rfl⟩ := List.mem_map.1 hmem
      obtain ⟨place, hplace⟩ := mem_iff_getElem?.1 hentry
      have hname := readAll_getElem? hnamed place
      rw [hplace, map_some, readName, htarget] at hname
      cases entry with
      | none => cases hread : named[place]? <;> rw [hread] at hname <;> cases hname
      | some name => exact ⟨name, hentry⟩
  · obtain ⟨slot, target, hslot, htarget, hread, hmem⟩ := name_bound htargets hnamed hentry
    obtain ⟨hdirect, hexecutable⟩ := hwanted name hname
    rw [hexecutables] at hexecutable
    obtain ⟨⟨name', t⟩, ht, hsame⟩ := List.mem_map.1 hexecutable
    obtain rfl : name' = name := hsame
    obtain ⟨ht, hexec⟩ := mem_filter.1 ht
    obtain ⟨i, slot', hi, hslot', hread'⟩ := named_bound htargets hnamed ht
    have hexecutable : AddressOf pe mapped i true := by
      obtain ⟨hne, ⟨address, found, haddress, hfound, hexec'⟩ | ⟨_, -, hexec'⟩⟩ :=
        readSlot_some hread'
      · exact ⟨slot', address, found, hslot', hne, haddress, hfound, hexec'.trans hexec⟩
      · cases hexec'.symm.trans hexec
    cases target with
    | none =>
      exact absurd ⟨_, i, index, hname, hi, hentry, hexecutable,
        .inl ⟨slot, hslot, readSlot_none hread⟩⟩ hclear
    | some target =>
      obtain ⟨hne, ⟨address, found, haddress, hfound, hexec'⟩ | ⟨forwarded, hforwarded, -⟩⟩ :=
        readSlot_some hread
      · have hslotExec : AddressOf pe mapped index target.executable :=
          ⟨slot, address, found, hslot, hne, haddress, hfound, hexec'⟩
        cases hflag : target.executable with
        | true => exact hflag ▸ hslotExec
        | false =>
          exact absurd ⟨_, i, index, hname, hi, hentry, hexecutable,
            .inr (hflag ▸ hslotExec)⟩ hclear
      · -- The slot is forwarded: then the name is, and no wanted name is.
        have hordinals : (target.ordinal, forwarded) ∈ (forwardedOrdinals targets).reverse :=
          mem_reverse.2 (mem_filterMap.2 ⟨_, mem_of_getElem? htarget, by simp [hforwarded]⟩)
        obtain ⟨chosen, hchosen⟩ := ne_none_iff_exists'.1 (lookup_isSome hordinals)
        have hlisted : (.name name', chosen) ∈ info.forwardedExports := by
          rw [hforwards]
          exact mem_append_left _ (mem_reverse.2 (mem_filterMap.2
            ⟨_, hmem target rfl, by simp [hchosen]⟩))
        exact absurd hdirect (lookup_isSome hlisted)

end Accepted

/-- An add-in with a section of code and one of data. The host's exports are in the code; to them
come the given slots and names. -/
def addIn (slots : List (Nat × Nat)) (names : List (Option Name × Nat)) : PeFile where
  sectionAlignment := 4096
  fileAlignment    := 512
  sizeOfImage      := 12288
  sizeOfHeaders    := 512
  sections         := [⟨4096, 4096, 512, true⟩, ⟨8192, 16, 512, false⟩]
  slots            := (List.range 6).map (fun i => (i + 1, 4096 + i)) ++ slots
  names            := requiredXllExports.zipIdx.map (fun name => (some name.1, name.2)) ++ names
  target address   := some (.address address)
  rest             :=
    { PeInfo.default with expectedExports := requiredXllExports, crtPolicy := true }

theorem xll_export_surface_addIn : ∃ info mapped, parsePeFile (addIn [] []) = .ok info ∧
      verifyXllExports info [] = .ok () ∧ validateMappedSections (addIn [] []) = .ok mapped ∧
      (Surface (addIn [] []) info [] mapped ↔ ¬Shadowed (addIn [] []) info [] mapped) := by
  obtain ⟨info, hparse, hverify⟩ : ∃ info, parsePeFile (addIn [] []) = .ok info ∧
    verifyXllExports info [] = .ok () := ⟨_, rfl, rfl⟩
  obtain ⟨mapped, hmapped, h⟩ := xll_export_surface hparse hverify
  exact ⟨info, mapped, hparse, hverify, hmapped, h⟩

def shadowedAddIn : PeFile := addIn [(7, 8192)] [(some "xlAutoOpen".toList, 6)]

/-- A second name `xlAutoOpen`, at a slot of data, passes the check. -/
theorem xll_export_surface_shadowed :
    ∃ info mapped, parsePeFile shadowedAddIn = .ok info ∧ verifyXllExports info [] = .ok () ∧
      validateMappedSections shadowedAddIn = .ok mapped ∧
      ¬Surface shadowedAddIn info [] mapped := by
  refine ⟨_, _, rfl, rfl, rfl, fun surface => ?_⟩
  obtain ⟨slot, address, found, hslot, -, htarget, hfind, hexec⟩ :=
    surface.executable "xlAutoOpen".toList 6 (.inr (.inr (by decide))) (by decide)
  cases hslot
  cases htarget
  cases hfind
  cases hexec

end Xlfn.Package
