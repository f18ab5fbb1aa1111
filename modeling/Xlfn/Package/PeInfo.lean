import Xlfn.Package.Names

/-!
# Xlfn — what is known of a PE image

The result of parsing an image, and the libraries that are on every machine. Sets and maps are
given by their entries.

* `PeInfo` — the exports and imports of an image.
* `isSystem` — the libraries no package brings along.
-/

namespace Xlfn.Package

open List

inductive ExportSymbol where
  | name (name : Name)
  | ordinal (ordinal : Nat)
deriving DecidableEq

structure ForwardedExport where
  library : Name
  symbol  : ExportSymbol

inductive ImportTarget where
  | name (name : Name)
  | ordinal (ordinal : Nat)

structure PeInfo where
  exports             : List Name
  forwardedExports    : List (ExportSymbol × ForwardedExport)
  executableExports   : List Name
  hasExportManifest   : Bool
  expectedExports     : List Name
  crtPolicy           : Bool
  imports             : List Name
  importTargets       : List (Name × List ImportTarget)
  delayImports        : List Name
  delayImportTargets  : List (Name × List ImportTarget)
  exportedOrdinals    : List Nat
  nonzeroExportSlots  : List Nat
  namedExportSlots    : List Nat

namespace PeInfo

/-- `PeInfo::default`, of what is modelled. -/
def default : PeInfo where
  exports            := []
  forwardedExports   := []
  executableExports  := []
  hasExportManifest  := true
  expectedExports    := []
  crtPolicy          := false
  imports            := []
  importTargets      := []
  delayImports       := []
  delayImportTargets := []
  exportedOrdinals   := []
  nonzeroExportSlots := []
  namedExportSlots   := []

def hasExportSymbol (image : PeInfo) : ExportSymbol → Bool
  | .name name => image.exports.contains name
  | .ordinal ordinal => image.exportedOrdinals.contains ordinal

end PeInfo

/-- `BTreeMap<String, (String, PeInfo)>`: by the key, the name to show and the image. -/
abbrev Images := List (Name × Name × PeInfo)

/-- `SYSTEM_DLLS`. -/
def systemDlls : List Name :=
  ["advapi32.dll", "api-ms-win-core-synch-l1-1-0.dll", "api-ms-win-core-synch-l1-2-0.dll",
    "bcrypt.dll", "bcryptprimitives.dll", "cabinet.dll", "cfgmgr32.dll", "comctl32.dll",
    "comdlg32.dll", "combase.dll", "crypt32.dll", "d2d1.dll", "d3d11.dll", "dwrite.dll",
    "dwmapi.dll", "dxgi.dll", "gdi32.dll", "imm32.dll", "iphlpapi.dll", "kernel32.dll", "mpr.dll",
    "msvcrt.dll", "netapi32.dll", "ntdll.dll", "ole32.dll", "oleaut32.dll", "powrprof.dll",
    "psapi.dll", "rpcrt4.dll", "secur32.dll", "setupapi.dll", "shell32.dll", "shlwapi.dll",
    "ucrtbase.dll", "user32.dll", "userenv.dll", "uxtheme.dll", "version.dll", "winhttp.dll",
    "wininet.dll", "winmm.dll", "wintrust.dll", "ws2_32.dll"].map String.toList

def isSystem (name : Name) : Bool := systemDlls.contains name

theorem mem_of_lookup {K V : Type} [BEq K] [LawfulBEq K] {k : K} {v : V} {l : List (K × V)}
    (h : l.lookup k = some v) : (k, v) ∈ l := by
  obtain ⟨l₁, l₂, rfl, -⟩ := lookup_eq_some_iff.mp h
  exact mem_append_right _ mem_cons_self

/-- How much of a list is not seen yet. -/
def unseen {α : Type} [DecidableEq α] (all seen : List α) : Nat :=
  (all.filter fun x => x ∉ seen).length

/-- **Marking one that was not seen leaves fewer.** -/
theorem unseen_lt {α : Type} [DecidableEq α] {all seen seen' : List α} {x : α} (hx : x ∈ all)
    (hnew : x ∉ seen) (hmark : x ∈ seen') (hkeep : ∀ y ∈ seen, y ∈ seen') :
    unseen all seen' < unseen all seen := by
  have hsub : (all.filter fun y => y ∉ seen').Sublist
      ((all.filter fun y => y ∉ seen).filter fun y => y ∉ seen') := by
    rw [filter_filter]
    refine monotone_filter_right all fun y hy => ?_
    have hy := of_decide_eq_true hy
    simpa [hy] using fun hseen => hy (hkeep y hseen)
  refine Nat.lt_of_le_of_lt hsub.length_le ?_
  refine length_filter_lt_length_iff_exists.mpr ⟨x, ?_, by simpa using hmark⟩
  exact mem_filter.mpr ⟨hx, by simpa using hnew⟩

end Xlfn.Package
