import Mathlib.Algebra.GroupWithZero.Nat
import Mathlib.Data.Char
import Mathlib.Data.List.Lex

/-!
# Xlfn — portable file names

A file name of a package is in the ASCII subset of what Windows takes as a basename. Names that
differ in case only name the same file there, so a name is compared by its key.

* `validateWindowsBasename`, `windowsNameKey` — the code.
-/

namespace Xlfn.Package

/-- A file name or a component of a path. -/
abbrev Name := List Char

scoped instance decidableMem (name : Name) (names : List Name) : Decidable (name ∈ names) :=
  decidable_of_iff _ List.contains_iff_mem

inductive WindowsBasenameError where
  | empty
  | dotPath
  | nonAscii
  | trailingSpace
  | trailingPeriod
  | controlCharacter
  | reservedCharacter
  | reservedDeviceName
deriving DecidableEq

/-- `"<>:\"/\\|?*"`. -/
def reservedCharacters : Name := ['<', '>', ':', '"', '/', '\\', '|', '?', '*']

/-- The devices without a number. -/
def reservedDevices : List Name :=
  [['C', 'O', 'N'], ['P', 'R', 'N'], ['A', 'U', 'X'], ['N', 'U', 'L'],
    ['C', 'O', 'N', 'I', 'N', '$'], ['C', 'O', 'N', 'O', 'U', 'T', '$']]

/-- The devices with a number. -/
def isNumberedDevice : Name → Bool
  | [a, b, c, digit] =>
    ([a, b, c] == ['C', 'O', 'M'] || [a, b, c] == ['L', 'P', 'T']) && ('1' ≤ digit && digit ≤ '9')
  | _ => false

section

variable (name : Name)

def trimEnd : Name :=
  (name.reverse.dropWhile fun c => c == ' ' || c == '.').reverse

/-- The name before its first period, without blanks at its end, in upper case. -/
def stem : Name := (trimEnd (name.takeWhile (· != '.'))).map Char.toUpper

/-- `validate_windows_basename`. -/
def validateWindowsBasename : Except WindowsBasenameError Unit :=
  if name = [] then .error .empty
  else if name = ['.'] ∨ name = ['.', '.'] then .error .dotPath
  else if ¬name.all (·.toNat < 0x80) then .error .nonAscii
  else if name.getLast? = some ' ' then .error .trailingSpace
  else if name.getLast? = some '.' then .error .trailingPeriod
  else if name.any (·.toNat ≤ 0x1f) then .error .controlCharacter
  else if name.any reservedCharacters.contains then .error .reservedCharacter
  else if reservedDevices.contains (stem name) || isNumberedDevice (stem name) then
    .error .reservedDeviceName
  else .ok ()

/-- `str::to_ascii_lowercase`. -/
def toAsciiLowercase : Name := name.map Char.toLower

/-- `windows_name_key`. -/
def windowsNameKey : Except WindowsBasenameError Name := do
  validateWindowsBasename name
  .ok (toAsciiLowercase name)

/-- A name that may stand in a package. -/
def ValidName : Prop := validateWindowsBasename name = .ok ()

end

instance (name : Name) : Decidable (ValidName name) :=
  match h : validateWindowsBasename name with
  | .ok _ => .isTrue h
  | .error _ => .isFalse fun hvalid => by
    rw [ValidName, h] at hvalid
    cases hvalid

/-- The key of a valid name is its lower case. -/
theorem windowsNameKey_ok {name key : Name} :
    windowsNameKey name = .ok key ↔ ValidName name ∧ key = toAsciiLowercase name := by
  unfold windowsNameKey ValidName
  cases validateWindowsBasename name with
  | error e =>
    refine ⟨nofun, ?_⟩
    rintro ⟨⟨⟩, -⟩
  | ok _ =>
    constructor
    · intro h
      cases h
      exact ⟨rfl, rfl⟩
    · rintro ⟨-, rfl⟩
      rfl

theorem windowsNameKey_of_valid {name : Name} (h : ValidName name) :
    windowsNameKey name = .ok (toAsciiLowercase name) :=
  windowsNameKey_ok.mpr ⟨h, rfl⟩

end Xlfn.Package
