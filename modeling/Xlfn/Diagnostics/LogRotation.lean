import Mathlib.Algebra.GroupWithZero.Nat
import Xlfn.Lib.Fallible

/-!
# Xlfn — the rotating log

A log has an active file and some generations of older ones. A line that does not fit makes the
files move up by one; any step of that may fail and leave a gap.

* `writeLine`, `rotateLogFiles` — the code.
* `Kept` — what the files have, between any two steps.
-/

namespace Xlfn.Diagnostics

open Xlfn.Lib.Act
open Xlfn.Lib (Act)

-- ---- The code.

abbrev Line := List UInt8

def fileSize (file : List Line) : Nat := (file.map fun line => line.length + 1).sum

/-- The files by number, the active one is 0. `failures` says which of the steps to come fail, and
`overwritten` whether a rename found a file at its target. -/
structure Logs where
  files       : Nat → Option (List Line)
  overwritten : Bool
  failures    : Nat → Bool
  steps       : Nat

inductive LogError where
  | io
  | tooLong

structure LogPolicy where
  maximumBytes : UInt64
  generations  : Nat

abbrev Logging := Act Logs LogError

/-- A step on files, which may fail. -/
def fallible : Logging Unit := fun s =>
  (if s.failures s.steps then .error .io else .ok (), { s with steps := s.steps + 1 })

def Logs.set (s : Logs) (number : Nat) (file : Option (List Line)) : Logs :=
  { s with files := fun n => if n = number then file else s.files n }

/-- `fs::exists`. -/
def fileExists (number : Nat) : Logging Bool := do
  fallible
  let s ← get
  return (s.files number).isSome

/-- `fs::remove_file`. -/
def removeFile (number : Nat) : Logging Unit := do
  fallible
  modify fun s => s.set number none

/-- `fs::rename`, to the next number. -/
def renameUp (number : Nat) : Logging Unit := do
  fallible
  modify fun s =>
    { (s.set (number + 1) (s.files number)).set number none with
      overwritten := s.overwritten || (s.files (number + 1)).isSome }

/-- `OpenOptions::new().create(true).append(true).open`. -/
def openAppend : Logging Unit := do
  fallible
  modify fun s => s.set 0 (some ((s.files 0).getD []))

/-- `fs::metadata`, of the active file: its length if it is there. -/
def metadata : Logging (Option Nat) := do
  fallible
  let s ← get
  return (s.files 0).map fileSize

/-- `writeln!`; no file is longer than its length can say. -/
def append (line : Line) : Logging Unit := do
  fallible
  let s ← get
  let file := (s.files 0).getD [] ++ [line]
  if 2 ^ 64 ≤ fileSize file then fail .io
  else modify fun s => s.set 0 (some file)

def whenExists (number : Nat) (m : Logging Unit) : Logging Unit := do
  let found ← fileExists number
  if found then m else pure ()

/-- The loop of `rotate_log_files`, from a generation down. -/
def shift : Nat → Logging Unit
  | 0 => pure ()
  | generation + 1 => do
    whenExists (generation + 1) (renameUp (generation + 1))
    shift generation

def rotateLogFiles (generations : Nat) : Logging Unit :=
  if generations = 0 then whenExists 0 (removeFile 0)
  else do
    whenExists generations (removeFile generations)
    shift (generations - 1)
    whenExists 0 (renameUp 0)

/-- `RotatingLog::open_with_policy`; the lock is one more step that may fail. -/
def openWithPolicy (policy : LogPolicy) : Logging Unit := do
  fallible
  let length ← metadata
  if length.any fun length => policy.maximumBytes.toNat ≤ length then
    rotateLogFiles policy.generations
    openAppend
  else openAppend

/-- `RotatingLog::write_line`. -/
def writeLine (policy : LogPolicy) (line : Line) : Logging Unit := do
  let incoming := min (line.length + 1) (2 ^ 64 - 1)
  if policy.maximumBytes.toNat < incoming then fail .tooLong
  else do
    fallible
    openAppend
    let length ← metadata
    let size := length.getD 0
    if 0 < size ∧ policy.maximumBytes.toNat < min (size + incoming) (2 ^ 64 - 1) then do
      rotateLogFiles policy.generations
      openAppend
      append line
    else append line

-- ---- What the files have.

/-- The lines of the files from a number down. -/
def contents (files : Nat → Option (List Line)) : Nat → List Line
  | 0 => (files 0).getD []
  | number + 1 => (files (number + 1)).getD [] ++ contents files number

/-- **The files.** They have the last of the accepted lines, none is too large, and no rename lost
one. -/
structure Kept (policy : LogPolicy) (accepted : List Line) (s : Logs) : Prop where
  suffix      : contents s.files policy.generations <:+ accepted
  size        : ∀ number file, s.files number = some file →
    number ≤ policy.generations ∧ fileSize file ≤ policy.maximumBytes.toNat
  overwritten : s.overwritten = false

section Steps

variable {α β : Type} {policy : LogPolicy} {accepted : List Line} {s : Logs}
  {files files' : Nat → Option (List Line)} {P : (Nat → Option (List Line)) → Prop} {number : Nat}

theorem contents_congr (h : ∀ n ≤ number, (files n).getD [] = (files' n).getD []) :
    contents files number = contents files' number := by
  induction number with
  | zero => exact h 0 (Nat.le_refl 0)
  | succ number ih =>
    rw [contents, contents, h _ (Nat.le_refl _), ih fun n hn => h n (Nat.le_succ_of_le hn)]

/-- Moving a file up to a free number keeps the order of the lines. -/
theorem contents_renameUp {top : Nat} (hfree : s.files (number + 1) = none)
    (hle : number + 1 ≤ top) :
    contents ((s.set (number + 1) (s.files number)).set number none).files top =
      contents s.files top := by
  induction hle with
  | refl =>
    cases number with
    | zero => simp [contents, Logs.set, hfree]
    | succ number =>
      have hbelow : contents (fun n => if n = number + 1 then none else
          if n = number + 1 + 1 then s.files (number + 1) else s.files n) number =
          contents s.files number :=
        contents_congr fun n hn => by
          rw [if_neg (by omega), if_neg (by omega)]
      simp [contents, hbelow, hfree, Logs.set]
  | @step top hle ih =>
    have hle : number + 1 ≤ top := hle
    have htop : ((s.set (number + 1) (s.files number)).set number none).files (top + 1) =
        s.files (top + 1) := by
      simp [Logs.set, show top + 1 ≠ number by omega, show top ≠ number by omega]
    rw [contents, contents, ih, htop]

/-- Taking away the last file takes away the first lines. -/
theorem contents_remove (top : Nat) :
    contents (s.set top none).files top <:+ contents s.files top := by
  cases top with
  | zero => exact List.nil_suffix
  | succ top =>
    have hbelow : contents (s.set (top + 1) none).files top = contents s.files top :=
      contents_congr fun n hn => by simp [Logs.set, show n ≠ top + 1 by omega]
    rw [contents, contents, hbelow]
    simp [Logs.set]

/-- From files that are kept and satisfy `P`, they are kept however `m` ends, and satisfy `Q` where
it does not fail. -/
def Keeps (policy : LogPolicy) (P : (Nat → Option (List Line)) → Prop) (m : Logging α)
    (Q : α → (Nat → Option (List Line)) → Prop) : Prop :=
  ∀ accepted s, Kept policy accepted s → P s.files →
    wp m ⟨fun a t => Kept policy accepted t ∧ Q a t.files, fun _ t => Kept policy accepted t⟩ s

variable {Q : α → (Nat → Option (List Line)) → Prop}

theorem Keeps.wp_bind {m : Logging α} {f : α → Logging β} {R : Post Logs LogError β}
    (hm : Keeps policy P m Q) (h : Kept policy accepted s) (hP : P s.files)
    (hf : ∀ a t, Kept policy accepted t → Q a t.files → wp (f a) R t)
    (herror : ∀ e t, Kept policy accepted t → R.error e t) : wp (m >>= f) R s := by
  rw [Act.wp_bind]
  exact wp_mono (hm accepted s h hP) (fun a t ht => hf a t ht.1 ht.2) herror

theorem Keeps.bind {m : Logging α} {f : α → Logging β} {R : β → (Nat → Option (List Line)) → Prop}
    (hm : Keeps policy P m Q) (hf : ∀ a, Keeps policy (Q a) (f a) R) :
    Keeps policy P (m >>= f) R := fun _ _ h hP =>
  hm.wp_bind h hP (fun a t ht hQ => hf a _ t ht hQ) fun _ _ => id

theorem Keeps.pure {a : α} (h : ∀ files, P files → Q a files) : Keeps policy P (pure a) Q :=
  fun _ s hs hP => ⟨hs, h s.files hP⟩

/-- A step that may fail changes no file. -/
theorem Keeps.fallible : Keeps policy P fallible fun _ => P := by
  intro accepted s h hP
  unfold wp Diagnostics.fallible
  split
  · exact ⟨h.suffix, h.size, h.overwritten⟩
  · exact ⟨⟨h.suffix, h.size, h.overwritten⟩, hP⟩

theorem Keeps.fileExists (number : Nat) : Keeps policy P (fileExists number) fun found files =>
    P files ∧ found = (files number).isSome :=
  Keeps.fallible.bind fun _ _ _ h hP => ⟨h, hP, rfl⟩

theorem Keeps.metadata : Keeps policy P metadata fun length files =>
    P files ∧ length = (files 0).map fileSize :=
  Keeps.fallible.bind fun _ _ _ h hP => ⟨h, hP, rfl⟩

theorem Keeps.whenExists {m : Logging Unit} {Q : Unit → (Nat → Option (List Line)) → Prop}
    (hm : Keeps policy (fun files => P files ∧ (files number).isSome) m Q)
    (hskip : ∀ files, P files → files number = none → Q () files) :
    Keeps policy P (whenExists number m) Q := by
  refine (Keeps.fileExists number).bind fun found => ?_
  cases found with
  | true => exact fun accepted s h hP => hm accepted s h ⟨hP.1, hP.2.symm⟩
  | false => exact .pure fun files hP => hskip files hP.1 (Option.not_isSome_iff_eq_none.1 (by
      rw [← hP.2]
      exact Bool.false_ne_true))

/-- The last file may be removed. -/
theorem Keeps.removeFile : Keeps policy P (removeFile policy.generations)
    fun _ files => files policy.generations = none := by
  refine Keeps.fallible.bind fun _ accepted s h _ => ⟨⟨(contents_remove _).trans h.suffix,
    fun number file hfile => h.size number file ?_, h.overwritten⟩, by simp [Logs.set]⟩
  simp only [Logs.set] at hfile
  split at hfile
  · cases hfile
  · exact hfile

/-- A file may be moved to a free number. -/
theorem Keeps.renameUp (hlt : number < policy.generations) :
    Keeps policy (fun files => files (number + 1) = none) (renameUp number)
      fun _ files => files number = none := by
  refine Keeps.fallible.bind fun _ accepted s h hfree => ⟨⟨?_, fun n file hfile => ?_, ?_⟩, ?_⟩
  · exact (contents_renameUp hfree hlt).symm ▸ h.suffix
  · simp only [Logs.set] at hfile
    split at hfile
    · cases hfile
    split at hfile
    · next hn => exact ⟨hn ▸ hlt, (h.size _ _ hfile).2⟩
    · exact h.size n file hfile
  · simp [h.overwritten, hfree]
  · simp [Logs.set]

theorem Keeps.shift {generation : Nat} (hlt : generation < policy.generations) :
    Keeps policy (fun files => files (generation + 1) = none) (shift generation)
      fun _ files => files 1 = none := by
  induction generation with
  | zero => exact .pure fun _ => id
  | succ generation ih =>
    refine (Keeps.whenExists ?_ ?_).bind fun _ => ih (Nat.lt_of_succ_lt hlt)
    · exact fun accepted s h hP => Keeps.renameUp hlt accepted s h hP.1
    · exact fun files _ hnone => hnone

/-- After a rotation there is no active file. -/
theorem Keeps.rotateLogFiles : Keeps policy P (rotateLogFiles policy.generations)
    fun _ files => files 0 = none := by
  unfold Diagnostics.rotateLogFiles
  split
  · next hzero =>
    refine .whenExists ?_ fun files _ hnone => hnone
    have h : Keeps policy (fun files => P files ∧ (files 0).isSome)
        (Diagnostics.removeFile policy.generations)
        fun _ files => files policy.generations = none := Keeps.removeFile
    rwa [hzero] at h
  · next hpos =>
    have hpos := Nat.pos_of_ne_zero hpos
    refine (Keeps.whenExists Keeps.removeFile fun files _ hnone => hnone).bind fun _ => ?_
    have hshift : Keeps policy (fun files => files policy.generations = none)
        (Diagnostics.shift (policy.generations - 1)) fun _ files => files 1 = none := by
      have h : Keeps policy (fun files => files (policy.generations - 1 + 1) = none)
          (Diagnostics.shift (policy.generations - 1)) fun _ files => files 1 = none :=
        Keeps.shift (Nat.sub_lt hpos Nat.zero_lt_one)
      rwa [Nat.sub_add_cancel hpos] at h
    refine hshift.bind fun _ => .whenExists ?_ fun files _ hnone => hnone
    exact fun accepted s h hP => Keeps.renameUp hpos accepted s h hP.1

theorem Keeps.openAppend {file : Option (List Line)} :
    Keeps policy (fun files => files 0 = file) openAppend
      fun _ files => files 0 = some (file.getD []) := by
  refine Keeps.fallible.bind fun _ accepted s h hfile =>
    ⟨⟨?_, fun n file' hfile' => ?_, h.overwritten⟩, by simp [Logs.set, hfile]⟩
  · refine (contents_congr fun n _ => ?_).symm ▸ h.suffix
    simp only [Logs.set]
    split
    · next hn => rw [hn, Option.getD_some]
    · rfl
  · simp only [Logs.set] at hfile'
    split at hfile'
    · next hn =>
      cases hfile'
      refine ⟨hn ▸ Nat.zero_le _, ?_⟩
      cases hzero : s.files 0 with
      | none => exact Nat.zero_le _
      | some file => exact (h.size 0 file hzero).2
    · exact h.size n file' hfile'

theorem contents_append {line : Line} (top : Nat) :
    contents (s.set 0 (some ((s.files 0).getD [] ++ [line]))).files top =
      contents s.files top ++ [line] := by
  induction top with
  | zero => simp [contents, Logs.set]
  | succ top ih =>
    rw [contents, ih, contents, List.append_assoc]
    simp [Logs.set]

/-- A line that fits is accepted, or nothing changes. -/
theorem wp_append {line : Line} (h : Kept policy accepted s)
    (hfits : fileSize ((s.files 0).getD [] ++ [line]) < 2 ^ 64 →
      fileSize ((s.files 0).getD [] ++ [line]) ≤ policy.maximumBytes.toNat) :
    wp (append line)
      ⟨fun _ t => Kept policy (accepted ++ [line]) t, fun _ t => Kept policy accepted t⟩ s := by
  refine Keeps.fallible.wp_bind (P := fun files => files = s.files) h rfl (fun _ t ht hfiles => ?_)
    fun _ _ => id
  rw [← hfiles] at hfits
  rw [wp_bind, wp_get]
  dsimp only
  split
  · exact ht
  · next hlt =>
    refine ⟨?_, fun n file hfile => ?_, ht.overwritten⟩
    · obtain ⟨before, hbefore⟩ := ht.suffix
      exact ⟨before, by rw [contents_append, ← List.append_assoc, hbefore]⟩
    · simp only [Logs.set] at hfile
      split at hfile
      · next hn =>
        cases hfile
        exact ⟨hn ▸ Nat.zero_le _, hfits (Nat.lt_of_not_le hlt)⟩
      · exact ht.size n file hfile

theorem Keeps.openWithPolicy :
    Keeps policy (fun _ => True) (openWithPolicy policy) fun _ _ => True := by
  refine Keeps.fallible.bind fun _ => Keeps.metadata.bind fun length => ?_
  split
  · refine Keeps.rotateLogFiles.bind fun _ accepted s h hnone => ?_
    exact wp_mono (Keeps.openAppend accepted s h hnone) (fun _ _ ht => ⟨ht.1, trivial⟩)
      fun _ _ => id
  · exact fun accepted s h _ =>
      wp_mono (Keeps.openAppend accepted s h rfl) (fun _ _ ht => ⟨ht.1, trivial⟩) fun _ _ => id

/-- **Writing a line.** It is the last of the lines where the call succeeds; where it fails, the
files have no other lines than before. -/
theorem wp_writeLine (h : Kept policy accepted s) (line : Line) : wp (writeLine policy line)
      ⟨fun _ t => Kept policy (accepted ++ [line]) t, fun _ t => Kept policy accepted t⟩ s := by
  have hsize : ∀ file : List Line, fileSize (file ++ [line]) = fileSize file + (line.length + 1) :=
    fun file => by simp [fileSize]
  unfold writeLine
  dsimp only
  split
  · exact h
  next hincoming =>
  have hmax := policy.maximumBytes.toNat_lt
  refine Keeps.fallible.wp_bind (P := fun files => files 0 = s.files 0) h rfl
    (fun _ t ht hfile => ?_) fun _ _ => id
  refine Keeps.openAppend.wp_bind ht hfile (fun _ t ht hfile => ?_) fun _ _ => id
  refine Keeps.metadata.wp_bind (P := fun files => files 0 = _) ht hfile
    (fun length t ht hlength => ?_) fun _ _ => id
  obtain ⟨hfile, rfl⟩ := hlength
  rw [hfile, Option.map_some, Option.getD_some]
  split
  · refine Keeps.rotateLogFiles.wp_bind (P := fun _ => True) ht trivial (fun _ t ht hnone => ?_)
      fun _ _ => id
    refine Keeps.openAppend.wp_bind ht hnone (fun _ t ht hfile => wp_append ht ?_) fun _ _ => id
    rw [hfile, Option.getD_some, hsize]
    simp only [Option.getD_none, fileSize, List.map_nil, List.sum_nil]
    omega
  · next hroom =>
    refine wp_append ht ?_
    rw [hfile, Option.getD_some, hsize]
    omega

end Steps

-- ---- The runs.

/-- The lines that were accepted, after one more call. -/
def acceptedBy (accepted : List Line) (line : Line) : Except LogError Unit → List Line
  | .ok _ => accepted ++ [line]
  | .error _ => accepted

/-- The runs: the lines that were accepted, and what is left of the files. -/
inductive Written (policy : LogPolicy) : List Line → Logs → Prop where
  | start (failures : Nat → Bool) : Written policy [] ⟨fun _ => none, false, failures, 0⟩
  | opened {accepted : List Line} {s : Logs} (h : Written policy accepted s) :
      Written policy accepted (openWithPolicy policy s).2
  | wrote {accepted : List Line} {s : Logs} (h : Written policy accepted s) (line : Line) :
      Written policy (acceptedBy accepted line (writeLine policy line s).1)
        (writeLine policy line s).2

/-- **The log keeps the last lines.** In every run, whichever steps failed, the files read from the
oldest to the active one have the last of the accepted lines in their order, no file is larger than
allowed, and no rename found a file at its target. -/
theorem log_keeps_suffix {policy : LogPolicy} {accepted : List Line} {s : Logs}
    (h : Written policy accepted s) :
    contents s.files policy.generations <:+ accepted ∧
    (∀ number file, s.files number = some file →
      number ≤ policy.generations ∧ fileSize file ≤ policy.maximumBytes.toNat) ∧
    s.overwritten = false := by
  have hkept : Kept policy accepted s := by
    induction h with
    | start failures =>
      refine ⟨?_, nofun, rfl⟩
      have hnil : ∀ top, contents (fun _ => none) top = [] := by
        intro top
        induction top with
        | zero => rfl
        | succ top ih => rw [contents, ih]; rfl
      exact hnil _ ▸ List.nil_suffix
    | @opened accepted s h ih =>
      have hwp := Keeps.openWithPolicy accepted s ih trivial
      unfold wp at hwp
      generalize openWithPolicy policy s = ended at hwp ⊢
      match ended, hwp with
      | (.ok _, t), hwp => exact hwp.1
      | (.error _, t), hwp => exact hwp
    | @wrote accepted s h line ih =>
      have hwp := wp_writeLine ih line
      unfold wp at hwp
      generalize writeLine policy line s = ended at hwp ⊢
      match ended, hwp with
      | (.ok _, t), hwp => exact hwp
      | (.error _, t), hwp => exact hwp
  exact ⟨hkept.suffix, hkept.size, hkept.overwritten⟩

/-- Two generations. The second rotation has moved the first generation up when its next rename
fails; the line is written again, and the third rotation removes the oldest line. -/
theorem log_keeps_suffix_rotated :
    ∃ accepted s, Written ⟨4, 2⟩ accepted s ∧ accepted = [[1, 2], [3], [4, 5], [6, 7]] ∧
      (List.range 3).map s.files = [some [[6, 7]], some [[4, 5]], some [[3]]] ∧
      contents s.files 2 <:+ accepted ∧ s.overwritten = false := by
  have h : Written ⟨4, 2⟩ _ _ :=
    ((((((Written.start fun n => n = 23).opened.wrote [1, 2]).wrote [3]).wrote [4, 5]).wrote
      [4, 5]).wrote [6, 7])
  exact ⟨_, _, h, by decide +kernel, by decide +kernel, (log_keeps_suffix h).1,
    (log_keeps_suffix h).2.2⟩

end Xlfn.Diagnostics
