import Mathlib.Data.Rat.Floor
import Mathlib.Tactic.Linarith
import Xlfn.Lib.Gregorian

/-!
# Xlfn — Excel serial dates

`value/date.rs`: a serial date and its conversions from and to a Gregorian year, month and
day. A finite serial is the rational number it is; the sum of a serial and an epoch is then
exact, and the range check has the verdict of the rounded sum, since every bound is far below
the integers that a double cannot represent.

* `fromYmd` — the serial of a year, month and day.
* `toYmd` — the year, month and day of a serial, with its two searches.

Left out: the conversions of the `jiff` feature, which go through these, and the fraction of
a day.
-/

namespace Xlfn.Value

open Xlfn.Lib

-- ---- The conversions.

inductive ExcelDateSystem where
  | workbook
  | windows1900
  | mac1904
deriving DecidableEq

inductive InputError where
  | nonFinite
  | outOfRange
  | malformed (reason : String)
deriving DecidableEq

/-- `XllError::Input`, the only error of the conversions. -/
structure XllError where
  argument : String
  reason   : InputError
deriving DecidableEq

structure ExcelSerialDate where
  serial     : ℚ
  dateSystem : ExcelDateSystem
deriving DecidableEq

/-- `DAYS_BEFORE_MONTH`. -/
def daysBeforeMonth : List Int := [0, 31, 59, 90, 120, 151, 181, 212, 243, 273, 304, 334]

def isLeapYear (year : Int) : Bool :=
  year.tmod 4 == 0 && (year.tmod 100 != 0 || year.tmod 400 == 0)

def daysBeforeYear (year : Int) : Int :=
  let previous := year - 1
  365 * previous + previous.tdiv 4 - previous.tdiv 100 + previous.tdiv 400

/-- `MARCH_1900`. -/
def march1900 : Int := daysBeforeYear 1900 + 59

def daysInMonth (year month : Int) : Int :=
  if month = 2 ∧ isLeapYear year then 29
  else if month = 2 then 28
  else if month = 4 ∨ month = 6 ∨ month = 9 ∨ month = 11 then 30
  else 31

def dateEpoch (dateSystem : ExcelDateSystem) : Except XllError Int :=
  match dateSystem with
  | .windows1900 => .ok (daysBeforeYear 1900 - 1)
  | .mac1904 => .ok (daysBeforeYear 1904)
  | .workbook =>
    .error ⟨"date", .malformed "resolve the workbook date system before calendar conversion"⟩

def dateOutOfRange : XllError := ⟨"date", .outOfRange⟩

namespace ExcelSerialDate

/-- `new`; `none` is a number that is not finite. -/
def new (serial : Option ℚ) (dateSystem : ExcelDateSystem) : Except XllError ExcelSerialDate :=
  match serial with
  | none => .error ⟨"date", .nonFinite⟩
  | some serial => .ok ⟨serial, dateSystem⟩

def fromYmd (year month day : Int) (dateSystem : ExcelDateSystem) :
    Except XllError ExcelSerialDate :=
  match dateEpoch dateSystem with
  | .error error => .error error
  | .ok epoch =>
    if ¬ (1 ≤ year ∧ year ≤ 9999) ∨ ¬ (1 ≤ month ∧ month ≤ 12) ∨ day < 1 ∨
        day > daysInMonth year month then .error dateOutOfRange
    else
      let ordinal := daysBeforeYear year + daysBeforeMonth.getD (month - 1).toNat 0 +
        (if month > 2 ∧ isLeapYear year then 1 else 0) + day - 1
      let fictitiousDay := if dateSystem = .windows1900 ∧ ordinal ≥ march1900 then 1 else 0
      new (some (ordinal - epoch + fictitiousDay : Int)) dateSystem

section

variable (date : ExcelSerialDate)

/-- Serial day 60 of the 1900 system. -/
def isFictitious1900LeapDay : Bool :=
  date.dateSystem == .windows1900 && ⌊date.serial⌋ == 60

/-- The search for the year between `year` and `bound`. -/
def searchYear (ordinal year bound : Int) : Int :=
  if year + 1 < bound then
    let middle := year + (bound - year).tdiv 2
    if daysBeforeYear middle ≤ ordinal then searchYear ordinal middle bound
    else searchYear ordinal year middle
  else year
termination_by (bound - year).toNat
decreasing_by
  all_goals
    have hhalf : (bound - year).tdiv 2 = (bound - year) / 2 :=
      Int.tdiv_eq_ediv_of_nonneg (by omega)
    omega

theorem daysInMonth_pos (year month : Int) : 0 < daysInMonth year month := by
  unfold daysInMonth
  split
  · omega
  · split
    · omega
    · split <;> omega

/-- The loop over the months: the month of a day, and the day of the month. -/
def searchMonth (year day month : Int) : Int × Int :=
  if day ≥ daysInMonth year month then
    searchMonth year (day - daysInMonth year month) (month + 1)
  else (month, day)
termination_by day.toNat
decreasing_by
  have hpos := daysInMonth_pos year month
  omega

def calendarDay : Except XllError (Int × Int × Int) :=
  match dateEpoch date.dateSystem with
  | .error error => .error error
  | .ok epoch =>
    let serialDay := ⌊date.serial⌋
    if date.isFictitious1900LeapDay then
      .error ⟨"date", .malformed "1900-02-29 is not a Gregorian date"⟩
    else
      let fictitiousDay := if date.dateSystem = .windows1900 ∧ serialDay ≥ 61 then 1 else 0
      let ordinal := serialDay + (epoch - fictitiousDay)
      if ¬ (0 ≤ ordinal ∧ ordinal < daysBeforeYear 10000) then .error dateOutOfRange
      else
        let year := searchYear ordinal 1 10000
        let (month, day) := searchMonth year (ordinal - daysBeforeYear year) 1
        .ok (year, month, day + 1)

/-- The error of the conversion, under the name of a worksheet argument. -/
def toYmdWithArgument (argument : String) : Except XllError (Int × Int × Int) :=
  date.calendarDay.mapError fun error => { error with argument }

def toYmd : Except XllError (Int × Int × Int) :=
  date.toYmdWithArgument "date"

end

end ExcelSerialDate

end Xlfn.Value
