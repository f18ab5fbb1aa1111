import Xlfn.Value.Date

/-!
# Xlfn — serial dates and the calendar

The arithmetic of `value/date.rs` is that of the Gregorian calendar, its two searches find the
date of a number, and the fictitious day moves the serials from March 1900 on by one.
-/

namespace Xlfn.Value

open Xlfn.Lib ExcelSerialDate

-- ---- The arithmetic of the code is that of the calendar.

theorem isLeapYear_iff (year : ℤ) : isLeapYear year = true ↔ IsLeap year := by
  unfold isLeapYear IsLeap
  simp [Int.dvd_iff_tmod_eq_zero]

theorem daysInMonth_eq (year month : ℤ) : daysInMonth year month = monthLength year month := by
  unfold daysInMonth monthLength
  simp only [isLeapYear_iff]
  by_cases hmonth : month = 2
  · by_cases hleap : IsLeap year
    · simp [hmonth, hleap]
    · simp [hmonth, hleap]
  · simp [hmonth]

theorem daysBeforeYear_eq {year : ℤ} (h : 1 ≤ year) : daysBeforeYear year = yearStart year := by
  unfold daysBeforeYear yearStart
  dsimp only
  rw [Int.tdiv_eq_ediv_of_nonneg (by omega), Int.tdiv_eq_ediv_of_nonneg (by omega),
    Int.tdiv_eq_ediv_of_nonneg (by omega)]

theorem daysBeforeMonth_eq (year : ℤ) {month : ℤ} (h : 1 ≤ month) (h' : month ≤ 12) :
    daysBeforeMonth.getD (month - 1).toNat 0 + (if month > 2 ∧ isLeapYear year then 1 else 0) =
      monthStart year month := by
  simp only [isLeapYear_iff]
  by_cases hleap : IsLeap year
  · interval_cases month <;>
      simp [daysBeforeMonth, monthStart, Finset.sum_range_succ, monthLength, hleap]
  · interval_cases month <;>
      simp [daysBeforeMonth, monthStart, Finset.sum_range_succ, monthLength, hleap]

-- ---- The two searches.

/-- **The search of the year** keeps the number between the starts of its bounds. -/
theorem searchYear_spec {ordinal year bound : ℤ} (hyear : 1 ≤ year) (hlt : year < bound)
    (hfirst : yearStart year ≤ ordinal) (hlast : ordinal < yearStart bound) :
    1 ≤ searchYear ordinal year bound ∧
      searchYear ordinal year bound < bound ∧
      yearStart (searchYear ordinal year bound) ≤ ordinal ∧
      ordinal < yearStart (searchYear ordinal year bound + 1) := by
  induction year, bound using searchYear.induct ordinal with
  | case1 year bound hopen middle hle ih =>
    have hhalf : (bound - year).tdiv 2 = (bound - year) / 2 :=
      Int.tdiv_eq_ediv_of_nonneg (by omega)
    rw [searchYear, if_pos hopen, if_pos hle]
    refine ih (by omega) (by omega) ?_ hlast
    rw [← daysBeforeYear_eq (by omega)]
    exact hle
  | case2 year bound hopen middle hnot ih =>
    have hhalf : (bound - year).tdiv 2 = (bound - year) / 2 :=
      Int.tdiv_eq_ediv_of_nonneg (by omega)
    have hmiddle : middle = year + (bound - year).tdiv 2 := rfl
    rw [searchYear, if_pos hopen, if_neg hnot]
    obtain ⟨h₁, h₂, h₃⟩ := ih hyear (by omega) hfirst (by
      rw [← daysBeforeYear_eq (by omega)]
      exact lt_of_not_ge hnot)
    exact ⟨h₁, lt_trans h₂ (by omega), h₃⟩
  | case3 year bound hclosed =>
    rw [searchYear, if_neg hclosed]
    have hbound : bound = year + 1 := by omega
    exact ⟨hyear, hlt, hfirst, hbound ▸ hlast⟩

/-- **The loop over the months** moves whole months from the day to the month. -/
theorem searchMonth_spec (year : ℤ) {day month : ℤ} (hmonth : 1 ≤ month) (hmonth' : month ≤ 12)
    (hday : 0 ≤ day) (hlast : monthStart year month + day < yearLength year) :
    ∃ month' day', searchMonth year day month = (month', day') ∧ 1 ≤ month' ∧
      month' ≤ 12 ∧ 0 ≤ day' ∧ day' < monthLength year month' ∧
      monthStart year month' + day' = monthStart year month + day := by
  induction day, month using searchMonth.induct year with
  | case1 day month hge ih =>
    rw [searchMonth, if_pos hge]
    rw [daysInMonth_eq] at hge ih ⊢
    have hnext := monthStart_succ year hmonth
    have hdecember : month + 1 ≤ 12 := by
      by_contra hthirteen
      have heq : month + 1 = 13 := by omega
      rw [heq, monthStart_thirteen] at hnext
      omega
    obtain ⟨month', day', heq, h₁, h₂, h₃, h₄, h₅⟩ := ih (by omega) hdecember (by omega) (by omega)
    exact ⟨month', day', heq, h₁, h₂, h₃, h₄, by omega⟩
  | case2 day month hlt =>
    rw [searchMonth, if_neg hlt]
    rw [daysInMonth_eq] at hlt
    exact ⟨month, day, rfl, hmonth, hmonth', hday, by omega, rfl⟩

-- ---- Dates and serials.

/-- A date of the years that the code supports. -/
def Supported (date : CivilDate) : Prop := date.Valid ∧ 1 ≤ date.year ∧ date.year ≤ 9999

instance (date : CivilDate) : Decidable (Supported date) := inferInstanceAs (Decidable (_ ∧ _))

/-- The serial of a date in a resolved system: its number, from the epoch of the system, with
one more for the fictitious day from March 1900. -/
def serialOf (dateSystem : ExcelDateSystem) (date : CivilDate) : ℤ :=
  match dateSystem with
  | .windows1900 =>
    date.dayNumber - 693594 + (if (⟨1900, 2, 28⟩ : CivilDate).Before date then 1 else 0)
  | _ => date.dayNumber - 695055

variable {dateSystem : ExcelDateSystem} {date date' : CivilDate}

theorem dayNumber_feb28 : (⟨1900, 2, 28⟩ : CivilDate).dayNumber = 693653 := rfl

theorem valid_feb28 :
    (⟨1900, 2, 28⟩ : CivilDate).Valid := ⟨by decide, by decide, by decide, by decide⟩

theorem before_iff (h : date.Valid) :
    (⟨1900, 2, 28⟩ : CivilDate).Before date ↔ 693654 ≤ date.dayNumber := by
  rw [← valid_feb28.dayNumber_lt_iff h, dayNumber_feb28]
  exact Int.add_one_le_iff.symm

theorem dateEpoch_eq (hsystem : dateSystem ≠ .workbook) :
    dateEpoch dateSystem = .ok (if dateSystem = .windows1900 then 693594 else 695055) := by
  cases dateSystem with
  | workbook => exact absurd rfl hsystem
  | windows1900 => rfl
  | mac1904 => rfl

theorem serialOf_eq (hsystem : dateSystem ≠ .workbook) (h : date.Valid) : serialOf dateSystem date =
      date.dayNumber - (if dateSystem = .windows1900 then 693594 else 695055) +
        (if dateSystem = .windows1900 ∧ 693654 ≤ date.dayNumber then 1 else 0) := by
  cases dateSystem with
  | workbook => exact absurd rfl hsystem
  | windows1900 =>
    simp only [serialOf, before_iff h, true_and, if_true]
  | mac1904 => simp [serialOf]

theorem Supported.dayNumber_bounds (h : Supported date) :
    0 ≤ date.dayNumber ∧ date.dayNumber < 3652059 := by
  obtain ⟨hvalid, hfirst, hlast⟩ := h
  obtain ⟨h₁, h₂⟩ := hvalid.dayNumber_bounds
  have hstart : yearStart 1 ≤ yearStart date.year := by
    rcases eq_or_lt_of_le hfirst with heq | hlt
    · rw [← heq]
    · exact le_trans (by have := yearLength_pos 1; omega) (yearStart_add_le hlt)
  have hend : yearStart (date.year + 1) ≤ yearStart 10000 := by
    rcases eq_or_lt_of_le hlast with heq | hlt
    · rw [heq]
      rfl
    · refine le_trans ?_ (yearStart_add_le (show date.year + 1 < 10000 by omega))
      have := yearLength_pos (date.year + 1)
      omega
  have h10000 : yearStart 10000 = 3652059 := rfl
  rw [yearStart_one] at hstart
  omega

/-- **The code numbers the dates of the calendar**, and refuses anything else. -/
theorem fromYmd_eq (hsystem : dateSystem ≠ .workbook) (year month day : ℤ) :
    fromYmd year month day dateSystem =
      if Supported ⟨year, month, day⟩ then
        .ok ⟨(serialOf dateSystem ⟨year, month, day⟩ : ℤ), dateSystem⟩
      else .error dateOutOfRange := by
  unfold fromYmd
  rw [dateEpoch_eq hsystem]
  dsimp only
  by_cases hout : ¬ (1 ≤ year ∧ year ≤ 9999) ∨ ¬ (1 ≤ month ∧ month ≤ 12) ∨ day < 1 ∨
      day > daysInMonth year month
  · rw [if_pos hout, if_neg]
    rintro ⟨hvalid, hfirst, hlast⟩
    obtain ⟨h₁, h₂, h₃, h₄⟩ := hvalid
    rw [daysInMonth_eq] at hout
    dsimp only at h₁ h₂ h₃ h₄ hfirst hlast
    omega
  · rw [if_neg hout]
    rw [not_or, not_or, not_or, not_not, not_not, not_lt, not_lt, daysInMonth_eq] at hout
    obtain ⟨⟨hfirst, hlast⟩, ⟨h₁, h₂⟩, h₃, h₄⟩ := hout
    have hvalid : (⟨year, month, day⟩ : CivilDate).Valid := ⟨h₁, h₂, h₃, h₄⟩
    have hordinal : daysBeforeYear year + daysBeforeMonth.getD (month - 1).toNat 0 +
        (if month > 2 ∧ isLeapYear year then 1 else 0) + day - 1 =
        (⟨year, month, day⟩ : CivilDate).dayNumber := by
      rw [CivilDate.dayNumber, daysBeforeYear_eq hfirst, ← daysBeforeMonth_eq year h₁ h₂]
      ring
    have hsupported : Supported ⟨year, month, day⟩ := ⟨hvalid, hfirst, hlast⟩
    rw [hordinal, if_pos hsupported, serialOf_eq hsystem hvalid]
    rfl

/-- Every number of a supported year belongs to a supported date, and the searches find it. -/
theorem search_eq {ordinal : ℤ} (hfirst : 0 ≤ ordinal) (hlast : ordinal < 3652059) :
    ∃ date : CivilDate, Supported date ∧ date.dayNumber = ordinal ∧
      searchYear ordinal 1 10000 = date.year ∧
      searchMonth date.year (ordinal - daysBeforeYear date.year) 1 =
        (date.month, date.day - 1) := by
  obtain ⟨h₁, h₂, h₃, h₄⟩ := searchYear_spec (show (1 : ℤ) ≤ 1 from le_rfl)
    (show (1 : ℤ) < 10000 by omega) (yearStart_one.trans_le hfirst) hlast
  generalize searchYear ordinal 1 10000 = year at h₁ h₂ h₃ h₄
  have hstart := yearStart_succ year
  obtain ⟨month, day, heq, hm₁, hm₂, hd₁, hd₂, hsum⟩ := searchMonth_spec year
    (show (1 : ℤ) ≤ 1 from le_rfl) (show (1 : ℤ) ≤ 12 by omega)
    (show 0 ≤ ordinal - yearStart year by omega) (by rw [monthStart_one]; omega)
  rw [monthStart_one] at hsum
  refine ⟨⟨year, month, day + 1⟩, ⟨⟨hm₁, hm₂, by dsimp only; omega, by dsimp only; omega⟩, h₁,
    by dsimp only; omega⟩, ?_, rfl, ?_⟩
  · rw [CivilDate.dayNumber]
    dsimp only
    omega
  · dsimp only
    rw [daysBeforeYear_eq h₁, heq, add_sub_cancel_right]

theorem decompose_eq_ok (ordinal year month day : ℤ) (f : XllError → XllError) :
    (if ¬ (0 ≤ ordinal ∧ ordinal < daysBeforeYear 10000) then .error dateOutOfRange
      else .ok (searchYear ordinal 1 10000, (searchMonth (searchYear ordinal 1 10000)
          (ordinal - daysBeforeYear (searchYear ordinal 1 10000)) 1).1,
        (searchMonth (searchYear ordinal 1 10000)
          (ordinal - daysBeforeYear (searchYear ordinal 1 10000)) 1).2 + 1) :
      Except XllError (ℤ × ℤ × ℤ)).mapError f = .ok (year, month, day) ↔
      Supported ⟨year, month, day⟩ ∧ (⟨year, month, day⟩ : CivilDate).dayNumber = ordinal := by
  have hend : daysBeforeYear 10000 = 3652059 := rfl
  rw [hend]
  by_cases hrange : 0 ≤ ordinal ∧ ordinal < 3652059
  · rw [if_neg (not_not.mpr hrange)]
    obtain ⟨date, hsupported, hnumber, hyear, hmonth⟩ := search_eq hrange.1 hrange.2
    rw [hyear, hmonth]
    dsimp only [Except.mapError]
    rw [sub_add_cancel, Except.ok.injEq]
    constructor
    · rintro ⟨⟩
      exact ⟨hsupported, hnumber⟩
    · rintro ⟨hsupported', hnumber'⟩
      have heq := hsupported.1.dayNumber_injective hsupported'.1 (hnumber.trans hnumber'.symm)
      rw [heq]
  · rw [if_pos hrange]
    refine ⟨nofun, ?_⟩
    rintro ⟨hsupported, rfl⟩
    exact absurd hsupported.dayNumber_bounds hrange

/-- **The code finds the date of a serial**, of any serial whose day is that of a date. -/
theorem toYmd_eq_ok (hsystem : dateSystem ≠ .workbook) (serial : ℚ) (year month day : ℤ) :
    (⟨serial, dateSystem⟩ : ExcelSerialDate).toYmd = .ok (year, month, day) ↔
      Supported ⟨year, month, day⟩ ∧ ⌊serial⌋ = serialOf dateSystem ⟨year, month, day⟩ := by
  unfold toYmd toYmdWithArgument calendarDay
    isFictitious1900LeapDay
  rw [dateEpoch_eq hsystem]
  dsimp only
  generalize ⌊serial⌋ = serialDay
  cases dateSystem with
  | workbook => exact absurd rfl hsystem
  | mac1904 =>
    have hsystems : (ExcelDateSystem.mac1904 == ExcelDateSystem.windows1900) = false := rfl
    simp only [hsystems, Bool.false_and, Bool.false_eq_true, reduceCtorEq, false_and, if_false]
    rw [decompose_eq_ok]
    refine and_congr_right fun hsupported => ?_
    rw [serialOf_eq hsystem hsupported.1]
    simp only [reduceCtorEq, false_and, if_false]
    omega
  | windows1900 =>
    simp only [beq_self_eq_true, Bool.true_and, beq_iff_eq, true_and, if_true]
    by_cases hsixty : serialDay = 60
    · rw [if_pos hsixty]
      refine ⟨nofun, ?_⟩
      rintro ⟨⟨hvalid, -⟩, hserial⟩
      rw [serialOf_eq hsystem hvalid] at hserial
      simp only [if_true, true_and] at hserial
      split at hserial <;> omega
    · rw [if_neg hsixty, decompose_eq_ok]
      refine and_congr_right fun hsupported => ?_
      rw [serialOf_eq hsystem hsupported.1]
      simp only [if_true, true_and]
      split <;> split <;> omega

-- ---- The conversions.

theorem serialOf_lt_iff (hsystem : dateSystem ≠ .workbook) (h : date.Valid) (h' : date'.Valid) :
    serialOf dateSystem date < serialOf dateSystem date' ↔ date.Before date' := by
  rw [← h.dayNumber_lt_iff h', serialOf_eq hsystem h, serialOf_eq hsystem h']
  by_cases hwindows : dateSystem = .windows1900
  · simp only [hwindows, if_true, true_and]
    split <;> split <;> omega
  · simp only [hwindows, if_false, false_and]
    omega

/-- **Consecutive dates have consecutive serials**, except across the fictitious day. -/
theorem serialOf_next (hsystem : dateSystem ≠ .workbook) (h : date.Valid) :
    serialOf dateSystem date.next = serialOf dateSystem date +
      if dateSystem = .windows1900 ∧ date = ⟨1900, 2, 28⟩ then 2 else 1 := by
  have hnext := h.dayNumber_next
  have hgap : date = ⟨1900, 2, 28⟩ ↔ date.dayNumber = 693653 := by
    constructor
    · rintro rfl
      rfl
    · intro heq
      exact h.dayNumber_injective valid_feb28 heq
  rw [serialOf_eq hsystem h, serialOf_eq hsystem h.next, hnext]
  by_cases hwindows : dateSystem = .windows1900
  · simp only [hwindows, hgap, if_true, true_and]
    split <;> split <;> split <;> omega
  · simp only [hwindows, if_false, false_and]
    omega

theorem serialOf_ne_sixty (h : date.Valid) : serialOf .windows1900 date ≠ 60 := by
  rw [serialOf_eq (by decide) h]
  simp only [if_true, true_and]
  split <;> omega

theorem fromYmd_workbook (year month day : ℤ) :
    ∃ error, fromYmd year month day .workbook = .error error := ⟨_, rfl⟩

theorem toYmd_workbook (serial : ℚ) :
    ∃ error, (⟨serial, .workbook⟩ : ExcelSerialDate).toYmd = .error error := ⟨_, rfl⟩

/-- A date of `from_ymd` is that of a supported date in a resolved system. -/
theorem fromYmd_eq_ok {year month day : ℤ} {result : ExcelSerialDate}
    (h : fromYmd year month day dateSystem = .ok result) :
    dateSystem ≠ .workbook ∧ Supported ⟨year, month, day⟩ ∧
      result = ⟨(serialOf dateSystem ⟨year, month, day⟩ : ℤ), dateSystem⟩ := by
  by_cases hsystem : dateSystem = .workbook
  · subst hsystem
    obtain ⟨error, herror⟩ := fromYmd_workbook year month day
    rw [herror] at h
    cases h
  · rw [fromYmd_eq hsystem] at h
    split at h
    · next hsupported =>
      cases h
      exact ⟨hsystem, hsupported, rfl⟩
    · cases h

theorem exists_serialOf (hsystem : dateSystem ≠ .workbook) (serial : ℤ) :
    (∃ date, Supported date ∧ serial = serialOf dateSystem date) ↔
      serialOf dateSystem ⟨1, 1, 1⟩ ≤ serial ∧ serial ≤ serialOf dateSystem ⟨9999, 12, 31⟩ ∧
        ¬ (dateSystem = .windows1900 ∧ serial = 60) := by
  have hfirst : (⟨1, 1, 1⟩ : CivilDate).Valid := by decide
  have hlast : (⟨9999, 12, 31⟩ : CivilDate).Valid := by decide
  have hzero : (⟨1, 1, 1⟩ : CivilDate).dayNumber = 0 := rfl
  have hend : (⟨9999, 12, 31⟩ : CivilDate).dayNumber = 3652058 := rfl
  rw [serialOf_eq hsystem hfirst, serialOf_eq hsystem hlast, hzero, hend]
  constructor
  · rintro ⟨date, hsupported, rfl⟩
    have hbounds := hsupported.dayNumber_bounds
    rw [serialOf_eq hsystem hsupported.1]
    by_cases hwindows : dateSystem = .windows1900
    · have hnotzero : ¬ (693654 : ℤ) ≤ 0 := by omega
      have hend : (693654 : ℤ) ≤ 3652058 := by omega
      simp only [hwindows, hnotzero, hend, if_true, if_false, true_and]
      split <;> omega
    · simp only [hwindows, if_false, false_and, not_false_eq_true, and_true]
      omega
  · intro hrange
    obtain ⟨ordinal, hordinal, hordinal', hserial⟩ : ∃ ordinal : ℤ, 0 ≤ ordinal ∧
        ordinal < 3652059 ∧
        serial = ordinal - (if dateSystem = .windows1900 then 693594 else 695055) +
          (if dateSystem = .windows1900 ∧ 693654 ≤ ordinal then 1 else 0) := by
      by_cases hwindows : dateSystem = .windows1900
      · simp only [hwindows, if_true, true_and] at hrange ⊢
        refine ⟨serial + 693594 - (if 61 ≤ serial then 1 else 0), ?_, ?_, ?_⟩
        · split <;> omega
        · split <;> omega
        · split <;> split <;> omega
      · simp only [hwindows, if_false, false_and] at hrange ⊢
        exact ⟨serial + 695055, by omega, by omega, by omega⟩
    obtain ⟨date, hsupported, hnumber, -⟩ := search_eq hordinal hordinal'
    refine ⟨date, hsupported, ?_⟩
    rw [serialOf_eq hsystem hsupported.1, hnumber]
    exact hserial

/-- **Excel serial dates.** In a resolved system, and over all integers for years, months,
days and serials:

* a date of the calendar in the years from 1 to 9999 has a serial, and nothing else has one;
* an integral serial has a date exactly where it is the serial of one, which is everywhere
  between the serials of the first and the last date, but for the fictitious day;
* the two conversions are inverse to each other, and a serial with a fraction has the date
  of its floor;
* the serials are in the order of the dates;
* the next date has the next serial, and the first of March 1900 the one behind it;
* serial 60 of the 1900 system is no serial of a date and has none, whatever its fraction.

An unresolved system is refused. -/
theorem serial_dates_exact :
    (∀ dateSystem year month day, (∃ date, ExcelSerialDate.fromYmd year month day dateSystem =
        .ok date) ↔ dateSystem ≠ .workbook ∧ Supported ⟨year, month, day⟩) ∧
    (∀ dateSystem (serial : ℤ), (∃ ymd, (⟨serial, dateSystem⟩ : ExcelSerialDate).toYmd =
        .ok ymd) ↔ dateSystem ≠ .workbook ∧ serialOf dateSystem ⟨1, 1, 1⟩ ≤ serial ∧
          serial ≤ serialOf dateSystem ⟨9999, 12, 31⟩ ∧
          ¬ (dateSystem = .windows1900 ∧ serial = 60)) ∧
    (∀ dateSystem year month day (date : ExcelSerialDate),
      ExcelSerialDate.fromYmd year month day dateSystem = .ok date →
        date.toYmd = .ok (year, month, day) ∧ date.dateSystem = dateSystem ∧
          ∃ serial : ℤ, date.serial = serial) ∧
    (∀ dateSystem (serial : ℤ) year month day,
      (⟨serial, dateSystem⟩ : ExcelSerialDate).toYmd = .ok (year, month, day) →
        ExcelSerialDate.fromYmd year month day dateSystem = .ok ⟨serial, dateSystem⟩) ∧
    (∀ dateSystem (serial : ℚ), (⟨serial, dateSystem⟩ : ExcelSerialDate).toYmd =
      (⟨(⌊serial⌋ : ℤ), dateSystem⟩ : ExcelSerialDate).toYmd) ∧
    (∀ dateSystem (d d' : CivilDate) (date date' : ExcelSerialDate),
      ExcelSerialDate.fromYmd d.year d.month d.day dateSystem = .ok date →
      ExcelSerialDate.fromYmd d'.year d'.month d'.day dateSystem = .ok date' →
        (d.Before d' ↔ date.serial < date'.serial)) ∧
    (∀ dateSystem (d : CivilDate) (date date' : ExcelSerialDate),
      ExcelSerialDate.fromYmd d.year d.month d.day dateSystem = .ok date →
      ExcelSerialDate.fromYmd d.next.year d.next.month d.next.day dateSystem = .ok date' →
        date'.serial = date.serial +
          if dateSystem = .windows1900 ∧ d = ⟨1900, 2, 28⟩ then 2 else 1) ∧
    (∀ year month day date, ExcelSerialDate.fromYmd year month day .windows1900 = .ok date →
      date.serial ≠ 60) ∧
    ∀ serial : ℚ, 60 ≤ serial → serial < 61 →
      ∃ error, (⟨serial, .windows1900⟩ : ExcelSerialDate).toYmd = .error error := by
  have hok : ∀ {dateSystem serial ymd}, (⟨serial, dateSystem⟩ : ExcelSerialDate).toYmd = .ok ymd →
      dateSystem ≠ .workbook := by
    rintro dateSystem serial ymd h rfl
    obtain ⟨error, herror⟩ := toYmd_workbook serial
    rw [herror] at h
    cases h
  refine ⟨?_, ?_, ?_, ?_, ?_, ?_, ?_, ?_, ?_⟩
  · intro dateSystem year month day
    constructor
    · rintro ⟨date, hdate⟩
      obtain ⟨hsystem, hsupported, -⟩ := fromYmd_eq_ok hdate
      exact ⟨hsystem, hsupported⟩
    · rintro ⟨hsystem, hsupported⟩
      rw [fromYmd_eq hsystem, if_pos hsupported]
      exact ⟨_, rfl⟩
  · intro dateSystem serial
    constructor
    · rintro ⟨⟨year, month, day⟩, hymd⟩
      have hsystem := hok hymd
      rw [toYmd_eq_ok hsystem, Int.floor_intCast] at hymd
      exact ⟨hsystem, (exists_serialOf hsystem serial).mp ⟨_, hymd⟩⟩
    · rintro ⟨hsystem, hrange⟩
      obtain ⟨⟨year, month, day⟩, hdate⟩ := (exists_serialOf hsystem serial).mpr hrange
      refine ⟨(year, month, day), ?_⟩
      rw [toYmd_eq_ok hsystem, Int.floor_intCast]
      exact hdate
  · intro dateSystem year month day date hdate
    obtain ⟨hsystem, hsupported, rfl⟩ := fromYmd_eq_ok hdate
    refine ⟨?_, rfl, _, rfl⟩
    rw [toYmd_eq_ok hsystem, Int.floor_intCast]
    exact ⟨hsupported, rfl⟩
  · intro dateSystem serial year month day hymd
    have hsystem := hok hymd
    rw [toYmd_eq_ok hsystem, Int.floor_intCast] at hymd
    rw [fromYmd_eq hsystem, if_pos hymd.1, ← hymd.2]
  · intro dateSystem serial
    unfold toYmd toYmdWithArgument calendarDay
      isFictitious1900LeapDay
    simp only [Int.floor_intCast]
  · intro dateSystem d d' date date' hdate hdate'
    obtain ⟨hsystem, hsupported, rfl⟩ := fromYmd_eq_ok hdate
    obtain ⟨-, hsupported', rfl⟩ := fromYmd_eq_ok hdate'
    rw [← serialOf_lt_iff hsystem hsupported.1 hsupported'.1]
    exact Int.cast_lt.symm
  · intro dateSystem d date date' hdate hdate'
    obtain ⟨hsystem, hsupported, rfl⟩ := fromYmd_eq_ok hdate
    obtain ⟨-, -, rfl⟩ := fromYmd_eq_ok hdate'
    have hnext := serialOf_next hsystem hsupported.1
    show ((serialOf dateSystem d.next : ℤ) : ℚ) = (serialOf dateSystem d : ℤ) + _
    rw [hnext]
    split <;> push_cast <;> rfl
  · intro year month day date hdate hsixty
    obtain ⟨-, hsupported, rfl⟩ := fromYmd_eq_ok hdate
    change ((serialOf .windows1900 ⟨year, month, day⟩ : ℤ) : ℚ) = 60 at hsixty
    refine serialOf_ne_sixty hsupported.1 ?_
    exact_mod_cast hsixty
  · intro serial hfirst hlast
    have hfloor : ⌊serial⌋ = 60 := by
      rw [Int.floor_eq_iff]
      push_cast
      constructor <;> linarith
    cases hresult : (⟨serial, .windows1900⟩ : ExcelSerialDate).toYmd with
    | error error => exact ⟨error, rfl⟩
    | ok ymd =>
      obtain ⟨year, month, day⟩ := ymd
      rw [toYmd_eq_ok (by decide), hfloor] at hresult
      exact absurd hresult.2.symm (serialOf_ne_sixty hresult.1.1)

end Xlfn.Value
