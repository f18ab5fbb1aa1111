import Mathlib.Algebra.BigOperators.Intervals
import Mathlib.Data.Int.Lemmas
import Mathlib.Tactic.IntervalCases

/-!
# Xlfn — the Gregorian calendar

Dates of the proleptic Gregorian calendar, over all integer years, and their numbers.
-/

namespace Xlfn.Lib

-- ---- Years and months.

def IsLeap (year : ℤ) : Prop := 4 ∣ year ∧ (¬ 100 ∣ year ∨ 400 ∣ year)

instance (year : ℤ) : Decidable (IsLeap year) :=
  inferInstanceAs (Decidable (_ ∧ _))

def yearLength (year : ℤ) : ℤ := if IsLeap year then 366 else 365

def monthLength (year month : ℤ) : ℤ :=
  if month = 2 then (if IsLeap year then 29 else 28)
  else if month = 4 ∨ month = 6 ∨ month = 9 ∨ month = 11 then 30
  else 31

/-- The days from the first of January of year one to that of `year`. -/
def yearStart (year : ℤ) : ℤ :=
  365 * (year - 1) + (year - 1) / 4 - (year - 1) / 100 + (year - 1) / 400

/-- The days from the first of January of `year` to the first of `month`. -/
def monthStart (year month : ℤ) : ℤ :=
  ∑ k ∈ Finset.range (month - 1).toNat, monthLength year (k + 1)

@[simp] theorem yearStart_one : yearStart 1 = 0 := rfl

@[simp] theorem monthStart_one (year : ℤ) : monthStart year 1 = 0 := rfl

/-- **A year begins where the year before ends.** -/
theorem yearStart_succ (year : ℤ) : yearStart (year + 1) = yearStart year + yearLength year := by
  by_cases h : IsLeap year
  · rw [yearLength, if_pos h]
    obtain ⟨h₄, h₁₀₀⟩ := h
    unfold yearStart
    omega
  · rw [yearLength, if_neg h]
    rw [IsLeap, not_and_or, not_or, not_not] at h
    unfold yearStart
    omega

/-- **A month begins where the month before ends.** -/
theorem monthStart_succ (year : ℤ) {month : ℤ} (h : 1 ≤ month) :
    monthStart year (month + 1) = monthStart year month + monthLength year month := by
  have hnext : (month + 1 - 1).toNat = (month - 1).toNat + 1 := by omega
  have hcast : ((month - 1).toNat : ℤ) + 1 = month := by omega
  rw [monthStart, hnext, Finset.sum_range_succ, hcast, monthStart]

theorem monthLength_pos (year month : ℤ) : 0 < monthLength year month := by
  unfold monthLength
  split
  · split <;> omega
  · split <;> omega

theorem yearLength_pos (year : ℤ) : 0 < yearLength year := by
  unfold yearLength
  split <;> omega

theorem monthStart_thirteen (year : ℤ) : monthStart year 13 = yearLength year := by
  by_cases h : IsLeap year
  · simp [monthStart, yearLength, monthLength, Finset.sum_range_succ, h]
  · simp [monthStart, yearLength, monthLength, Finset.sum_range_succ, h]

theorem monthStart_add_le (year : ℤ) {month month' : ℤ} (h : 1 ≤ month) (hlt : month < month') :
    monthStart year month + monthLength year month ≤ monthStart year month' := by
  induction month', Int.add_one_le_of_lt hlt using Int.leInduction with
  | base => rw [monthStart_succ year h]
  | succ month'' hle ih =>
    rw [monthStart_succ year (by omega)]
    have hpos := monthLength_pos year month''
    have hprevious := ih (by omega)
    omega

theorem yearStart_add_le {year year' : ℤ} (hlt : year < year') :
    yearStart year + yearLength year ≤ yearStart year' := by
  induction year', Int.add_one_le_of_lt hlt using Int.leInduction with
  | base => rw [yearStart_succ]
  | succ year'' hle ih =>
    rw [yearStart_succ]
    have hpos := yearLength_pos year''
    have hprevious := ih (by omega)
    omega

-- ---- Dates.

structure CivilDate where
  year  : ℤ
  month : ℤ
  day   : ℤ
deriving DecidableEq

namespace CivilDate

/-- A date of the calendar. -/
structure Valid (date : CivilDate) : Prop where
  january  : 1 ≤ date.month
  december : date.month ≤ 12
  first    : 1 ≤ date.day
  last     : date.day ≤ monthLength date.year date.month

instance (date : CivilDate) : Decidable date.Valid :=
  decidable_of_iff (1 ≤ date.month ∧ date.month ≤ 12 ∧ 1 ≤ date.day ∧
      date.day ≤ monthLength date.year date.month)
    ⟨fun ⟨h₁, h₂, h₃, h₄⟩ => ⟨h₁, h₂, h₃, h₄⟩, fun ⟨h₁, h₂, h₃, h₄⟩ => ⟨h₁, h₂, h₃, h₄⟩⟩

/-- The order of the calendar. -/
def Before (date date' : CivilDate) : Prop :=
  date.year < date'.year ∨ date.year = date'.year ∧
    (date.month < date'.month ∨ date.month = date'.month ∧ date.day < date'.day)

instance (date date' : CivilDate) : Decidable (date.Before date') :=
  inferInstanceAs (Decidable (_ ∨ _))

/-- The day after a date. -/
def next (date : CivilDate) : CivilDate :=
  if date.day < monthLength date.year date.month then { date with day := date.day + 1 }
  else if date.month < 12 then ⟨date.year, date.month + 1, 1⟩
  else ⟨date.year + 1, 1, 1⟩

/-- The number of a date, from zero for the first of January of year one. -/
def dayNumber (date : CivilDate) : ℤ :=
  yearStart date.year + monthStart date.year date.month + date.day - 1

variable {date date' : CivilDate}

theorem Before.trichotomy (date date' : CivilDate) :
    date.Before date' ∨ date = date' ∨ date'.Before date := by
  obtain ⟨year, month, day⟩ := date
  obtain ⟨year', month', day'⟩ := date'
  simp only [Before, mk.injEq]
  omega

theorem Valid.dayNumber_bounds (h : date.Valid) :
    yearStart date.year ≤ date.dayNumber ∧ date.dayNumber < yearStart (date.year + 1) := by
  have hfirst : 0 ≤ monthStart date.year date.month := by
    rcases eq_or_lt_of_le h.january with heq | hlt
    · rw [← heq, monthStart_one]
    · have hle := monthStart_add_le date.year le_rfl hlt
      rw [monthStart_one, zero_add] at hle
      exact le_trans (monthLength_pos _ _).le hle
  have hlast := monthStart_add_le date.year h.january (show date.month < 13 by have := h.december; omega)
  rw [monthStart_thirteen] at hlast
  have h₁ := h.first
  have h₂ := h.last
  rw [dayNumber, yearStart_succ]
  constructor <;> omega

theorem Valid.dayNumber_lt (h : date.Valid) (h' : date'.Valid) (hbefore : date.Before date') :
    date.dayNumber < date'.dayNumber := by
  rcases hbefore with hyear | ⟨hyear, hmonth | ⟨hmonth, hday⟩⟩
  · have hle := yearStart_add_le hyear
    rw [← yearStart_succ] at hle
    have h₁ := h.dayNumber_bounds.2
    have h₂ := h'.dayNumber_bounds.1
    omega
  · have hle := monthStart_add_le date.year h.january hmonth
    have h₁ := h.last
    have h₂ := h'.first
    rw [dayNumber, dayNumber, ← hyear]
    omega
  · rw [dayNumber, dayNumber, ← hyear, ← hmonth]
    omega

/-- **The numbers are in the order of the dates.** -/
theorem Valid.dayNumber_lt_iff (h : date.Valid) (h' : date'.Valid) :
    date.dayNumber < date'.dayNumber ↔ date.Before date' := by
  refine ⟨fun hlt => ?_, h.dayNumber_lt h'⟩
  rcases Before.trichotomy date date' with hbefore | heq | hafter
  · exact hbefore
  · rw [heq] at hlt
    exact absurd hlt (lt_irrefl _)
  · have hgt := h'.dayNumber_lt h hafter
    omega

/-- **A number belongs to one date.** -/
theorem Valid.dayNumber_injective (h : date.Valid) (h' : date'.Valid)
    (heq : date.dayNumber = date'.dayNumber) : date = date' := by
  rcases Before.trichotomy date date' with hbefore | hsame | hafter
  · have hlt := h.dayNumber_lt h' hbefore
    omega
  · exact hsame
  · have hgt := h'.dayNumber_lt h hafter
    omega

theorem Valid.next (h : date.Valid) : date.next.Valid := by
  obtain ⟨h₁, h₂, h₃, h₄⟩ := h
  unfold CivilDate.next
  split
  · exact ⟨h₁, h₂, by dsimp only; omega, by dsimp only; omega⟩
  · split
    · exact ⟨by dsimp only; omega, by dsimp only; omega, le_rfl, monthLength_pos _ _⟩
    · exact ⟨le_rfl, by dsimp only; omega, le_rfl, monthLength_pos _ _⟩

/-- **The next date has the next number.** -/
theorem Valid.dayNumber_next (h : date.Valid) : date.next.dayNumber = date.dayNumber + 1 := by
  obtain ⟨h₁, h₂, h₃, h₄⟩ := h
  unfold CivilDate.next
  split
  · rw [dayNumber, dayNumber]
    dsimp only
    omega
  · split
    · rw [dayNumber, dayNumber]
      dsimp only
      rw [monthStart_succ _ h₁]
      omega
    · have hdecember : date.month = 12 := by omega
      have hlength := monthStart_thirteen date.year
      rw [show (13 : ℤ) = 12 + 1 from rfl, monthStart_succ _ (by omega), ← hdecember] at hlength
      rw [dayNumber, dayNumber]
      dsimp only
      rw [yearStart_succ, monthStart_one]
      omega

end CivilDate

end Xlfn.Lib
