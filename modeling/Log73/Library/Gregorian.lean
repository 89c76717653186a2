import Mathlib.Data.Int.Init
import Mathlib.Tactic.IntervalCases

/-!
The proleptic Gregorian calendar. Years are counted from March here, so that a leap day is the
last of its year, and their days are found from the estimate that takes the leap days out.
-/

namespace Gregorian

def isLeap (year : Int) : Bool := year % 4 = 0 && (year % 100 ≠ 0 || year % 400 = 0)

def daysInMonth (year month : Int) : Int :=
  if month = 2 then if isLeap year then 29 else 28
  else if month = 4 ∨ month = 6 ∨ month = 9 ∨ month = 11 then 30
  else 31

structure Valid (year month day : Int) : Prop where
  monthOfYear : 1 ≤ month ∧ month ≤ 12
  dayOfMonth : 1 ≤ day ∧ day ≤ daysInMonth year month

theorem Valid.day_le {year month day : Int} (h : Valid year month day) : day ≤ 31 := by
  refine h.dayOfMonth.2.trans ?_
  unfold daysInMonth
  split_ifs <;> decide

/-- The days in front of a year that begins in March. -/
def yearStart (year : Int) : Int := 365 * year + year / 4 - year / 100 + year / 400

/-- The days of a year in front of its month, the months counted from March. -/
def monthStart (month : Int) : Int := (153 * month + 2) / 5

/-- The year, its month from March on and the day of the month. -/
structure InMarchYear (year month day : Int) : Prop where
  monthOfYear : 0 ≤ month ∧ month ≤ 11
  dayOfMonth : 1 ≤ day ∧ monthStart month + day ≤
    if month = 11 then yearStart (year + 1) - yearStart year else monthStart (month + 1)

theorem yearStart_add_cycles (year cycles : Int) :
    yearStart (year + cycles * 400) = yearStart year + cycles * 146097 := by
  unfold yearStart
  omega

theorem yearStart_succ (year : Int) :
    yearStart (year + 1) - yearStart year = if isLeap (year + 1) then 366 else 365 := by
  unfold yearStart isLeap
  simp only [Bool.and_eq_true, Bool.or_eq_true, decide_eq_true_eq, ne_eq]
  split_ifs <;> omega

theorem yearStart_mono {a b : Int} (h : a ≤ b) : yearStart a ≤ yearStart b := by
  unfold yearStart
  omega

/-- The days with the leap days taken out. -/
def estimate (days : Int) : Int := days - days / 1460 + days / 36524 - days / 146096

theorem estimate_mono {a b : Int} (h : a ≤ b) : estimate a ≤ estimate b := by
  have hleap : a - a / 1460 ≤ b - b / 1460 := by omega
  have hcentury : a / 36524 ≤ b / 36524 := Int.ediv_le_ediv (by decide) h
  have hcycle (n : Int) : n / 146096 = n / 36524 / 4 := by omega
  unfold estimate
  rw [hcycle a, hcycle b]
  omega

theorem estimate_yearStart (year : Fin 400) :
    365 * (year : Int) ≤ estimate (yearStart year) ∧
      estimate (yearStart (year + 1) - 1) < 365 * ((year : Int) + 1) := by
  revert year
  decide +kernel

/-- The year of a day of a cycle. -/
theorem estimate_div {year days : Int} (hyear : 0 ≤ year ∧ year ≤ 399)
    (hdays : yearStart year ≤ days ∧ days < yearStart (year + 1)) : estimate days / 365 = year := by
  obtain ⟨n, rfl⟩ := Int.eq_ofNat_of_zero_le hyear.1
  obtain ⟨hfirst, hlast⟩ := estimate_yearStart ⟨n, by omega⟩
  have hlow := hfirst.trans (estimate_mono hdays.1)
  have hhigh := (estimate_mono (Int.le_sub_one_of_lt hdays.2)).trans_lt hlast
  change 365 * (n : Int) ≤ _ at hlow
  change _ < 365 * ((n : Int) + 1) at hhigh
  omega

theorem exists_year {days : Int} (hdays : 0 ≤ days) (count : Nat) (h : days < yearStart count) :
    ∃ year, (0 ≤ year ∧ year < count) ∧ yearStart year ≤ days ∧ days < yearStart (year + 1) := by
  induction count with
  | zero => exact absurd hdays (Int.not_le_of_gt h)
  | succ count ih =>
      by_cases hlast : yearStart count ≤ days
      · exact ⟨count, by omega, hlast, h⟩
      · obtain ⟨year, hyear, hin⟩ := ih (Int.lt_of_not_ge hlast)
        exact ⟨year, by omega, hin⟩

/-- The month of a day of a year. -/
theorem month_of_day {year month day : Int} (h : InMarchYear year month day) :
    (5 * (monthStart month + day - 1) + 2) / 153 = month := by
  obtain ⟨⟨hlow, hhigh⟩, hday, hend⟩ := h
  have hlength := yearStart_succ year
  unfold monthStart at *
  interval_cases month <;> simp at hend ⊢ <;> split_ifs at hlength <;> omega

theorem exists_month {year day : Int}
    (h : 0 ≤ day ∧ day < yearStart (year + 1) - yearStart year) :
    InMarchYear year ((5 * day + 2) / 153) (day - monthStart ((5 * day + 2) / 153) + 1) := by
  have hlength := yearStart_succ year
  refine ⟨by split_ifs at hlength <;> omega, ?_⟩
  split_ifs with hlast
  · rw [hlast]
    unfold monthStart
    omega
  · unfold monthStart
    omega

/-- January and February are the last months of the year before, counted from March. -/
theorem inMarchYear_iff {year month day : Int} (hmonth : 1 ≤ month ∧ month ≤ 12) :
    InMarchYear (year - if month ≤ 2 then 1 else 0) (month + if 2 < month then -3 else 9) day ↔
      Valid year month day := by
  have hlength := yearStart_succ (year - 1)
  rw [Int.sub_add_cancel] at hlength
  constructor
  · rintro ⟨-, hday, hend⟩
    refine ⟨hmonth, hday, ?_⟩
    obtain ⟨hlow, hhigh⟩ := hmonth
    unfold monthStart at hend
    unfold daysInMonth
    interval_cases month <;> simp at hend ⊢ <;> first | omega | (split_ifs at * <;> omega)
  · rintro ⟨-, hday, hend⟩
    obtain ⟨hlow, hhigh⟩ := hmonth
    refine ⟨by split_ifs <;> omega, hday, ?_⟩
    unfold monthStart
    unfold daysInMonth at hend
    interval_cases month <;> simp at hend ⊢ <;> first | omega | (split_ifs at * <;> omega)

end Gregorian
