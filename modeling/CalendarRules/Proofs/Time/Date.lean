import CalendarRules.Time.Instant
import Mathlib.Order.Monotone.Basic

/-!
# Dates in their order

Days are counted through the months and years, so that the number of a date grows with the date:
first by year, then by month, then by day of the month (`Date.toDay_lt_of_precedes`).  Hence no two
dates share a number, and a date is found again by its number (`Date.ofDay_toDay`).

The date after another one is the next day of the month or, behind its last day, the first day of
the next month, which after December is January of the next year.  It has the next number
(`Date.toDay_next`), so that the numbers of dates count the days from one to another
(`Date.leads_iff`).
-/

namespace CalendarRules

namespace Calendar

/-! ## Months and years -/

theorem daysBeforeMonth_add_monthLength : ∀ leap : Bool, ∀ month < 13,
    daysBeforeMonth leap month + monthLength leap month = daysBeforeMonth leap (month + 1) := by
  decide

/-- The days of a month in the Gregorian calendar. -/
def daysIn (year : Int) (month : Nat) : Nat :=
  if month = 2 then if 4 ∣ year ∧ (¬ 100 ∣ year ∨ 400 ∣ year) then 29 else 28
  else if month ∈ [4, 6, 9, 11] then 30 else 31

theorem isLeap_iff {year : Int} : isLeap year = true ↔ 4 ∣ year ∧ (¬ 100 ∣ year ∨ 400 ∣ year) := by
  simp only [isLeap, Bool.and_eq_true, Bool.or_eq_true, decide_eq_true_eq, Int.dvd_iff_emod_eq_zero,
    ne_eq]

theorem monthLength_eq_daysIn {year : Int} {month : Nat} (hfirst : 1 ≤ month) (hlast : month ≤ 12) :
    monthLength (isLeap year) month = daysIn year month := by
  have hlengths : ∀ leap : Bool, ∀ month < 13, 1 ≤ month → monthLength leap month =
      if month = 2 then if leap = true then 29 else 28
      else if month ∈ [4, 6, 9, 11] then 30 else 31 := by
    decide
  rw [hlengths _ month (by omega) hfirst, daysIn]
  simp only [isLeap_iff]

theorem monthLength_le : ∀ leap : Bool, ∀ month < 13, monthLength leap month ≤ 31 := by
  decide

theorem monthLength_pos : ∀ leap : Bool, ∀ month < 13, 1 ≤ month → 1 ≤ monthLength leap month := by
  decide

/-- A month ends before a later one begins; month 13 is the year after. -/
theorem daysBeforeMonth_succ_le : ∀ leap : Bool, ∀ later < 14, ∀ month < later,
    daysBeforeMonth leap (month + 1) ≤ daysBeforeMonth leap later := by
  decide

/-- A year ends with its twelfth month. -/
theorem daysBeforeYear_succ_eq (year : Int) :
    daysBeforeYear (year + 1) = daysBeforeYear year + daysBeforeMonth (isLeap year) 13 := by
  rw [daysBeforeYear_succ]
  cases isLeap year with
  | false => simp [daysBeforeMonth]
  | true => simp [daysBeforeMonth, Int.add_assoc]

theorem daysBeforeYear_le {a b : Int} (h : a ≤ b) : daysBeforeYear a ≤ daysBeforeYear b := by
  have hmono : Monotone daysBeforeYear := by
    refine monotone_int_of_le_succ fun year => ?_
    rw [daysBeforeYear_succ_eq]
    omega
  exact hmono h

end Calendar

namespace Date

open Calendar

variable {d d' : Date}

/-! ## Order -/

/-- An earlier date: by year, then by month, then by day of the month. -/
def Precedes (d d' : Date) : Prop :=
  d.year < d'.year ∨
    d.year = d'.year ∧ (d.month < d'.month ∨ d.month = d'.month ∧ d.day < d'.day)

/-- The number of a date lies in its month. -/
theorem toDay_bounds (d : Date) :
    daysBeforeYear d.year + daysBeforeMonth (isLeap d.year) d.month ≤ d.toDay + epoch ∧
      d.toDay + epoch < daysBeforeYear d.year + daysBeforeMonth (isLeap d.year) (d.month + 1) := by
  obtain ⟨-, hmonth, hfirst, hlast⟩ := d.isDate
  have hlength := daysBeforeMonth_add_monthLength (isLeap d.year) d.month (by omega)
  rw [toDay]
  omega

theorem toDay_lt_of_precedes (h : d.Precedes d') : d.toDay < d'.toDay := by
  obtain ⟨-, hend⟩ := d.toDay_bounds
  obtain ⟨hbegin, -⟩ := d'.toDay_bounds
  obtain ⟨-, hmonth, -⟩ := d.isDate
  obtain ⟨-, hmonth', -⟩ := d'.isDate
  obtain hyear | ⟨hyear, hbefore | ⟨hsame, hday⟩⟩ := h
  · have hnext := daysBeforeYear_le (Int.add_one_le_of_lt hyear)
    have hmonths := daysBeforeMonth_succ_le (isLeap d.year) 13 (by decide) d.month (by omega)
    rw [daysBeforeYear_succ_eq] at hnext
    omega
  · have hmonths := daysBeforeMonth_succ_le (isLeap d'.year) d'.month (by omega) d.month hbefore
    rw [hyear] at hend
    omega
  · rw [toDay, toDay, hyear, hsame]
    omega

theorem precedes_or_eq_or_precedes (d d' : Date) : d.Precedes d' ∨ d = d' ∨ d'.Precedes d := by
  obtain ⟨year, month, day, hd⟩ := d
  obtain ⟨year', month', day', hd'⟩ := d'
  simp only [Precedes, Date.mk.injEq]
  omega

theorem toDay_lt_iff_precedes : d.toDay < d'.toDay ↔ d.Precedes d' := by
  refine ⟨fun h => ?_, toDay_lt_of_precedes⟩
  obtain hbefore | rfl | hafter := precedes_or_eq_or_precedes d d'
  · exact hbefore
  · exact absurd h (Int.lt_irrefl _)
  · exact absurd (toDay_lt_of_precedes hafter) (Int.not_lt.2 (Int.le_of_lt h))

/-- No two dates share a number. -/
theorem eq_of_toDay_eq (h : d.toDay = d'.toDay) : d = d' := by
  obtain hbefore | heq | hafter := precedes_or_eq_or_precedes d d'
  · exact absurd h (Int.ne_of_lt (toDay_lt_of_precedes hbefore))
  · exact heq
  · exact absurd h.symm (Int.ne_of_lt (toDay_lt_of_precedes hafter))

theorem toDay_inj : d.toDay = d'.toDay ↔ d = d' := ⟨eq_of_toDay_eq, congrArg toDay⟩

theorem toDay_le_iff : d.toDay ≤ d'.toDay ↔ d = d' ∨ d.Precedes d' := by
  rw [Int.le_iff_lt_or_eq, toDay_lt_iff_precedes, toDay_inj, or_comm]

theorem ofDay_toDay (d : Date) : ofDay d.toDay = d := eq_of_toDay_eq (toDay_ofDay d.toDay)

/-! ## The next date -/

/-- The date after a date. -/
def next (d : Date) : Date :=
  if hday : d.day < monthLength (isLeap d.year) d.month then
    ⟨d.year, d.month, d.day + 1, d.isDate.1, d.isDate.2.1, Nat.le_add_left _ _, hday⟩
  else if hmonth : d.month < 12 then
    ⟨d.year, d.month + 1, 1, Nat.le_add_left _ _, hmonth, Nat.le_refl _,
      monthLength_pos _ _ (Nat.succ_lt_succ hmonth) (Nat.le_add_left _ _)⟩
  else
    ⟨d.year + 1, 1, 1, Nat.le_refl _, by decide, Nat.le_refl _,
      monthLength_pos _ _ (by decide) (Nat.le_refl _)⟩

theorem toDay_next (d : Date) : d.next.toDay = d.toDay + 1 := by
  obtain ⟨-, hdecember, hfirst, hlast⟩ := d.isDate
  have hlength := daysBeforeMonth_add_monthLength (isLeap d.year) d.month (by omega)
  unfold next
  split
  next => simp only [toDay]; omega
  next hday =>
    split
    next => simp only [toDay]; omega
    next hmonth =>
      -- the last day of December
      have hlastMonth : d.month = 12 := by omega
      have hyear := daysBeforeYear_succ_eq d.year
      have hjanuary : daysBeforeMonth (isLeap (d.year + 1)) 1 = 0 := rfl
      rw [hlastMonth] at hlength hday hlast
      simp only [toDay, hlastMonth, hjanuary]
      simp only [Nat.reduceAdd] at hlength
      omega

theorem toDay_iterate_next (d : Date) (n : Nat) : (next^[n] d).toDay = d.toDay + n := by
  induction n with
  | zero => exact (Int.add_zero _).symm
  | succ n ih =>
    rw [Function.iterate_succ_apply', toDay_next, ih]
    omega

/-- Going on from one date for a number of days leads to another, or back to it if the number is
negative. -/
def Leads (d : Date) (n : Int) (d' : Date) : Prop := next^[n.toNat] d = next^[(-n).toNat] d'

/-- The numbers of dates count days. -/
theorem leads_iff {n : Int} : d.Leads n d' ↔ d'.toDay = d.toDay + n := by
  have hforth := toDay_iterate_next d n.toNat
  have hback := toDay_iterate_next d' (-n).toNat
  constructor
  · intro h
    have := congrArg toDay h
    omega
  · intro h
    refine eq_of_toDay_eq ?_
    omega

theorem ofDay_succ (day : Int) : ofDay (day + 1) = (ofDay day).next := by
  refine eq_of_toDay_eq ?_
  rw [toDay_next, toDay_ofDay, toDay_ofDay]

end Date

namespace Instant

variable {a b : Instant}

theorem date_eq_iff : a.date = b.date ↔ a.day = b.day := by
  refine ⟨fun h => ?_, fun h => congrArg Date.ofDay h⟩
  rw [← Date.toDay_ofDay a.day, ← Date.toDay_ofDay b.day]
  exact congrArg Date.toDay h

theorem date_eq_next_iff : a.date = b.date.next ↔ a.day = b.day + 1 := by
  rw [date, date, ← Date.ofDay_succ]
  refine ⟨fun h => ?_, congrArg Date.ofDay⟩
  rw [← Date.toDay_ofDay a.day, h, Date.toDay_ofDay]

end Instant
end CalendarRules
