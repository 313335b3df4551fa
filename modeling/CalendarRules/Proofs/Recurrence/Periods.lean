import CalendarRules.Proofs.Time.Timestamp
import CalendarRules.Recurrence.Series
import Mathlib.Order.Monotone.Basic

/-!
# Periods follow one another

The periods of a rule are days, weeks, months or years, and none of them reaches into the next: a
later one begins where an earlier one ends, or after that (`Frequency.period_le`).  None is longer
than a leap year.  For months this is read off the first days of the months of a year, and the next
January takes the place of a thirteenth month.
-/

namespace CalendarRules

/-! ## Years and months -/

theorem firstDayOfYear_succ (year : Int) :
    firstDayOfYear year + 365 ≤ firstDayOfYear (year + 1) ∧
      firstDayOfYear (year + 1) ≤ firstDayOfYear year + 366 := by
  have hstep := Calendar.daysBeforeYear_succ year
  unfold firstDayOfYear
  split at hstep <;> omega

theorem daysBeforeMonth_succ : ∀ leap : Bool, ∀ k < 12,
    Calendar.daysBeforeMonth leap (k + 1) + 28 ≤ Calendar.daysBeforeMonth leap (k + 2) ∧
      Calendar.daysBeforeMonth leap (k + 2) ≤ Calendar.daysBeforeMonth leap (k + 1) + 31 := by
  decide

/-- A month has from 28 to 31 days. -/
theorem firstDayOfMonth_succ (month : Int) :
    firstDayOfMonth month + 28 ≤ firstDayOfMonth (month + 1) ∧
      firstDayOfMonth (month + 1) ≤ firstDayOfMonth month + 31 := by
  have hlength := daysBeforeMonth_succ (Calendar.isLeap (month / 12)) (month % 12).toNat (by omega)
  have hnext : firstDayOfMonth (month + 1) = Calendar.daysBeforeYear (month / 12) +
      Calendar.daysBeforeMonth (Calendar.isLeap (month / 12)) ((month % 12).toNat + 2) -
        Calendar.epoch := by
    unfold firstDayOfMonth
    by_cases hlast : month % 12 = 11
    · -- December: what would be month thirteen is January of the next year
      have hyear : (month + 1) / 12 = month / 12 + 1 := by omega
      have hfirst : ((month + 1) % 12).toNat = 0 := by omega
      have heleven : (month % 12).toNat = 11 := by omega
      have hstep := Calendar.daysBeforeYear_succ_eq (month / 12)
      have hzero : ∀ leap : Bool, Calendar.daysBeforeMonth leap 1 = 0 := fun _ => rfl
      simp only [hyear, hfirst, heleven, Nat.reduceAdd, hzero, hstep]
      omega
    · have hyear : (month + 1) / 12 = month / 12 := by omega
      have hmonth : ((month + 1) % 12).toNat + 1 = (month % 12).toNat + 2 := by omega
      simp only [hyear, hmonth]
  rw [hnext]
  unfold firstDayOfMonth
  simp only
  omega

theorem firstDayOfYear_le {a b : Int} (h : a ≤ b) : firstDayOfYear a ≤ firstDayOfYear b := by
  have hdays := Calendar.daysBeforeYear_le h
  unfold firstDayOfYear
  omega

theorem firstDayOfMonth_le {a b : Int} (h : a ≤ b) : firstDayOfMonth a ≤ firstDayOfMonth b := by
  have hmono : Monotone firstDayOfMonth := monotone_int_of_le_succ fun month => by
    have := (firstDayOfMonth_succ month).1
    omega
  exact hmono h

/-- A day lies between the first days of its year and of the next one. -/
theorem year_bounds (day : Int) : firstDayOfYear (Date.ofDay day).year ≤ day ∧
    day < firstDayOfYear ((Date.ofDay day).year + 1) := by
  have hbounds := Calendar.yearOfDay_bounds (day + Calendar.epoch)
  unfold firstDayOfYear
  show Calendar.daysBeforeYear (Calendar.yearOfDay (day + Calendar.epoch)) - _ ≤ day ∧
    day < Calendar.daysBeforeYear (Calendar.yearOfDay (day + Calendar.epoch) + 1) - _
  omega

/-! ## Periods -/

namespace Frequency

variable (f : Frequency) (day : Int)

/-- A period is not empty, and not longer than a leap year. -/
theorem period_length (steps : Nat) :
    (f.period day steps).1 < (f.period day steps).2 ∧
      (f.period day steps).2 ≤ (f.period day steps).1 + 366 := by
  cases f with
  | daily =>
    simp only [period]
    omega
  | weekly =>
    simp only [period]
    omega
  | monthly =>
    have := firstDayOfMonth_succ
      (12 * (Date.ofDay day).year + ((Date.ofDay day).month - 1 : Nat) + steps)
    simp only [period]
    omega
  | yearly =>
    have := firstDayOfYear_succ ((Date.ofDay day).year + steps)
    simp only [period]
    omega

/-- A period ends before a later one begins. -/
theorem period_le {a b : Nat} (h : a < b) : (f.period day a).2 ≤ (f.period day b).1 := by
  cases f with
  | daily =>
    simp only [period]
    omega
  | weekly =>
    simp only [period]
    omega
  | monthly => exact firstDayOfMonth_le (by omega)
  | yearly => exact firstDayOfYear_le (by omega)

end Frequency
end CalendarRules
