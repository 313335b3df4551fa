/-!
# Dates

Dates of the proleptic Gregorian calendar, in both directions between a date and the number of days
since 1970-01-01.

The number of days before a year is a closed formula with four divisions, and `yearOfDay` inverts
it by splitting days into cycles of 400, 100, 4 and 1 years; the last cycle of a hundred years or of
one year is a day longer than the others, which the two minima take care of.  Within a year the
months start on fixed days, one later from March on in a leap year.
-/

namespace CalendarRules

namespace Calendar

/-- Leap years. -/
def isLeap (year : Int) : Bool := year % 4 = 0 && (year % 100 ≠ 0 || year % 400 = 0)

/-- Days from 0001-01-01 to the first day of a year. -/
def daysBeforeYear (year : Int) : Int :=
  let y := year - 1
  365 * y + y / 4 - y / 100 + y / 400

/-- Days from the first day of a year to the first day of a month; month 13 is the year after. -/
def daysBeforeMonth (leap : Bool) (month : Nat) : Nat :=
  let extra := if leap then 1 else 0
  match month with
  | 0 | 1 => 0
  | 2 => 31
  | 3 => 59 + extra
  | 4 => 90 + extra
  | 5 => 120 + extra
  | 6 => 151 + extra
  | 7 => 181 + extra
  | 8 => 212 + extra
  | 9 => 243 + extra
  | 10 => 273 + extra
  | 11 => 304 + extra
  | 12 => 334 + extra
  | _ => 365 + extra

def monthLength (leap : Bool) (month : Nat) : Nat :=
  daysBeforeMonth leap (month + 1) - daysBeforeMonth leap month

/-- The year of a day counted from 0001-01-01. -/
def yearOfDay (day : Int) : Int :=
  let c400 := day / 146097
  let day := day % 146097
  let c100 := min (day / 36524) 3
  let day := day - 36524 * c100
  let c4 := day / 1461
  let day := day % 1461
  let c1 := min (day / 365) 3
  400 * c400 + 100 * c100 + 4 * c4 + c1 + 1

/-- The last of the first `k + 1` months that begins by a day of the year, counted from zero. -/
def lastMonthBy (leap : Bool) (day : Nat) : Nat → Nat
  | 0 => 1
  | k + 1 => if daysBeforeMonth leap (k + 2) ≤ day then k + 2 else lastMonthBy leap day k

/-- The month of a day of a year, counted from zero. -/
def monthOfDay (leap : Bool) (day : Nat) : Nat := lastMonthBy leap day 11

/-- The day of 1970-01-01 counted from 0001-01-01. -/
def epoch : Int := 719162

theorem daysBeforeYear_succ (year : Int) :
    daysBeforeYear (year + 1) = daysBeforeYear year + 365 + (if isLeap year then 1 else 0) := by
  simp only [daysBeforeYear, isLeap, Bool.and_eq_true, Bool.or_eq_true, decide_eq_true_eq, ne_eq]
  split <;> omega

theorem yearOfDay_bounds (day : Int) :
    daysBeforeYear (yearOfDay day) ≤ day ∧ day < daysBeforeYear (yearOfDay day + 1) := by
  simp only [daysBeforeYear, yearOfDay]
  generalize h400 : day / 146097 = c400
  generalize hr : day % 146097 = r
  have h1 : 0 ≤ r ∧ r < 146097 ∧ day = 146097 * c400 + r := by omega
  generalize h100 : min (r / 36524) 3 = c100
  have h2 : 0 ≤ c100 ∧ c100 ≤ 3 ∧ 0 ≤ r - 36524 * c100 ∧
      (c100 < 3 → r - 36524 * c100 < 36524) ∧ r - 36524 * c100 ≤ 36524 := by omega
  generalize hr100 : r - 36524 * c100 = r100 at *
  generalize h4 : r100 / 1461 = c4
  generalize hr4 : r100 % 1461 = r4
  have h3 : 0 ≤ r4 ∧ r4 < 1461 ∧ r100 = 1461 * c4 + r4 ∧ 0 ≤ c4 ∧ c4 ≤ 24 := by omega
  generalize h1c : min (r4 / 365) 3 = c1
  have h5 : 0 ≤ c1 ∧ c1 ≤ 3 ∧ 365 * c1 ≤ r4 ∧ (c1 < 3 → r4 < 365 * c1 + 365) := by omega
  have h6 : ∀ k, 0 ≤ k → k ≤ 3 → (400 * c400 + 100 * c100 + 4 * c4 + k) / 4
      = 100 * c400 + 25 * c100 + c4 := by
    intro k _ _; omega
  have h7 : ∀ k, 0 ≤ k → k ≤ 3 → (400 * c400 + 100 * c100 + 4 * c4 + k) / 100
      = 4 * c400 + c100 := by
    intro k _ _; omega
  have h8 : ∀ k, 0 ≤ k → k ≤ 3 → (400 * c400 + 100 * c100 + 4 * c4 + k) / 400 = c400 := by
    intro k _ _; omega
  rw [show 400 * c400 + 100 * c100 + 4 * c4 + c1 + 1 - 1
      = 400 * c400 + 100 * c100 + 4 * c4 + c1 by omega,
    show 400 * c400 + 100 * c100 + 4 * c4 + c1 + 1 + 1 - 1
      = 400 * c400 + 100 * c100 + 4 * c4 + (c1 + 1) by omega,
    h6 c1 (by omega) (by omega), h7 c1 (by omega) (by omega), h8 c1 (by omega) (by omega)]
  by_cases hc : c1 < 3
  · rw [h6 (c1 + 1) (by omega) (by omega), h7 (c1 + 1) (by omega) (by omega),
      h8 (c1 + 1) (by omega) (by omega)]
    omega
  · have hc3 : c1 = 3 := by omega
    subst hc3
    clear h6 h7 h8
    constructor
    · omega
    · by_cases h24 : c4 = 24
      · subst h24
        by_cases hh : c100 = 3
        · subst hh
          omega
        · omega
      · have h9 : (400 * c400 + 100 * c100 + 4 * c4 + (3 + 1)) / 4
            = 100 * c400 + 25 * c100 + c4 + 1 := by omega
        have h10 : (400 * c400 + 100 * c100 + 4 * c4 + (3 + 1)) / 100 = 4 * c400 + c100 := by omega
        have h11 : (400 * c400 + 100 * c100 + 4 * c4 + (3 + 1)) / 400 = c400 := by omega
        rw [h9, h10, h11]
        omega

theorem lastMonthBy_bounds (leap : Bool) (day k : Nat) (h : day < daysBeforeMonth leap (k + 2)) :
    1 ≤ lastMonthBy leap day k ∧ lastMonthBy leap day k ≤ k + 1 ∧
      daysBeforeMonth leap (lastMonthBy leap day k) ≤ day ∧
      day < daysBeforeMonth leap (lastMonthBy leap day k + 1) := by
  induction k with
  | zero => exact ⟨Nat.le_refl _, Nat.le_refl _, Nat.zero_le _, h⟩
  | succ k ih =>
    unfold lastMonthBy
    split
    · exact ⟨by omega, by omega, by assumption, h⟩
    · have := ih (by omega)
      exact ⟨this.1, by omega, this.2.2⟩

theorem monthOfDay_bounds (leap : Bool) (day : Nat) (h : day < daysBeforeMonth leap 13) :
    1 ≤ monthOfDay leap day ∧ monthOfDay leap day ≤ 12 ∧
      daysBeforeMonth leap (monthOfDay leap day) ≤ day ∧
      day < daysBeforeMonth leap (monthOfDay leap day + 1) :=
  lastMonthBy_bounds leap day 11 h

end Calendar

/-- The month and the day exist in the year. -/
def IsDate (year : Int) (month day : Nat) : Prop :=
  1 ≤ month ∧ month ≤ 12 ∧ 1 ≤ day ∧ day ≤ Calendar.monthLength (Calendar.isLeap year) month

instance (year : Int) (month day : Nat) : Decidable (IsDate year month day) :=
  inferInstanceAs (Decidable (_ ∧ _ ∧ _ ∧ _))

/-- A date that exists. -/
structure Date where
  year : Int
  month : Nat
  day : Nat
  isDate : IsDate year month day
  deriving DecidableEq

namespace Date

open Calendar

/-- The date with the given parts, if there is one. -/
def ofParts? (year : Int) (month day : Nat) : Option Date :=
  if h : IsDate year month day then some ⟨year, month, day, h⟩ else none

/-- Days since 1970-01-01. -/
def toDay (d : Date) : Int :=
  daysBeforeYear d.year + daysBeforeMonth (isLeap d.year) d.month + d.day - 1 - epoch

/-- The day of its year, counted from zero, of a day counted from 0001-01-01. -/
def dayOfYear (day : Int) : Nat := (day - daysBeforeYear (yearOfDay day)).toNat

theorem dayOfYear_lt (day : Int) :
    dayOfYear day < daysBeforeMonth (isLeap (yearOfDay day)) 13 := by
  have h1 := yearOfDay_bounds day
  have h2 := daysBeforeYear_succ (yearOfDay day)
  unfold dayOfYear
  simp only [daysBeforeMonth]
  split at h2 <;> rename_i hl <;> simp only [hl, if_true, Bool.false_eq_true, if_false] <;> omega

/-- The date of a day counted from 1970-01-01. -/
def ofDay (day : Int) : Date :=
  let year := yearOfDay (day + epoch)
  let leap := isLeap year
  let rest := dayOfYear (day + epoch)
  let month := monthOfDay leap rest
  ⟨year, month, rest - daysBeforeMonth leap month + 1, by
    have h := monthOfDay_bounds leap rest (dayOfYear_lt _)
    refine ⟨h.1, h.2.1, Nat.le_add_left _ _, ?_⟩
    change rest - daysBeforeMonth leap (monthOfDay leap rest) + 1
      ≤ monthLength leap (monthOfDay leap rest)
    unfold monthLength
    omega⟩

theorem toDay_ofDay (day : Int) : (ofDay day).toDay = day := by
  have h1 := yearOfDay_bounds (day + epoch)
  have h := monthOfDay_bounds (isLeap (yearOfDay (day + epoch))) (dayOfYear (day + epoch))
    (dayOfYear_lt _)
  simp only [toDay, ofDay]
  generalize monthOfDay _ _ = month at *
  unfold dayOfYear at *
  generalize yearOfDay _ = year at *
  generalize daysBeforeMonth (isLeap year) month = m at *
  omega

/-- The day of the week of a day counted from 1970-01-01, a Thursday; Sunday is zero. -/
def weekday (day : Int) : Nat := ((day + 4) % 7).toNat

end Date
end CalendarRules
