import CalendarRules.Binary64
import CalendarRules.Text.Digits
import CalendarRules.Text.Split
import CalendarRules.Time.Instant

/-!
# Plain dates and clock times

Payloads hold dates and times of day as strings.  A date has four digits for its year and two each
for month and day, with dashes between, and it has to exist.  A clock time has hours, minutes and
perhaps seconds with colons between; one digit is enough for the hour.

Either is compared as a number: a date as the milliseconds of its first instant, a clock time as
minutes since midnight.
-/

namespace CalendarRules

/-- The number that a text of exactly `width` digits spells. -/
def digits? (width : Nat) (cs : List Char) : Option Nat :=
  if cs.length = width && cs.all Char.isDigit then some (Text.decimalValue cs) else none

namespace Date

/-- Reads a date of ten characters. -/
def ofText? (text : String) : Option Date :=
  match text.toList with
  | [y₁, y₂, y₃, y₄, '-', m₁, m₂, '-', d₁, d₂] => do
    let year ← digits? 4 [y₁, y₂, y₃, y₄]
    let month ← digits? 2 [m₁, m₂]
    let day ← digits? 2 [d₁, d₂]
    ofParts? year month day
  | _ => none

/-- Milliseconds from the beginning of 1970 to the beginning of a date. -/
def millis (d : Date) : Binary64 := .ofInt (d.toDay * 86400000)

end Date

/-- A time of day to the second. -/
structure ClockTime where
  hour : Nat
  minute : Nat
  second : Nat
  hour_lt : hour < 24
  minute_lt : minute < 60
  second_lt : second < 60
  deriving DecidableEq

namespace ClockTime

/-- The clock time with the given parts, if there is one. -/
def ofParts? (hour minute second : Nat) : Option ClockTime :=
  if h : hour < 24 ∧ minute < 60 ∧ second < 60 then some ⟨hour, minute, second, h.1, h.2.1, h.2.2⟩
  else none

/-- Reads a clock time. -/
def ofText? (text : String) : Option ClockTime :=
  match Text.split ':' text.toList with
  | [hour, minute] => do
    ofParts? (← (digits? 1 hour).or (digits? 2 hour)) (← digits? 2 minute) 0
  | [hour, minute, second] => do
    ofParts? (← (digits? 1 hour).or (digits? 2 hour)) (← digits? 2 minute) (← digits? 2 second)
  | _ => none

/-- Minutes since midnight.  The part of a minute that the seconds make is rounded before it is
added. -/
def minutes (t : ClockTime) : Binary64 :=
  .ofRatio false
    ((60 * t.hour + t.minute) * unitsPerOne + rounded (t.second * unitsPerOne) 60) 1

end ClockTime
end CalendarRules
