import CalendarRules.Text.Digits
import CalendarRules.Time.Instant

/-!
# Writing instants

An instant is written as date, `T`, time and `Z`.  Years have four digits from 0 to 9999, any other
year has a sign and at least four digits.  A leap second is second 60.  In documents the second
has no fraction, or one of three, six or nine digits, the fewest that are exact; in rendered text it
always has three, and the rest is cut off.
-/

namespace CalendarRules

/-- A year: four digits, or a sign and at least four. -/
def yearText (year : Int) : List Char :=
  if 0 ≤ year ∧ year ≤ 9999 then Text.paddedDecimal 4 year.toNat
  else (if year < 0 then '-' else '+') :: Text.paddedDecimal 4 year.natAbs

namespace Date

/-- Year, month and day with dashes. -/
def text (d : Date) : List Char :=
  yearText d.year ++ '-' :: Text.paddedDecimal 2 d.month ++ '-' :: Text.paddedDecimal 2 d.day

end Date

/-- Hour, minute and second of a second of the day, the second raised by one in a leap second. -/
def clockText (second : Nat) (leap : Bool) : List Char :=
  Text.paddedDecimal 2 (second / 3600) ++ ':' :: Text.paddedDecimal 2 (second / 60 % 60) ++
    ':' :: Text.paddedDecimal 2 (second % 60 + if leap then 1 else 0)

/-- The fraction of a second in nanoseconds, in as few groups of three digits as are exact. -/
def fractionText (nano : Nat) : List Char :=
  if nano = 0 then []
  else if nano % 1000000 = 0 then '.' :: Text.paddedDecimal 3 (nano / 1000000)
  else if nano % 1000 = 0 then '.' :: Text.paddedDecimal 6 (nano / 1000)
  else '.' :: Text.paddedDecimal 9 nano

namespace Instant

/-- Date and time of day, without fraction and zone. -/
def dateTimeText (t : Instant) : List Char :=
  t.date.text ++ 'T' :: clockText t.second t.isLeap

/-- The form of an instant in a document. -/
def timestamp (t : Instant) : String :=
  String.ofList (t.dateTimeText ++ fractionText (t.nano % 1000000000) ++ ['Z'])

/-- The form of an instant in rendered text. -/
def rendered (t : Instant) : String :=
  String.ofList
    (t.dateTimeText ++ '.' :: Text.paddedDecimal 3 (t.nano % 1000000000 / 1000000) ++ ['Z'])

end Instant
end CalendarRules
