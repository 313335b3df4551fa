import CalendarRules.Time.Timestamp
import CalendarRules.Time.Zone

/-!
# Stamps

The lines of a recurrence rule write local times as stamps: year, month and day without dashes, `T`,
and hour, minute and second without colons.  A stamp that can be read has a year of four digits and
a second below sixty, so a leap second, or a year with a sign, is written but not read.
-/

namespace CalendarRules

/-- What the clocks of a zone show at an instant, as a stamp. -/
def Zone.stamp (z : Zone) (t : Instant) : List Char :=
  let localTime := z.localTime t.seconds
  let date := Date.ofDay (localTime / 86400)
  let second := (localTime % 86400).toNat
  yearText date.year ++ Text.paddedDecimal 2 date.month ++ Text.paddedDecimal 2 date.day ++
    'T' :: Text.paddedDecimal 2 (second / 3600) ++ Text.paddedDecimal 2 (second / 60 % 60) ++
    Text.paddedDecimal 2 (second % 60 + if t.isLeap then 1 else 0)

/-- The local time of a stamp in seconds. -/
def stampSeconds? (stamp : List Char) : Option Int :=
  match stamp with
  | [y₁, y₂, y₃, y₄, m₁, m₂, d₁, d₂, 'T', h₁, h₂, n₁, n₂, s₁, s₂] =>
    if [y₁, y₂, y₃, y₄, m₁, m₂, d₁, d₂, h₁, h₂, n₁, n₂, s₁, s₂].all Char.isDigit then
      let date? := Date.ofParts? (Text.decimalValue [y₁, y₂, y₃, y₄])
        (Text.decimalValue [m₁, m₂]) (Text.decimalValue [d₁, d₂])
      let hour := Text.decimalValue [h₁, h₂]
      let minute := Text.decimalValue [n₁, n₂]
      let second := Text.decimalValue [s₁, s₂]
      if hour < 24 ∧ minute < 60 ∧ second < 60 then
        date?.map fun date => date.toDay * 86400 + (3600 * hour + 60 * minute + second : Nat)
      else none
    else none
  | _ => none

/-- A local time with the offset of its zone. -/
def offsetTimestamp (localTime offset : Int) : String :=
  let sign := if offset < 0 then '-' else '+'
  String.ofList <|
    (Date.ofDay (localTime / 86400)).text ++ 'T' :: clockText (localTime % 86400).toNat false ++
      sign :: Text.paddedDecimal 2 (offset.natAbs / 3600) ++
      ':' :: Text.paddedDecimal 2 (offset.natAbs / 60 % 60)

end CalendarRules
