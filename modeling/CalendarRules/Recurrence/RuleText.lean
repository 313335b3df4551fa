import CalendarRules.Event
import CalendarRules.Recurrence.Stamp
import CalendarRules.Text.Split

/-!
# The rule text of a recurrence

A recurrence is written as the lines that calendars exchange: one for the local start, one for the
rule, and one for the exclusions if there are any.  The rule is a list of properties, each a name
and a value; of the days of the week only those that exist are named.

The end of the rule is marked as universal time in the zone called `UTC`, and is local time in any
other.
-/

namespace CalendarRules

/-- The names of the days of the week in rules, from Sunday on. -/
def weekdayNames : List (List Char) := ["SU", "MO", "TU", "WE", "TH", "FR", "SA"].map String.toList

namespace Frequency

/-- The name of a frequency in rules. -/
def ruleName (f : Frequency) : List Char := f.name.toList.map Char.toUpper

end Frequency

namespace Recurrence

/-- A property with its value. -/
def property (name : String) (value : List Char) : List Char := name.toList ++ '=' :: value

/-- The value of a property, found by its name among properties that have come apart. -/
def property? (name : String) (properties : List (List (List Char))) : Option (List Char) :=
  (properties.find? fun p => p.head? == some name.toList).bind fun p => p[1]?

/-- The end of a recurrence as a rule has it. -/
def untilText (z : Zone) (t : Instant) : List Char :=
  z.stamp t ++ if z.name = "UTC" then ['Z'] else []

/-- The names of the days of the week that exist. -/
def dayNames (r : Recurrence) : List (List Char) :=
  (r.daysOfWeek.getD []).filterMap fun d => if d < 0 then none else weekdayNames[d.toNat]?

/-- The properties of a rule in order. -/
def properties (r : Recurrence) (z : Zone) : List (List Char) :=
  [property "FREQ" r.frequency.ruleName, property "INTERVAL" (Text.integer r.interval)] ++
  (r.count.map fun n => property "COUNT" (Text.integer n)).toList ++
  (r.endDate.map fun t => property "UNTIL" (untilText z t)).toList ++
  (if r.dayNames.isEmpty then [] else [property "BYDAY" (Text.joined ',' r.dayNames)]) ++
  (r.dayOfMonth.map fun d => property "BYMONTHDAY" (Text.integer d)).toList

/-- The name of a line that holds local times of a zone. -/
def lineHead (name : String) (z : Zone) : List Char :=
  name.toList ++ ";TZID=".toList ++ z.name.toList

def startLine (z : Zone) (start : Instant) : List Char :=
  lineHead "DTSTART" z ++ ':' :: z.stamp start

def ruleLine (r : Recurrence) (z : Zone) : List Char :=
  "RRULE:".toList ++ Text.joined ';' (r.properties z)

def exclusionLine (r : Recurrence) (z : Zone) : List Char :=
  lineHead "EXDATE" z ++ ':' :: Text.joined ',' (r.excludeDates.map z.stamp)

/-- The lines of a recurrence that starts at an instant, in a zone. -/
def ruleLines (r : Recurrence) (z : Zone) (start : Instant) : List (List Char) :=
  [startLine z start, r.ruleLine z] ++
    if r.excludeDates.isEmpty then [] else [r.exclusionLine z]

/-- The text of a recurrence that starts at an instant, in a zone. -/
def ruleText (r : Recurrence) (z : Zone) (start : Instant) : List Char :=
  Text.joined '\n' (r.ruleLines z start)

end Recurrence
end CalendarRules
