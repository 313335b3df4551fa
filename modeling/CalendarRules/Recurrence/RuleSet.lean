import CalendarRules.Recurrence.RuleText
import CalendarRules.Time.YearlyZone

/-!
# Rule sets

What the lines of a rule mean to the engine of a program that has no other: a start in a zone of the
table, a rule that says how the start is repeated, and the excluded instants.  Instants are counted
in seconds here.

Reading fails on values that a rule cannot have, and on local times that belong to two instants.  A
rule whose parts do not go together is refused after everything has been read.
-/

namespace CalendarRules

/-- Why the lines of a rule are refused. -/
inductive RuleFault where
  /-- The text does not have the lines of a rule. -/
  | unreadable
  /-- A stamp of a property cannot be read. -/
  | stamp (property stamp : String)
  /-- The clocks show a local time twice, once for each of two timestamps. -/
  | ambiguous (property stamp first second : String)
  /-- A value of a property is out of range; the hint says what it should be. -/
  | value (property text hint : String)
  /-- The end of a rule is a local time although the start is in a zone. -/
  | localEnd (zone : String)
  /-- The end of a rule lies before the start. -/
  | endBeforeStart (finish start : String)
  /-- Weeks do not go with a day counted from the beginning of a month. -/
  | weeklyMonthDay

def RuleFault.message : RuleFault → String
  | .unreadable => "RRule parsing error: The text is not a rule."
  | .stamp property text =>
    "RRule parsing error: `" ++ text ++ "` is not a valid datetime format for `" ++ property ++ "`."
  | .ambiguous property text first second =>
    "RRule parsing error: " ++ property ++ ":" ++ text ++
      " is not a valid datetime in local timezone. This value is ambiguous and can be `" ++
      first ++ "` or `" ++ second ++ "`"
  | .value property text hint =>
    "RRule parsing error: `" ++ text ++ "` is not a valid " ++ property ++ " value." ++ hint
  | .localEnd zone =>
    "RRule validation error: The value of `DTSTART` was specified in " ++ zone ++
      " timezone, but `UNTIL` was specified in timezone Local. Allowed timezones for `UNTIL` " ++
      "with the given start date timezone are: `[\"UTC\"]`"
  | .endBeforeStart finish start =>
    "RRule validation error: `UNTIL` is `" ++ finish ++ "`, but `DTSTART` (`" ++ start ++
      "`) is later. That should not be happening."
  | .weeklyMonthDay =>
    "RRule validation error: `BYMONTHDAY` can not be used with the current frequency (WEEKLY)."

/-- How a start is repeated. -/
structure Repetition where
  frequency : Frequency
  interval : Nat
  count : Option Nat
  /-- The last instant, in seconds, and whether it was given in universal time. -/
  finish : Option (Int × Bool)
  /-- Days of the week, Sunday being zero; none is no condition. -/
  days : List Nat
  /-- A day of the month, counted from its end if negative. -/
  monthDay : Option Int

structure RuleSet where
  zone : YearlyZone
  /-- The local time of the start in seconds. -/
  localStart : Int
  /-- The start in seconds. -/
  start : Int
  repetition : Repetition
  /-- The excluded instants in seconds. -/
  excluded : List Int

namespace RuleSet

/-! ## Parts of lines -/

/-- The instant at which the clocks of a zone show a stamp. -/
def readStamp (property : String) (z : YearlyZone) (stamp : List Char) :
    Except RuleFault (Int × Int) :=
  match stampSeconds? stamp with
  | none => .error (.stamp property (String.ofList stamp))
  | some localTime =>
    match z.instantsAt localTime with
    | [t] => .ok (localTime, t)
    | a :: b :: _ => .error (.ambiguous property (String.ofList stamp)
        (offsetTimestamp localTime (localTime - a)) (offsetTimestamp localTime (localTime - b)))
    | [] => .error .unreadable

/-- Splits a line that holds local times into the zone and the rest. -/
def readLine (name : String) (line : List Char) :
    Except RuleFault (YearlyZone × List Char) :=
  match Text.split ':' line with
  | [head, value] =>
    match Text.split '=' head with
    | [key, zone] =>
      match YearlyZone.ofName? (String.ofList zone) with
      | some z => if key = name.toList ++ ";TZID".toList then .ok (z, value) else .error .unreadable
      | none => .error .unreadable
    | _ => .error .unreadable
  | _ => .error .unreadable

/-- A number that may be as large as `most`. -/
def readNumber (property : String) (most : Nat) (text : List Char) : Except RuleFault Nat :=
  if Text.isNumeral text && Text.decimalValue text ≤ most then .ok (Text.decimalValue text)
  else .error (.value property (String.ofList text) "")

/-- A day of the month. -/
def readMonthDay (text : List Char) : Except RuleFault Int :=
  let (negative, digits) := match text with
    | '-' :: digits => (true, digits)
    | digits => (false, digits)
  if Text.isNumeral digits && Text.decimalValue digits ≤ 31 then
    .ok (if negative then -(Text.decimalValue digits : Int) else Text.decimalValue digits)
  else .error (.value "BYMONTHDAY" (String.ofList text)
    " Expected a comma-separated list of values in range -31..=31, e.g. `-30,10`")

/-- The end of a rule. -/
def readFinish (text : List Char) : Except RuleFault (Int × Bool) :=
  let universal := text.getLast? == some 'Z'
  match stampSeconds? (if universal then text.dropLast else text) with
  | some seconds => .ok (seconds, universal)
  | none => .error (.stamp "UNTIL" (String.ofList text))

/-- Days of the week by name. -/
def readDays (text : List Char) : Except RuleFault (List Nat) :=
  match (Text.split ',' text).mapM fun name => weekdayNames.findIdx? fun known => known == name with
  | some days => .ok days
  | none => .error .unreadable

/-- Reads the value of a property that may be missing. -/
def readOptional {α : Type} (read : List Char → Except RuleFault α) :
    Option (List Char) → Except RuleFault (Option α)
  | some text => (read text).map some
  | none => .ok none

/-- The line of the rule. -/
def readRepetition (line : List Char) : Except RuleFault Repetition :=
  match Text.split ':' line with
  | [head, value] => do
    let properties := (Text.split ';' value).map (Text.split '=')
    match Frequency.all.find? fun f =>
        some f.ruleName == Recurrence.property? "FREQ" properties with
    | some frequency =>
      if head ≠ "RRULE".toList then throw .unreadable
      let interval ← readOptional (readNumber "INTERVAL" 65535)
        (Recurrence.property? "INTERVAL" properties)
      let count ← readOptional (readNumber "COUNT" 4294967295)
        (Recurrence.property? "COUNT" properties)
      let finish ← readOptional readFinish (Recurrence.property? "UNTIL" properties)
      let monthDay ← readOptional readMonthDay (Recurrence.property? "BYMONTHDAY" properties)
      let days ← readOptional readDays (Recurrence.property? "BYDAY" properties)
      return ⟨frequency, interval.getD 1, count, finish, days.getD [],
        if monthDay = some 0 then none else monthDay⟩
    | none => throw .unreadable
  | _ => .error .unreadable

/-! ## Whole rules -/

/-- The zones in which a rule with an end is accepted, if that end is in universal time. -/
def acceptsEnd (z : YearlyZone) : Bool := z.name = "UTC"

/-- Whether a rule repeats weeks and asks for a day counted from the beginning of a month.  A day
counted from the end only narrows the days of a week. -/
def hasWeeklyMonthDay (r : Repetition) : Bool :=
  r.frequency = .weekly && r.monthDay.any fun d => 0 < d

/-- Refuses rules whose parts do not go together. -/
def check (s : RuleSet) : Except RuleFault RuleSet := do
  match s.repetition.finish with
  | none => pure ()
  | some (finish, universal) =>
    if !(acceptsEnd s.zone && universal) then throw (.localEnd s.zone.name)
    if finish < s.start then
      throw (.endBeforeStart (offsetTimestamp finish 0) (offsetTimestamp s.start 0))
  if hasWeeklyMonthDay s.repetition then throw .weeklyMonthDay
  return s

/-- Reads the instants of the line of exclusions. -/
def readExclusions (line : List Char) : Except RuleFault (List Int) := do
  let (zone, value) ← readLine "EXDATE" line
  (Text.split ',' value).mapM fun stamp => (readStamp "EXDATE" zone stamp).map Prod.snd

/-- Reads the lines of a rule. -/
def ofText (text : List Char) : Except RuleFault RuleSet :=
  match Text.split '\n' text with
  | startLine :: ruleLine :: exclusions => do
    let (zone, value) ← readLine "DTSTART" startLine
    let (localStart, start) ← readStamp "DTSTART" zone value
    let repetition ← readRepetition ruleLine
    let excluded ← match exclusions with
      | [] => pure []
      | [line] => readExclusions line
      | _ => throw .unreadable
    check ⟨zone, localStart, start, repetition, excluded⟩
  | _ => .error .unreadable

end RuleSet
end CalendarRules
