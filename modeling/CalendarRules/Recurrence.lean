import CalendarRules.Json.Reading
import CalendarRules.Time.Reading
import CalendarRules.Time.Timestamp
import CalendarRules.Time.Zone

/-!
# Recurrences

How an event repeats: a frequency with an interval, an end by date or by count, days of the week or
of the month, excluded instants and a time zone.  Numbers are kept as they are written, so that a
recurrence that makes no sense can be read; `problems` says what is wrong with it.
-/

namespace CalendarRules

inductive Frequency where
  | daily
  | weekly
  | monthly
  | yearly
  deriving DecidableEq

namespace Frequency

def name : Frequency → String
  | .daily => "daily"
  | .weekly => "weekly"
  | .monthly => "monthly"
  | .yearly => "yearly"

def all : List Frequency := [.daily, .weekly, .monthly, .yearly]

def read (origin : Origin) (s : Source) : Except Problem Frequency := do
  let name ← s.readName origin (all.map Frequency.name)
  return (all.find? fun f => f.name == name).getD .daily

end Frequency

structure Recurrence where
  frequency : Frequency
  interval : Int := 1
  endDate : Option Instant := none
  count : Option Int := none
  /-- Days of the week, Sunday being zero. -/
  daysOfWeek : Option (List Int) := none
  dayOfMonth : Option Int := none
  excludeDates : List Instant := []
  timeZone : Option String := none

/-- Reads an instant from a timestamp in the relaxed form. -/
def Instant.read : Source → Except Problem Instant
  | .string text =>
    match Instant.ofRelaxed text with
    | .ok t => .ok t
    | .error fault => .error (.mismatch (.timestamp fault.message))
  | s => .error (s.unexpected "an RFC 3339 formatted date and time string")

def Instant.json (t : Instant) : Json := .string t.timestamp

namespace Recurrence

def read (origin : Origin) (s : Source) : Except Problem Recurrence := do
  let frequency := s.slot 0 "frequency" fun x _ => Frequency.read origin x
  let interval := s.optionalSlot 1 "interval" fun x _ => x.readInteger
  let endDate := s.optionalSlot 2 "endDate" fun x _ => Source.readOption Instant.read x
  let count := s.optionalSlot 3 "count" fun x _ => Source.readOption Source.readInteger x
  let daysOfWeek := s.optionalSlot 4 "daysOfWeek" fun x _ =>
    Source.readOption (Source.readList Source.readInteger) x
  let dayOfMonth := s.optionalSlot 5 "dayOfMonth" fun x _ => Source.readOption Source.readInteger x
  let excludeDates := s.optionalSlot 6 "excludeDates" fun x _ => Source.readList Instant.read x
  let timeZone := s.optionalSlot 7 "timeZone" fun x _ => Source.readOption Source.readString x
  s.checkRecord origin "struct RecurrenceTemplate"
    [frequency.report, interval.report, endDate.report, count.report, daysOfWeek.report,
      dayOfMonth.report, excludeDates.report, timeZone.report]
  return {
    frequency := ← frequency.get
    interval := ← interval.getD 1
    endDate := ← endDate.getD none
    count := ← count.getD none
    daysOfWeek := ← daysOfWeek.getD none
    dayOfMonth := ← dayOfMonth.getD none
    excludeDates := ← excludeDates.getD []
    timeZone := ← timeZone.getD none }

def json (r : Recurrence) : Json :=
  .object <|
    [("frequency", .string r.frequency.name), ("interval", .ofInt r.interval)] ++
    Entries.optional "endDate" (r.endDate.map Instant.json) ++
    Entries.optional "count" (r.count.map .ofInt) ++
    Entries.optional "daysOfWeek" (r.daysOfWeek.map fun days => .array (days.map .ofInt)) ++
    Entries.optional "dayOfMonth" (r.dayOfMonth.map .ofInt) ++
    Entries.optional "excludeDates"
      (if r.excludeDates.isEmpty then none else some (.array (r.excludeDates.map Instant.json))) ++
    Entries.optional "timeZone" (r.timeZone.map .string)

/-! ## Problems of a recurrence -/

/-- One of end date and count, and not both. -/
def endProblems (r : Recurrence) : List String :=
  match r.endDate, r.count with
  | some _, some _ => ["Recurring events must specify either an end date or a count, not both"]
  | none, none => ["Recurring events must specify an end date or a count"]
  | _, _ => []

def intervalProblems (r : Recurrence) : List String :=
  if r.interval ≤ 0 then ["Recurrence interval must be greater than 0"] else []

def countProblems (r : Recurrence) : List String :=
  match r.count with
  | some count => if count ≤ 0 then ["Recurrence count must be greater than 0"] else []
  | none => []

/-- Weeks need days of the week, months a day of the month. -/
def dayProblems (r : Recurrence) : List String :=
  match r.frequency with
  | .weekly =>
    match r.daysOfWeek with
    | none | some [] => ["Weekly recurrence requires at least one day of the week"]
    | some days =>
      if days.all fun d => 0 ≤ d && d ≤ 6 then []
      else ["Days of week must be between 0 (Sunday) and 6 (Saturday)"]
  | .monthly =>
    match r.dayOfMonth with
    | some d =>
      if 1 ≤ d && d ≤ 31 then []
      else ["Monthly recurrence requires a day of month between 1 and 31"]
    | none => ["Monthly recurrence requires a day of month between 1 and 31"]
  | .daily | .yearly => []

def zoneProblems [TimeZones] (r : Recurrence) : List String :=
  match r.timeZone with
  | some name =>
    if (Zone.ofName? name).isSome then [] else ["Unknown recurrence time zone: " ++ name]
  | none => []

/-- What is wrong with a recurrence, one message each. -/
def problems [TimeZones] (r : Recurrence) : List String :=
  r.endProblems ++ r.intervalProblems ++ r.countProblems ++ r.dayProblems ++ r.zoneProblems

end Recurrence
end CalendarRules
