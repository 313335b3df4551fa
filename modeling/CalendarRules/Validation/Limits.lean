import CalendarRules.Declaration.Constraint
import CalendarRules.Event.Field
import CalendarRules.Value.Comparison

/-!
# Limits on the time of an event

An event has to start before it finishes, an event of whole days has to cover them, and its
recurrence has to make sense.  The constraints of a type add limits on length, precision, advance
notice, time zone and days; each is known by its name, the first constraint of a name counts, and
other names say nothing.

Every limit is checked on its own, and the violations come in a fixed order.
-/

namespace CalendarRules

/-- The value of the first constraint of a name. -/
def Constraint.named? (name : String) (constraints : List Constraint) : Option ConstraintValue :=
  (constraints.find? fun c => c.name == name).map Constraint.value

/-- The number of minutes that a constraint gives. -/
def Constraint.minutes? (name : String) (constraints : List Constraint) : Option Binary64 :=
  (Constraint.named? name constraints).bind ConstraintValue.minutes?

namespace Event

/-- A message, if something is wrong. -/
def complaint (wrong : Bool) (message : String) : List String := if wrong then [message] else []

def orderViolations (e : Event) : List String :=
  complaint (!e.start.lt e.finish) "Start time must be before end time"

/-- The duration against a least and a greatest number of minutes. -/
def durationViolations (min max : Option Binary64) (e : Event) : List String :=
  if min.isNone && max.isNone then []
  else match e.duration.measure? with
    | none => ["Event duration cannot be compared numerically"]
    | some d =>
      (match min with
        | some min => complaint (d.lt min) <|
          "Event duration (" ++ d.message ++ " minutes) is shorter than the minimum of " ++
            min.message ++ " minutes"
        | none => []) ++
      (match max with
        | some max => complaint (max.lt d) <|
          "Event duration (" ++ d.message ++ " minutes) exceeds the maximum of " ++
            max.message ++ " minutes"
        | none => [])

/-- The minute of the hour is a multiple of a number of minutes. -/
def isAligned (precision : Binary64) (t : Instant) : Bool :=
  match (Binary64.ofNat t.minute).rem precision with
  | some r => r.same (.finite .zero)
  | none => false

/-- Start and finish against the precision of the calendar. -/
def precisionViolations (precision : Option Binary64) (e : Event) : List String :=
  match precision with
  | none => []
  | some p =>
    if p.le (.finite .zero) then
      ["Time precision must be a positive number of minutes, got " ++ p.message]
    else
      complaint (!isAligned p e.start)
        ("Start time must align to " ++ p.message ++ "-minute intervals") ++
      complaint (!isAligned p e.finish)
        ("End time must align to " ++ p.message ++ "-minute intervals")

/-- A number of minutes as whole milliseconds. -/
def millisOfMinutes (minutes : Binary64) : Binary64 := (minutes.mulNat 60000).round

/-- The notice that an event gives, against a least and a greatest number of minutes. -/
def noticeViolations (min max : Option Binary64) (now : Option Instant) (e : Event) :
    List String :=
  match now with
  | none => []
  | some now =>
    let notice := Binary64.ofInt (Instant.wholeMillis (e.start.minus now))
    (match min with
      | some min => complaint (notice.lt (millisOfMinutes min)) <|
        "Event must be scheduled at least " ++ min.message ++ " minutes in advance"
      | none => []) ++
    (match max with
      | some max => complaint ((millisOfMinutes max).lt notice) <|
        "Event cannot be scheduled more than " ++ max.message ++ " minutes in advance"
      | none => [])

/-- The time zone against the one that is asked for.  An event without a time zone passes. -/
def zoneViolations (required : Option ConstraintValue) (e : Event) : List String :=
  match required.bind ConstraintValue.string?, e.timeZone with
  | some required, some actual => complaint (required != actual) <|
    "Event time zone " ++ actual ++ " does not match required time zone " ++ required
  | _, _ => []

/-- The time zone against a list of allowed ones. -/
def allowedZoneViolations (allowed : Option ConstraintValue) (e : Event) : List String :=
  match allowed, e.timeZone with
  | some (.literal (.array names)), some actual =>
    complaint (!names.any fun name => name.asString? == some actual)
      ("Time zone " ++ actual ++ " is not allowed")
  | _, _ => []

/-- The finish of an event of one day: in its last second, or at the beginning of the next day. -/
def closesDay (start finish : Instant) : Bool :=
  finish.day == start.day && finish.second == 86399 ||
    finish.day == start.day + 1 && finish.isMidnight

/-- Whole days start at midnight and close. -/
def allDayViolations (e : Event) : List String :=
  complaint (!e.start.isMidnight) "All-day events must start at 00:00:00.000 UTC" ++
  complaint (!closesDay e.start e.finish)
    "All-day events must end at 23:59:59 UTC the same day or 00:00:00.000 UTC the next day"

/-- Whole days for an event of whole days, one date for any other event that may not cross midnight.
-/
def dayViolations (crossing : Option ConstraintValue) (e : Event) : List String :=
  if e.allDay = some true then e.allDayViolations
  else match crossing with
    | some (.literal (.bool false)) =>
      complaint (e.start.day != e.finish.day) "Event cannot span multiple days"
    | _ => []

/-- The number of midnights that an event crosses, against a greatest number of days. -/
def spanViolations (max : Option Binary64) (e : Event) : List String :=
  match max with
  | none => []
  | some max =>
    let span := e.finish.day - e.start.day
    complaint (max.lt (.ofInt span)) <|
      "Event spans " ++ String.ofList (Text.integer span) ++ " days, exceeding the maximum of " ++
        max.message ++ " days"

def recurrenceViolations [TimeZones] (e : Event) : List String :=
  match e.recurring with
  | some r => r.problems
  | none => []

/-- Everything that is wrong with the time of an event. -/
def timeViolations [TimeZones] (constraints : List Constraint) (scope : Scope) (e : Event) :
    List String :=
  e.orderViolations ++
  e.durationViolations (Constraint.minutes? "minDuration" constraints)
    (Constraint.minutes? "maxDuration" constraints) ++
  e.precisionViolations (Constraint.minutes? "timePrecision" constraints) ++
  e.noticeViolations (Constraint.minutes? "minAdvanceTime" constraints)
    (Constraint.minutes? "maxAdvanceTime" constraints) scope.now ++
  e.zoneViolations (Constraint.named? "timeZone" constraints) ++
  e.allowedZoneViolations (Constraint.named? "allowedTimeZones" constraints) ++
  e.dayViolations (Constraint.named? "allowCrossDay" constraints) ++
  e.spanViolations
    ((Constraint.named? "maxCrossDayDuration" constraints).bind ConstraintValue.days?) ++
  e.recurrenceViolations

end Event
end CalendarRules
