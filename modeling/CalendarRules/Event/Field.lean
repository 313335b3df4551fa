import CalendarRules.Event.Scope
import CalendarRules.Json.Path
import CalendarRules.Value

/-!
# Fields of an event

What a path means for an event.  A few heads are reserved: the start and the finish with their
parts, and as single segments the title, the type, the identifier, the duration, the moment and the
time of creation.  A head `user` belongs to the acting user if there is one.  Every other path
leads into the payload, with or without the head `extra`.
-/

namespace CalendarRules
namespace Event

/-- The length of the event in minutes, from whole milliseconds and rounded. -/
def measuredDuration (e : Event) : Value :=
  .ofDouble ((Binary64.ofInt (Instant.wholeMillis e.length)).divNat 60000).round

/-- How long the event takes: what the payload says, else its length. -/
def duration (e : Event) : Value :=
  match Entries.get? "duration" e.extra with
  | some j => if j.isNull then e.measuredDuration else .json j
  | none => e.measuredDuration

/-- The time zone of the event, else of its recurrence. -/
def knownZone (e : Event) : Option String := e.timeZone.or (e.recurring.bind Recurrence.timeZone)

/-- A part of the start or the finish, in universal time. -/
def part (e : Event) (t : Instant) (name : String) : Value :=
  match name with
  | "hour" => .json (.ofNat t.hour)
  | "minute" => .json (.ofNat t.minute)
  | "second" => .json (.ofNat t.secondOfMinute)
  | "day" => .json (.ofNat t.date.day)
  | "month" => .json (.ofNat t.date.month)
  | "year" => .json (.ofInt t.date.year)
  | "date" => .json (.string (String.ofList t.date.text))
  | "dayOfWeek" => .json (.ofNat (Date.weekday t.day))
  | "timeZone" => .ofString? e.knownZone
  | _ => .undefined

/-- The start or the finish, or a part of it. -/
def instantField (e : Event) (t : Instant) : List String → Value
  | [] => .instant t
  | [name] => e.part t name
  | _ => .undefined

/-- A field that is reserved as a single segment. -/
def reserved? (e : Event) (scope : Scope) (name : String) : Option Value :=
  match name with
  | "title" => some (.ofString? e.title)
  | "type" => some (.json (.string e.type))
  | "id" => some (.json (.string e.id))
  | "duration" => some e.duration
  | "now" => some (.instant scope.moment)
  | "created" => some <|
    match e.metadata.bind EventMetadata.createdAt with
    | some t => .instant t
    | none => .undefined
  | _ => none

/-- What a path in the payload leads to. -/
def payloadField (e : Event) (path : List String) : Value :=
  .ofJson? ((Json.object e.extra).walk? path)

/-- A path that is neither the user's nor a part of the start or the finish. -/
def ownField (e : Event) (scope : Scope) (path : List String) : Value :=
  match path with
  | [name] => (e.reserved? scope name).getD <|
    if name = "extra" then e.payloadField [] else e.payloadField [name]
  | "extra" :: rest => e.payloadField rest
  | path => e.payloadField path

/-- What a path means for an event in a scope. -/
def field (e : Event) (scope : Scope) (path : FieldPath) : Value :=
  match path.segments with
  | [] => .undefined
  | head :: rest =>
    match head, scope.user with
    | "user", some user => .ofJson? (user.walk? rest)
    | "startTime", _ => e.instantField e.start rest
    | "endTime", _ => e.instantField e.finish rest
    | _, _ => e.ownField scope (head :: rest)

end Event
end CalendarRules
