import CalendarRules.Recurrence.Engine
import CalendarRules.Recurrence.RuleText

/-!
# Expanding a recurring event

The occurrences of an event: the event itself, or one for each instance of the rule of its
recurrence, all as long as the event.  The rule is written down in the zone of the recurrence, else
in that of the event, else in universal time, and an engine expands it.

Every occurrence that is drawn has to end within the range of instants.  More are drawn than are
asked for, one for each exclusion, up to the largest number that can be asked for.
-/

namespace CalendarRules

/-- One occurrence of an event. -/
structure Occurrence where
  start : Instant
  finish : Instant
  deriving DecidableEq

def Occurrence.json (o : Occurrence) : Json :=
  .object [("start", o.start.json), ("end", o.finish.json)]

/-- Why an event cannot be expanded. -/
inductive ExpansionError where
  | invalidRecurrence (problems : List String)
  | invalidTimezone (name : String)
  /-- The rule is refused with a message. -/
  | unusableRule (message : String)
  /-- An occurrence would end outside the range of instants. -/
  | outOfRange

def ExpansionError.message : ExpansionError → String
  | .invalidRecurrence problems => "Invalid recurrence: " ++ "; ".intercalate problems
  | .invalidTimezone name => "Invalid timezone: " ++ name
  | .unusableRule message => "Expansion error: " ++ message
  | .outOfRange => "Expansion error: an occurrence ends outside the range of instants"

namespace Event

/-- The largest number of instances that can be asked for. -/
def mostInstances : Nat := 65535

/-- The number of occurrences if none is asked for. -/
def defaultLimit : Nat := 500

/-- The occurrence that starts at an instance of a rule. -/
def occurrenceAt (e : Event) (start : Instant) : Except ExpansionError Occurrence :=
  match start.plus? e.length with
  | none => .error .outOfRange
  | some finish => .ok ⟨start, finish⟩

/-- The name of the zone in which an event recurs. -/
def recurrenceZone (e : Event) (r : Recurrence) : String := (r.timeZone.or e.timeZone).getD "UTC"

/-- The instances of the rule of a recurrence of an event. -/
def instances [TimeZones] [RuleEngine] (e : Event) (r : Recurrence) :
    Except ExpansionError Instances := do
  if !r.problems.isEmpty then throw (.invalidRecurrence r.problems)
  let name := e.recurrenceZone r
  match Zone.ofName? name with
  | none => throw (.invalidTimezone name)
  | some zone =>
    match RuleEngine.expand (r.ruleText zone e.start) with
    | .error message => throw (.unusableRule message)
    | .ok instances => return instances

/-- The number of occurrences to draw for a limit. -/
def drawnFor (r : Recurrence) (limit : Nat) : Nat :=
  min mostInstances (limit + r.excludeDates.length)

/-- The occurrences of an event, at most `limit` of them if it recurs. -/
def occurrences [TimeZones] [RuleEngine] (e : Event) (limit : Nat) :
    Except ExpansionError (List Occurrence) :=
  match e.recurring with
  | none => .ok [⟨e.start, e.finish⟩]
  | some r => do
    let instances ← e.instances r
    let occurrences ← (instances (drawnFor r limit)).mapM e.occurrenceAt
    return occurrences.take limit

end Event
end CalendarRules
