import CalendarRules.Json.Reading
import CalendarRules.Json.Writer

/-!
# Literals and paths

The leaves of expressions.  A literal is a duration, such as two hours, or any value; a document
that has the form of a duration is one.  A path names a field by the segments that lead to it.
-/

namespace CalendarRules

/-- A number of minutes, hours, days or weeks. -/
structure Duration where
  value : Finite64
  unit : String

namespace Duration

/-- Minutes in a unit; an unknown unit is a minute. -/
def minutesPerUnit (unit : String) : Nat :=
  if unit = "hours" then 60
  else if unit = "days" then 1440
  else if unit = "weeks" then 10080
  else 1

/-- A number of units in minutes. -/
def minutesOf (value : Finite64) (unit : String) : Binary64 :=
  (Binary64.finite value).mulNat (minutesPerUnit unit)

def minutes (d : Duration) : Binary64 := minutesOf d.value d.unit

def read (origin : Origin) (s : Source) : Except Problem Duration := do
  let value := s.slot 0 "value" fun x _ => x.readDouble
  let unit := s.slot 1 "unit" fun x _ => x.readString
  s.checkRecord origin "struct DurationLiteral" [value.report, unit.report]
  return ⟨← value.get, ← unit.get⟩

def json (d : Duration) : Json :=
  .object [("value", .number (.float d.value)), ("unit", .string d.unit)]

/-- A duration inside a message. -/
def text (d : Duration) : String := String.ofList d.value.message ++ " " ++ d.unit

end Duration

inductive Literal where
  | duration (d : Duration)
  | value (j : Json)

namespace Literal

/-- Reads a duration if the source has the form of one, else any value. -/
def read (origin : Origin) (s : Source) : Except Problem Literal := do
  s.setAside origin
  match Duration.read .aside s with
  | .ok d => return .duration d
  | .error _ => return .value (← s.readJson)

def json : Literal → Json
  | .duration d => d.json
  | .value j => j

/-- A literal inside a message. -/
def text : Literal → String
  | .duration d => d.text
  | .value j => j.message

end Literal

/-- The segments that lead to a field. -/
structure FieldPath where
  segments : List String
  deriving DecidableEq

namespace FieldPath

def read (origin : Origin) (s : Source) : Except Problem FieldPath := do
  let path := s.slot 0 "path" fun x _ => Source.readList Source.readString x
  s.checkRecord origin "struct FieldAccess" [path.report]
  return ⟨← path.get⟩

/-- The segments of a path as an entry of an object. -/
def entry (path : FieldPath) : String × Json := ("path", .array (path.segments.map .string))

def json (path : FieldPath) : Json := .object [path.entry]

/-- A path inside a message. -/
def text (path : FieldPath) : String := ".".intercalate path.segments

end FieldPath
end CalendarRules
