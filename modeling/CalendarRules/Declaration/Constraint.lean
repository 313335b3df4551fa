import CalendarRules.Declaration.Literal

/-!
# Constraints

Named limits on when an event may take place.  The value of a constraint is a duration, a range, or
any other document.
-/

namespace CalendarRules

inductive ConstraintValue where
  | duration (d : Duration)
  | range (min max : Literal)
  | literal (value : Json)

namespace ConstraintValue

/-- Reads a range, which cannot be written as an array. -/
def readRange (s : Source) : Except Problem ConstraintValue := do
  let min := s.slot 0 "min" fun x _ => Literal.read .aside x
  let max := s.slot 1 "max" fun x _ => Literal.read .aside x
  match s with
  | .object _ _ =>
    s.checkRecord .aside "struct variant ConstraintValue::Range" [min.report, max.report]
  | s => throw (s.unexpected "struct variant ConstraintValue::Range")
  return .range (← min.get) (← max.get)

def read (origin : Origin) (s : Source) : Except Problem ConstraintValue := do
  s.setAside origin
  match Duration.read .aside s with
  | .ok d => return .duration d
  | .error _ =>
    match readRange s with
    | .ok value => return value
    | .error _ => return .literal (← s.readJson)

def json : ConstraintValue → Json
  | .duration d => d.json
  | .range min max => .object [("min", min.json), ("max", max.json)]
  | .literal value => value

/-- The value as a number of minutes; a bare number counts minutes. -/
def minutes? : ConstraintValue → Option Binary64
  | .duration d => some d.minutes
  | .literal value => value.asDouble?.map .finite
  | .range .. => none

/-- The value as a number of days; a bare number counts days. -/
def days? : ConstraintValue → Option Binary64
  | .duration d => some (d.minutes.divNat 1440)
  | .literal value => value.asDouble?.map .finite
  | .range .. => none

def string? : ConstraintValue → Option String
  | .literal value => value.asString?
  | _ => none

end ConstraintValue

structure Constraint where
  name : String
  value : ConstraintValue

namespace Constraint

def read (origin : Origin) (s : Source) : Except Problem Constraint := do
  let name := s.slot 0 "name" fun x _ => x.readString
  let value := s.slot 1 "value" fun x _ => ConstraintValue.read origin x
  s.checkRecord origin "struct ConstraintRule" [name.report, value.report]
  return ⟨← name.get, ← value.get⟩

def json (c : Constraint) : Json := .object [("name", .string c.name), ("value", c.value.json)]

end Constraint
end CalendarRules
