import CalendarRules.Declaration.Expression

/-!
# Behavior rules

Who may do what with an event: each rule answers one action, by a flag or by a condition.
-/

namespace CalendarRules

/-- What can be done with an event. -/
inductive Action where
  | draggable
  | resizable
  | editable
  | deletable
  | other (name : String)
  deriving DecidableEq

namespace Action

def name : Action → String
  | .draggable => "draggable"
  | .resizable => "resizable"
  | .editable => "editable"
  | .deletable => "deletable"
  | .other name => name

def ofName (name : String) : Action :=
  if name = "draggable" then .draggable
  else if name = "resizable" then .resizable
  else if name = "editable" then .editable
  else if name = "deletable" then .deletable
  else .other name

@[simp] theorem name_ofName (n : String) : (ofName n).name = n := by
  unfold ofName
  repeat' split
  all_goals simp_all [name]

end Action

inductive BehaviorValue where
  | flag (allowed : Bool)
  | condition (e : Expression)

namespace BehaviorValue

def read (origin : Origin) (s : Source) : Except Problem BehaviorValue := do
  s.setAside origin
  match s.readBool with
  | .ok allowed => return .flag allowed
  | .error _ =>
    match Expression.read .aside s with
    | .ok e => return .condition e
    | .error _ => throw (.mismatch (.noVariant "BehaviorValue"))

def json : BehaviorValue → Json
  | .flag allowed => .bool allowed
  | .condition e => e.json

end BehaviorValue

structure BehaviorRule where
  action : Action
  value : BehaviorValue

namespace BehaviorRule

def read (origin : Origin) (s : Source) : Except Problem BehaviorRule := do
  let action := s.slot 0 "name" fun x _ => x.readString.map Action.ofName
  let value := s.slot 1 "value" fun x _ => BehaviorValue.read origin x
  s.checkRecord origin "struct BehaviorRule" [action.report, value.report]
  return ⟨← action.get, ← value.get⟩

def json (rule : BehaviorRule) : Json :=
  .object [("name", .string rule.action.name), ("value", rule.value.json)]

end BehaviorRule
end CalendarRules
