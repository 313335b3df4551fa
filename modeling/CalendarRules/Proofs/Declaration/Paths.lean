import CalendarRules.Declaration

/-!
# The paths of a declaration

A declaration looks at an event in two ways only: at the fields that its paths name, and at the
calendar, where a rule asks for conflicts.  This module lists both, at any depth of its conditions,
operands, templates and guarded rules.
-/

namespace CalendarRules

mutual

/-- The paths of an expression from left to right. -/
def Expression.paths : Expression → List FieldPath
  | .field path => [path]
  | .comparison _ left _ => left.paths
  | .logical _ left right => left.paths ++ right.paths
  | .negation argument => argument.paths

def Operand.paths : Operand → List FieldPath
  | .expression e => e.paths
  | .literal _ => []

end

namespace Rule

mutual

def paths : Rule → List FieldPath
  | .between field _ _ | .oneOf field _ | .modulo field _ _ _ => [field]
  | .comparison _ left _ => left.paths
  | .onlyIf condition rules => condition.paths ++ pathsOfAll rules
  | .logical _ left right => left.paths ++ right.paths
  | .negation argument => argument.paths
  | .conflict | .noConflict | .unknown => []

/-- The paths of rules one after the other. -/
def pathsOfAll : List Rule → List FieldPath
  | [] => []
  | rule :: rules => rule.paths ++ pathsOfAll rules

end

mutual

/-- The rule asks for conflicts, itself or in a list that it guards. -/
def asksCalendar : Rule → Bool
  | .conflict | .noConflict => true
  | .onlyIf _ rules => anyAsksCalendar rules
  | .between _ _ _ | .oneOf _ _ | .modulo _ _ _ _ | .comparison _ _ _ | .logical _ _ _ | .negation _
  | .unknown => false

/-- Some rule of a list asks for conflicts. -/
def anyAsksCalendar : List Rule → Bool
  | [] => false
  | rule :: rules => rule.asksCalendar || anyAsksCalendar rules

end

end Rule

def TemplatePart.paths : TemplatePart → List FieldPath
  | .field path => [path]
  | .text _ | .other _ => []

def DisplayValue.paths : DisplayValue → List FieldPath
  | .conditional condition consequent none => condition.paths ++ consequent.paths
  | .conditional condition consequent (some alternate) =>
    condition.paths ++ (consequent.paths ++ alternate.paths)
  | .template parts => parts.flatMap TemplatePart.paths
  | .literal _ => []

def BehaviorValue.paths : BehaviorValue → List FieldPath
  | .flag _ => []
  | .condition e => e.paths

/-- The paths in the rules of a declaration, those that validate first, then those that show and
those that protect. -/
def Declaration.paths (d : Declaration) : List FieldPath :=
  Rule.pathsOfAll d.rules ++ d.display.flatMap (fun rule => rule.value.paths) ++
    d.behavior.flatMap fun rule => rule.value.paths

end CalendarRules
