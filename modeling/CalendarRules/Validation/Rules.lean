import CalendarRules.Declaration.Rule
import CalendarRules.Event.Conflict
import CalendarRules.Validation.Condition

/-!
# Violations of rules

What an event does wrong in the eyes of a rule: nothing, or one message.  Only a guarded list can
give more, those of its rules in order, and it gives nothing when its condition does not hold.
-/

namespace CalendarRules
namespace Rule

/-- The value of a field lies between two bounds. -/
def betweenViolations (event : Event) (scope : Scope) (field : FieldPath) (min max : Literal) :
    List String :=
  let value := event.field scope field
  if value.isUndefined then [field.text ++ " is undefined"]
  else match value.measure? with
    | none => [field.text ++ " cannot be compared numerically"]
    | some x =>
      match min.toValue.toNumber?, max.toValue.toNumber? with
      | some low, some high =>
        if x.lt (.finite low) || Binary64.lt (.finite high) x then
          [field.text ++ " must be between " ++ min.text ++ " and " ++ max.text]
        else []
      | _, _ => ["Bounds for " ++ field.text ++ " cannot be compared numerically"]

/-- The value of a field equals one of a list. -/
def oneOfViolations (event : Event) (scope : Scope) (field : FieldPath) (values : List Literal) :
    List String :=
  let value := event.field scope field
  if value.isUndefined then [field.text ++ " is undefined"]
  else if values.any fun l => Operator.equals.compare value l.toValue then []
  else [field.text ++ " must be one of: " ++ ", ".intercalate (values.map Literal.text)]

/-- The remainder of a field by a modulus compares with a literal. -/
def moduloViolations (event : Event) (scope : Scope) (field : FieldPath) (modulus : Literal)
    (operator : Operator) (right : Literal) : List String :=
  let value := event.field scope field
  let subject := field.text ++ " modulo " ++ modulus.text
  if value.isUndefined then [field.text ++ " is undefined"]
  else match value.measure?, modulus.toValue.toNumber? with
    | some x, some m =>
      if m.isZero then ["Modulo value for " ++ field.text ++ " must be non-zero"]
      else
        let remainder := Value.json (.ofDouble? (x.rem (.finite m)))
        if operator.compare remainder right.toValue then []
        else [subject ++ " must be " ++ operator.text ++ " " ++ right.text]
    | _, _ => [subject ++ " cannot be compared numerically"]

/-- An expression holds. -/
def conditionViolations (event : Event) (scope : Scope) (e : Expression) : List String :=
  if e.holds event scope then [] else ["Condition not satisfied: " ++ e.text]

/-- No other event overlaps. -/
def noConflictViolations (event : Event) (scope : Scope) : List String :=
  match event.conflicts scope.others with
  | [] => []
  | conflicts =>
    ["Event conflicts with existing event(s): " ++
      ", ".intercalate (conflicts.map fun c => c.other.id)]

mutual

def violations (event : Event) (scope : Scope) : Rule → List String
  | .between field min max => betweenViolations event scope field min max
  | .oneOf field values => oneOfViolations event scope field values
  | .modulo field modulus operator right =>
    moduloViolations event scope field modulus operator right
  | .comparison operator left right =>
    if operator.compare (left.value event scope) right.toValue then []
    else ["Comparison failed: " ++ (Expression.comparison operator left right).text]
  | .conflict =>
    if (event.conflicts scope.others).isEmpty then ["Event must conflict with an existing event"]
    else []
  | .noConflict => noConflictViolations event scope
  | .onlyIf condition rules =>
    if condition.holds event scope then violationsOfAll event scope rules else []
  | .logical connective left right =>
    conditionViolations event scope (.logical connective left right)
  | .negation argument => conditionViolations event scope (.negation argument)
  | .unknown => []

/-- The violations of rules one after the other. -/
def violationsOfAll (event : Event) (scope : Scope) : List Rule → List String
  | [] => []
  | rule :: rules => rule.violations event scope ++ violationsOfAll event scope rules

end

end Rule
end CalendarRules
