import CalendarRules.Event.Field
import CalendarRules.Value.Comparison

/-!
# Conditions

When an expression holds for an event.  A field alone holds when its value is not empty, and the
left side of a comparison stands for a value: that of a field or a literal, or the truth of any
other expression.
-/

namespace CalendarRules

def Connective.combine : Connective → Bool → Bool → Bool
  | .and, a, b => a && b
  | .or, a, b => a || b

mutual

/-- The expression holds for an event in a scope. -/
def Expression.holds (event : Event) (scope : Scope) : Expression → Bool
  | .field path => (event.field scope path).isTruthy
  | .comparison operator left right => operator.compare (left.value event scope) right.toValue
  | .logical connective left right =>
    connective.combine (left.holds event scope) (right.holds event scope)
  | .negation argument => !argument.holds event scope

/-- The value of the left side of a comparison. -/
def Operand.value (event : Event) (scope : Scope) : Operand → Value
  | .literal l => l.toValue
  | .expression (.field path) => event.field scope path
  | .expression (.comparison operator left right) =>
    .json (.bool (operator.compare (left.value event scope) right.toValue))
  | .expression (.logical connective left right) =>
    .json (.bool (connective.combine (left.holds event scope) (right.holds event scope)))
  | .expression (.negation argument) => .json (.bool (!argument.holds event scope))

end

/-- The truth of an expression as a value, unless it is a field. -/
theorem Operand.value_expression (event : Event) (scope : Scope) (e : Expression)
    (h : ∀ path, e ≠ .field path) :
    (Operand.expression e).value event scope = .json (.bool (e.holds event scope)) := by
  cases e with
  | field path => exact absurd rfl (h path)
  | comparison | logical | negation => simp only [Operand.value, Expression.holds]

end CalendarRules
