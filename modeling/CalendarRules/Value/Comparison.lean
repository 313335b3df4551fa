import CalendarRules.Declaration.Expression
import CalendarRules.Time.Plain
import CalendarRules.Value

/-!
# Comparing values

Two values are compared in a common representation, which depends on both.  If both are strings that
are dates, or strings that are clock times, they are compared as such; otherwise an instant is
compared as its milliseconds and any other value as it is.

Equality does not mix types.  Order is that of the numbers that the two values stand for, and a
value that stands for none is in no order with anything.
-/

namespace CalendarRules
namespace Value

/-- A value as it is compared when it is alone: an instant as its milliseconds. -/
def flattened : Value → Value
  | instant t => json (.number (millisOf t))
  | v => v

/-- The first instant of a date, if the value is one. -/
def date? (v : Value) : Option Binary64 := (v.asString?.bind Date.ofText?).map Date.millis

/-- The minutes of a clock time, if the value is one. -/
def clock? (v : Value) : Option Binary64 :=
  (v.asString?.bind ClockTime.ofText?).map ClockTime.minutes

/-- The common representation of two values. -/
def aligned (x y : Value) : Value × Value :=
  match x.date?, y.date? with
  | some a, some b => (ofDouble a, ofDouble b)
  | _, _ =>
    match x.clock?, y.clock? with
    | some a, some b => (ofDouble a, ofDouble b)
    | _, _ => (x.flattened, y.flattened)

/-- Equality of values: numbers are equal when their doubles are, and other documents when they are
the same. -/
def same : Value → Value → Bool
  | undefined, undefined => true
  | json (.number m), json (.number n) => m.toDouble.toInt == n.toDouble.toInt
  | json i, json j => i.same j
  | _, _ => false

/-- A relation of two numbers, which no value without a number has to another. -/
def numbersSatisfy (relation : Finite64 → Finite64 → Bool) (x y : Value) : Bool :=
  match x.toNumber?, y.toNumber? with
  | some a, some b => relation a b
  | _, _ => false

end Value

/-- How an operator compares two values in their common representation. -/
def Operator.relates : Operator → Value → Value → Bool
  | .is, x, y | .equals, x, y => x.same y
  | .isNot, x, y | .notEquals, x, y => !x.same y
  | .greater, x, y => Value.numbersSatisfy (fun a b => b.toInt < a.toInt) x y
  | .atLeast, x, y => Value.numbersSatisfy (fun a b => b.toInt ≤ a.toInt) x y
  | .less, x, y => Value.numbersSatisfy (fun a b => a.toInt < b.toInt) x y
  | .atMost, x, y => Value.numbersSatisfy (fun a b => a.toInt ≤ b.toInt) x y
  | .unknown _, _, _ => false

/-- Compares two values. -/
def Operator.compare (op : Operator) (x y : Value) : Bool :=
  let (a, b) := x.aligned y
  op.relates a b

end CalendarRules
