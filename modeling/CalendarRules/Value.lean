import CalendarRules.Binary64.Numeral
import CalendarRules.Declaration.Literal
import CalendarRules.Time.Timestamp

/-!
# Values of fields and literals

What a field of an event or a literal of a declaration stands for.  Most values are documents, some
are instants, and a path may lead to nothing at all.  The three stay apart, so that an instant can
be compared by time and a missing field is not the same as `null`.
-/

namespace CalendarRules

/-- The milliseconds of an instant fit an integer of a document. -/
theorem Instant.integerRange_millis (t : Instant) : IntegerRange t.millis := by
  obtain ⟨day, second, nano, h⟩ := t
  simp only [IsInstant, firstDay, lastDay] at h
  simp only [IntegerRange, millis, seconds]
  omega

inductive Value where
  | undefined
  | json (j : Json)
  | instant (t : Instant)

namespace Value

/-- A document that may be missing. -/
def ofJson? : Option Json → Value
  | some j => .json j
  | none => .undefined

/-- A number; an infinity has none in documents and becomes `null`. -/
def ofDouble (x : Binary64) : Value := .json (.ofDouble x)

def ofString? (s : Option String) : Value := ofJson? (s.map .string)

def isUndefined : Value → Bool
  | undefined => true
  | _ => false

/-- Nothing, or `null`. -/
def isNullish : Value → Bool
  | undefined => true
  | json j => j.isNull
  | instant _ => false

def asString? : Value → Option String
  | json j => j.asString?
  | _ => none

/-- What a value counts as in a condition: nothing, `null`, zero and the empty text count as false.
-/
def isTruthy : Value → Bool
  | undefined => false
  | instant _ => true
  | json .null => false
  | json (.bool b) => b
  | json (.number n) => !n.toDouble.isZero
  | json (.string s) => s ≠ ""
  | json (.array _) => true
  | json (.object _) => true

/-- The document that shows a value. -/
def asJson : Value → Json
  | undefined => .null
  | json j => j
  | instant t => .string t.rendered

/-! ## Numbers -/

/-- The milliseconds of an instant as an integer of a document. -/
def millisOf (t : Instant) : Number := .int t.millis t.integerRange_millis

/-- The number that a value stands for.  Nothing and structures stand for none, `null` and blank
text for zero, flags for zero and one, other text for the number it spells and instants for their
milliseconds. -/
def toNumber? : Value → Option Finite64
  | undefined => none
  | instant t => some (millisOf t).toDouble
  | json .null => some .zero
  | json (.bool b) => some (if b then .one else .zero)
  | json (.number n) => some n.toDouble
  | json (.string s) => Binary64.ofText? s
  | json (.array _) => none
  | json (.object _) => none

/-- The minutes of a document that has the form of a duration. -/
def durationMinutes? : Value → Option Binary64
  | json (.object entries) => do
    let value ← (← Entries.get? "value" entries).asDouble?
    let unit ← (← Entries.get? "unit" entries).asString?
    return Duration.minutesOf value unit
  | _ => none

/-- The measure of a value: minutes for the form of a duration, else its number. -/
def measure? (v : Value) : Option Binary64 :=
  v.durationMinutes?.or (v.toNumber?.map .finite)

end Value

/-- What a literal stands for: a duration for its minutes, any other for itself. -/
def Literal.toValue : Literal → Value
  | .duration d => .ofDouble d.minutes
  | .value j => .json j

end CalendarRules
