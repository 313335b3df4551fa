import CalendarRules.Proofs.Declaration.Literal
import CalendarRules.Proofs.Event.Path
import CalendarRules.Proofs.Value.Equality

/-!
# Rules that ask for a literal

A value of the payload and a literal of a declaration may be written alike.  The payload keeps the
document as it is, and so does a literal, unless the document has the form of a duration: then the
literal is a number of minutes.  Equality mixes no types, so a rule that asks for a literal accepts
the same document in the payload (`Rule.violations_eq_nil_of_written`), except where the literal is
a duration (`Rule.violations_ne_nil_of_written_duration`).
-/

namespace CalendarRules

namespace Event

/-- A path of two segments with the head `extra` is a key of the payload. -/
theorem field_extra (e : Event) (scope : Scope) (key : String) :
    e.field scope ⟨["extra", key]⟩ = .ofJson? (Entries.get? key e.extra) := by
  rw [field_extra_cons, payloadField, Json.walk?, Json.child?]
  cases Entries.get? key e.extra with
  | none => rfl
  | some j => rfl

end Event

namespace Operator

theorem equals_self {v : Value} (hv : v.WellFormed) : equals.compare v v = true :=
  equals_iff.2 ⟨rfl, Value.onScale_same_refl hv⟩

end Operator

namespace Duration

theorem read_entries (n : Number) (unit : String) :
    read .aside (Source.ofJson (.object [("value", .number n), ("unit", .string unit)])) =
      .ok ⟨n.toDouble, unit⟩ := rfl

/-- Only arrays and objects have the form of a duration, and neither equals a number of minutes. -/
theorem compare_minutes_eq_false {origin : Origin} {j : Json} {d : Duration}
    (h : read origin (Source.ofJson j) = .ok d) (minutes : Binary64) :
    Operator.equals.compare (.json j) (.ofDouble minutes) = false := by
  cases j with
  | null | bool _ | number _ | string _ => cases h
  | array items => cases minutes <;> rfl
  | object entries => cases minutes <;> rfl

end Duration

namespace Rule

variable {e : Event} {scope : Scope}

theorem violations_comparison_eq_nil_iff {op : Operator} {left : Operand} {right : Literal} :
    (Rule.comparison op left right).violations e scope = [] ↔
      op.compare (left.value e scope) right.toValue = true := by
  rw [violations]
  cases op.compare (left.value e scope) right.toValue with
  | true => simp
  | false => simp

theorem violations_oneOf_eq_nil_iff {path : FieldPath} {values : List Literal} :
    (Rule.oneOf path values).violations e scope = [] ↔
      (e.field scope path).isUndefined = false ∧
        ∃ l ∈ values, Operator.equals.compare (e.field scope path) l.toValue = true := by
  rw [violations, oneOfViolations, ← List.any_eq_true]
  cases (e.field scope path).isUndefined with
  | true => simp
  | false => simp

/-- The literal that is written like a value of the payload equals it, unless it is a duration: the
comparison of the field with the literal holds, and so does every list that has the literal. -/
theorem violations_eq_nil_of_written (e : Event) (scope : Scope) (key : String) (j : Json)
    (origin : Origin) (hj : j.WellFormed) (hkey : Entries.get? key e.extra = some j)
    (hform : ∀ d, Duration.read .aside (Source.ofJson j) ≠ .ok d) :
    ∃ l, Literal.read origin (Source.ofJson j) = .ok l ∧
      (Rule.comparison .is (.expression (.field ⟨["extra", key]⟩)) l).violations e scope = [] ∧
      ∀ values, l ∈ values →
        (Rule.oneOf ⟨["extra", key]⟩ values).violations e scope = [] := by
  have hfield : e.field scope ⟨["extra", key]⟩ = .json j := by
    rw [Event.field_extra, hkey]
    rfl
  have hequal : Operator.equals.compare (.json j) (.json j) = true :=
    Operator.equals_self (Value.wellFormed_json hj)
  cases hread : Duration.read .aside (Source.ofJson j) with
  | ok d => exact absurd hread (hform d)
  | error problem =>
    refine ⟨.value j, Literal.read_of_value hj hread origin, ?_, fun values hmem => ?_⟩
    · rw [violations_comparison_eq_nil_iff, Operand.value, hfield]
      exact hequal
    · rw [violations_oneOf_eq_nil_iff, hfield]
      exact ⟨rfl, .value j, hmem, hequal⟩

/-- Two hours, the hours as a string. -/
def spelledHours : Json := .object [("value", .string "2"), ("unit", .string "hours")]

/-- Two hours. -/
def twoHours : Json :=
  .object [("value", .number (.int 2 (by decide))), ("unit", .string "hours")]

/-- A film whose payload has both. -/
def doubleFeature : Event where
  id := "1"
  type := "film"
  start := ⟨20456, 36000, 0, by decide⟩
  finish := ⟨20456, 50400, 0, by decide⟩
  extra := [("pause", spelledHours), ("length", twoHours)]

/-- A length that is no duration, because its number is a string, is among the literals. -/
theorem violations_eq_nil_of_written_spelled :
    ∃ l, Literal.read .text (Source.ofJson spelledHours) = .ok l ∧
      (Rule.comparison .is (.expression (.field ⟨["extra", "pause"]⟩)) l).violations doubleFeature
        { clock := doubleFeature.start } = [] ∧
      (Rule.oneOf ⟨["extra", "pause"]⟩ [.value .null, l]).violations doubleFeature
        { clock := doubleFeature.start } = [] := by
  have hj : spelledHours.WellFormed := by
    simp [spelledHours, Json.wellFormed_object, Json.wellFormed_string]
  obtain ⟨l, hread, his, hone⟩ := violations_eq_nil_of_written doubleFeature
    { clock := doubleFeature.start } "pause" spelledHours .text hj rfl fun d h => by cases h
  exact ⟨l, hread, his, hone _ (.tail _ (.head _))⟩

/-- Two hours in the payload do not equal the literal of two hours. -/
theorem violations_ne_nil_of_written_duration :
    Entries.get? "length" doubleFeature.extra = some twoHours ∧
    ∃ l, Literal.read .text (Source.ofJson twoHours) = .ok l ∧
      (Rule.comparison .is (.expression (.field ⟨["extra", "length"]⟩)) l).violations doubleFeature
        { clock := doubleFeature.start } ≠ [] ∧
      (Rule.oneOf ⟨["extra", "length"]⟩ [l]).violations doubleFeature
        { clock := doubleFeature.start } ≠ [] := by
  have hj : twoHours.WellFormed := by
    simp [twoHours, Json.wellFormed_object, Json.wellFormed_string, Json.wellFormed_number]
  have hread : Duration.read .aside (Source.ofJson twoHours) = .ok _ :=
    Duration.read_entries (.int 2 (by decide)) "hours"
  have hfield : doubleFeature.field { clock := doubleFeature.start } ⟨["extra", "length"]⟩ =
      .json twoHours := Event.field_extra _ _ _
  refine ⟨rfl, _, Literal.read_of_duration hj hread .text, ?_, ?_⟩
  · rw [Ne, violations_comparison_eq_nil_iff, Operand.value, hfield, Bool.not_eq_true]
    exact Duration.compare_minutes_eq_false hread _
  · rw [Ne, violations_oneOf_eq_nil_iff, hfield]
    rintro ⟨-, l, hl, hequal⟩
    rw [List.mem_singleton.1 hl, Literal.toValue,
      Duration.compare_minutes_eq_false hread] at hequal
    cases hequal

end Rule
end CalendarRules
