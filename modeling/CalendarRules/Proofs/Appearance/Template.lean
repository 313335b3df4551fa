import CalendarRules.Appearance
import CalendarRules.Proofs.Binary64.Shortest

/-!
# Scalars in templates and in messages

A template and a message show a string, a number or a flag alike, except that a template shows a
number as the double nearest to it.  That is the number itself where it is a double of the document,
and it has the text of the number where it is an integer up to `2^53`.  Past that, a template may
show other digits than those of the integer.
-/

namespace CalendarRules

namespace Json

/-- A string, a number or a flag. -/
inductive IsScalar : Json → Prop where
  | string (s : String) : IsScalar (.string s)
  | number (n : Number) : IsScalar (.number n)
  | bool (b : Bool) : IsScalar (.bool b)

/-- A document with its double in the place of a number. -/
def asDouble : Json → Json
  | .number n => .number (.float n.toDouble)
  | j => j

end Json

theorem Number.message_toDouble {n : Number}
    (h : ∀ i hi, n = .int i hi → i.natAbs ≤ twoPow 53) : n.toDouble.message = n.message := by
  cases n with
  | int i hi => exact Finite64.message_ofInt (natAbs_lt hi) (h i hi rfl)
  | float x => rfl

theorem Json.message_asDouble {j : Json}
    (h : ∀ i hi, j = .number (.int i hi) → i.natAbs ≤ twoPow 53) :
    j.asDouble.message = j.message := by
  cases j with
  | number n =>
    have hn : n.toDouble.message = n.message :=
      Number.message_toDouble fun i hi hint => h i hi (congrArg Json.number hint)
    exact congrArg String.ofList hn
  | null | bool _ | string _ | array _ | object _ => rfl

namespace TemplatePart

variable {e : Event} {scope : Scope} {path : FieldPath} {j : Json}

/-- A template shows a scalar as a message shows it with its double in the place of a number.  So
the two texts are the same for strings, flags, doubles and integers up to `2^53`. -/
theorem rendered_field (hfield : e.field scope path = .json j) (hj : j.IsScalar) :
    (field path).rendered e scope = j.asDouble.message ∧
      ((∀ i hi, j = .number (.int i hi) → i.natAbs ≤ twoPow 53) →
        (field path).rendered e scope = j.message) := by
  have hdouble : (field path).rendered e scope = j.asDouble.message := by
    rw [rendered, hfield]
    cases hj with
    | string s => rfl
    | number n => rfl
    | bool b => cases b <;> rfl
  refine ⟨hdouble, fun h => ?_⟩
  rw [hdouble, Json.message_asDouble h]

/-- The beginning of a screening. -/
def showtime : Instant := ⟨20463, 68400, 0, by decide⟩

/-- A screening whose payload has the number of a record. -/
def screening (record : Int) (h : IntegerRange record) : Event where
  id := "1"
  type := "screening"
  start := showtime
  finish := ⟨20463, 75600, 0, by decide⟩
  extra := [("record", .number (.int record h))]

theorem rendered_field_record :
    (field ⟨["record"]⟩).rendered (screening (-9007199254740992) (by decide))
      { clock := showtime } = "-9007199254740992" := by
  have hfield : (screening (-9007199254740992) (by decide)).field
      { clock := showtime } ⟨["record"]⟩ =
      .json (.number (.int (-9007199254740992) (by decide))) := rfl
  rw [(rendered_field hfield (.number _)).2 ?_]
  · decide +kernel
  · rintro i hi h
    cases h
    decide

/-- One more than `2^53` is shown with another last digit. -/
theorem rendered_field_ne_message :
    (field ⟨["record"]⟩).rendered (screening 9007199254740993 (by decide))
        { clock := showtime } = "9007199254740992" ∧
      (Json.number (.int 9007199254740993 (by decide))).message = "9007199254740993" := by
  decide +kernel

end TemplatePart
end CalendarRules
