import CalendarRules.Declaration
import CalendarRules.Validation.Limits
import CalendarRules.Validation.Rules

/-!
# Validation

An event is valid when its time is in order and every rule of its declaration is content.
Validation never stops early: it lists every violation, those of time first.

Before rules are asked at all, `missing` tells which fields of the payload have to be filled in.
-/

namespace CalendarRules

/-- What validation finds: the violations, of which a valid event has none. -/
structure Verdict where
  errors : List String
  deriving DecidableEq

namespace Verdict

def valid (v : Verdict) : Bool := v.errors.isEmpty

def json (v : Verdict) : Json :=
  .object <|
    [("valid", .bool v.valid)] ++
    Entries.optional "errors"
      (if v.errors.isEmpty then none else some (.array (v.errors.map .string)))

end Verdict

namespace Declaration

/-- Validates an event. -/
def validate [TimeZones] (d : Declaration) (event : Event) (scope : Scope) : Verdict :=
  ⟨event.timeViolations d.constraints scope ++ Rule.violationsOfAll event scope d.rules⟩

/-! ## Required fields -/

/-- The names of the required fields in order. -/
def requiredNames (d : Declaration) : List String :=
  (d.fields.filter FieldDefinition.required).map FieldDefinition.name

/-- Absent, `null` or the empty text. -/
def isBlankEntry : Option Json → Bool
  | none => true
  | some .null => true
  | some (.string s) => s = ""
  | some _ => false

/-- Demands that the required fields of a payload are filled in, and nothing else. -/
def validatePresence (d : Declaration) (event : Event) : Verdict :=
  ⟨(d.requiredNames.filter fun name => isBlankEntry (Entries.get? name event.extra)).map
    fun name => name ++ " is required"⟩

end Declaration
end CalendarRules
