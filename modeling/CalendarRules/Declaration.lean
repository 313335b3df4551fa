import CalendarRules.Declaration.Behavior
import CalendarRules.Declaration.Constraint
import CalendarRules.Declaration.Display
import CalendarRules.Declaration.FieldType
import CalendarRules.Declaration.Rule
import CalendarRules.Recurrence

/-!
# Declarations of event types

A declaration gives the fields of an event's payload and the rules that validate, show and protect
its events.  Entries of its lists that cannot be read are left out, so that one bad rule does not
take a type away.

Declarations are read in two ways.  `ofText` reads one record straight from its text.  `listOfText`
reads the text as a value first, in which no key is repeated any more, and then one declaration or a
list of them from that value.
-/

namespace CalendarRules

structure Declaration where
  id : String
  name : String
  description : Option String := none
  fields : List FieldDefinition := []
  rules : List Rule := []
  display : List DisplayRule := []
  behavior : List BehaviorRule := []
  constraints : List Constraint := []
  recurring : Option Recurrence := none

namespace Declaration

/-- A list of entries of a declaration, each read on its own. -/
def readEntries {α : Type} (read : Origin → Source → Except Problem α) (s : Source) :
    Except Problem (List α) :=
  s.readLenient fun j _ => (read .value (Source.ofJson j)).toOption

def read (origin : Origin) (s : Source) : Except Problem Declaration := do
  let id := s.slot 0 "type" fun x _ => x.readString
  let name := s.optionalSlot 1 "name" fun x _ => x.readString
  let description := s.optionalSlot 2 "description" fun x _ =>
    Source.readOption Source.readString x
  let fields := s.optionalSlot 3 "fields" fun x _ => readEntries FieldDefinition.read x
  let rules := s.optionalSlot 4 "validate" fun x _ => readEntries Rule.read x
  let display := s.optionalSlot 5 "display" fun x _ => readEntries DisplayRule.read x
  let behavior := s.optionalSlot 6 "behavior" fun x _ => readEntries BehaviorRule.read x
  let constraints := s.optionalSlot 7 "constraints" fun x _ => readEntries Constraint.read x
  let recurring := s.optionalSlot 8 "recurring" fun x _ =>
    Source.readOption (Recurrence.read origin) x
  s.checkRecord origin "struct EventTypeDeclaration"
    [id.report, name.report, description.report, fields.report, rules.report, display.report,
      behavior.report, constraints.report, recurring.report]
  return {
    id := ← id.get
    name := ← name.getD ""
    description := ← description.getD none
    fields := ← fields.getD []
    rules := ← rules.getD []
    display := ← display.getD []
    behavior := ← behavior.getD []
    constraints := ← constraints.getD []
    recurring := ← recurring.getD none }

/-- Reads one declaration straight from its text. -/
def ofText (text : String) : Except Problem Declaration :=
  (Document.ofText text).read (read .text)

/-- Reads one declaration, or a list of them, from a value. -/
def listOfJson : Json → Except Problem (List Declaration)
  | .array items => Source.readList (read .value) (Source.ofJson (.array items))
  | j => do return [← read .value (Source.ofJson j)]

/-- Reads one declaration, or a list of them, from a text. -/
def listOfText (text : String) : Except Problem (List Declaration) :=
  match Json.ofText text with
  | .error fault => .error (.fault fault)
  | .ok j => listOfJson j

def json (d : Declaration) : Json :=
  .object <|
    [("type", .string d.id), ("name", .string d.name)] ++
    Entries.optional "description" (d.description.map .string) ++
    [("fields", .array (d.fields.map FieldDefinition.json)),
      ("validate", .array (d.rules.map Rule.json)),
      ("display", .array (d.display.map DisplayRule.json)),
      ("behavior", .array (d.behavior.map BehaviorRule.json)),
      ("constraints", .array (d.constraints.map Constraint.json))] ++
    Entries.optional "recurring" (d.recurring.map Recurrence.json)

end Declaration
end CalendarRules
