import CalendarRules.Json.Reading

/-!
# Types of fields

The type of a declared field is written as a name, as a list of another type, or as the names of an
enumeration.  Any other document is kept as it is: such a type says nothing about the value, and
writing a type gives back the document that it was read from.
-/

namespace CalendarRules

inductive FieldType where
  | string
  | number
  | boolean
  | email
  | text
  | list (item : FieldType)
  | enumeration (names : List String)
  /-- A document that is none of the above. -/
  | other (raw : Json)

namespace FieldType

/-- All items are strings. -/
def strings? : List Json → Option (List String)
  | [] => some []
  | .string s :: rest => (strings? rest).map (s :: ·)
  | _ :: _ => none

/-- The type that a name stands for. -/
def ofName? (name : String) : Option FieldType :=
  if name = "string" then some .string
  else if name = "number" then some .number
  else if name = "boolean" then some .boolean
  else if name = "email" then some .email
  else if name = "text" then some .text
  else none

/-- The type that a document stands for. -/
def ofJson : Json → FieldType
  | .string name => (ofName? name).getD (.other (.string name))
  | .object [(key, value)] =>
    if key = "list" then .list (ofJson value)
    else if key = "enum" then
      match value with
      | .array items =>
        match strings? items with
        | some names => .enumeration names
        | none => .other (.object [(key, value)])
      | _ => .other (.object [(key, value)])
    else .other (.object [(key, value)])
  | j => .other j

/-- The document that stands for a type. -/
def json : FieldType → Json
  | .string => .string "string"
  | .number => .string "number"
  | .boolean => .string "boolean"
  | .email => .string "email"
  | .text => .string "text"
  | .list item => .object [("list", item.json)]
  | .enumeration names => .object [("enum", .array (names.map .string))]
  | .other raw => raw

def read (s : Source) : Except Problem FieldType := s.readJson.map ofJson

end FieldType

/-- A declared field of an event's payload. -/
structure FieldDefinition where
  name : String
  type : FieldType
  required : Bool
  default : Option Json
  min : Option Finite64
  max : Option Finite64

namespace FieldDefinition

def read (origin : Origin) (s : Source) : Except Problem FieldDefinition := do
  let name := s.slot 0 "name" fun x _ => x.readString
  let type := s.slot 1 "type" fun x _ => FieldType.read x
  let required := s.optionalSlot 2 "required" fun x _ => x.readBool
  let default := s.optionalSlot 3 "default" fun x _ => Source.readOption Source.readJson x
  let min := s.optionalSlot 4 "min" fun x _ => Source.readOption Source.readDouble x
  let max := s.optionalSlot 5 "max" fun x _ => Source.readOption Source.readDouble x
  s.checkRecord origin "struct FieldDefinition"
    [name.report, type.report, required.report, default.report, min.report, max.report]
  return ⟨← name.get, ← type.get, ← required.getD false, ← default.getD none, ← min.getD none,
    ← max.getD none⟩

def json (field : FieldDefinition) : Json :=
  .object <|
    [("name", .string field.name), ("type", field.type.json), ("required", .bool field.required)] ++
    Entries.optional "default" field.default ++
    Entries.optional "min" (field.min.map fun x => .number (.float x)) ++
    Entries.optional "max" (field.max.map fun x => .number (.float x))

end FieldDefinition
end CalendarRules
