import CalendarRules.Declaration

/-!
# Schemas of payloads

A declaration describes the payload of its events by a schema in the draft-07 form, for validators
that know such schemas.  Nothing in this library checks a payload against it.
-/

namespace CalendarRules

/-- A bound in a schema: a whole number below `2^63` as an integer, which lengths and counts have to
be, any other as it is. -/
def schemaNumber (x : Finite64) : Json :=
  if x.isWhole && x.magnitude < twoPow 63 * unitsPerOne then .ofInt x.truncate
  else .number (.float x)

namespace FieldType

/-- The schema of the values of a type. -/
def schema : FieldType → Entries
  | .string | .text => [("type", .string "string")]
  | .number => [("type", .string "number")]
  | .boolean => [("type", .string "boolean")]
  | .email => [("type", .string "string"), ("format", .string "email")]
  | .list item => [("type", .string "array"), ("items", .object item.schema)]
  | .enumeration names =>
    [("type", .string "string"), ("enum", .array (names.map .string))]
  | .other _ => []

/-- The keys of the least and the greatest bound: of the value, of its length or of the number of
items. -/
def boundKeys? : FieldType → Option (String × String)
  | .list _ => some ("minItems", "maxItems")
  | .number => some ("minimum", "maximum")
  | .boolean | .other _ => none
  | .string | .email | .text | .enumeration _ => some ("minLength", "maxLength")

end FieldType

/-- The schema of a field. -/
def FieldDefinition.schema (field : FieldDefinition) : Json :=
  .object <|
    field.type.schema ++
    Entries.optional "default" field.default ++
    match field.type.boundKeys? with
    | some (minKey, maxKey) =>
      Entries.optional minKey (field.min.map schemaNumber) ++
      Entries.optional maxKey (field.max.map schemaNumber)
    | none => []

/-- The schema of payloads with the given fields and no others. -/
def schemaOfFields (fields : List FieldDefinition) : Json :=
  .object [
    ("$schema", .string "http://json-schema.org/draft-07/schema#"),
    ("type", .string "object"),
    ("properties", .object (Entries.ofSettings (fields.map fun f => (f.name, f.schema)))),
    ("required", .array ((fields.filter FieldDefinition.required).map fun f => .string f.name)),
    ("additionalProperties", .bool false)]

namespace Declaration

/-- The schema of the payloads of a type. -/
def schema (d : Declaration) : Json := schemaOfFields d.fields

/-- The schemas of types under their identifiers. -/
def schemas (ds : List Declaration) : Json :=
  .object (Entries.ofSettings (ds.map fun d => (d.id, d.schema)))

end Declaration
end CalendarRules
