import CalendarRules.Declaration
import CalendarRules.Proofs.Json.Record

/-!
# The fields of a declaration

A declaration is read from an object as soon as each of its fields is (`Declaration.read_object`),
and then it holds what its fields have given (`Declaration.fieldsRead_of_read`).  What is to be said
about readers of declarations comes down to what is said about nine fields, one at a time.
-/

namespace CalendarRules

open Source

namespace Declaration

variable {origin : Origin} {d : Declaration}

/-- The fields of a record give the values of a declaration. -/
structure FieldsRead (origin : Origin) (s : Source) (d : Declaration) : Prop where
  id : (s.slot 0 "type" fun x _ => x.readString).get = .ok d.id
  name : (s.optionalSlot 1 "name" fun x _ => x.readString).getD "" = .ok d.name
  description : (s.optionalSlot 2 "description" fun x _ => readOption readString x).getD none =
    .ok d.description
  fields : (s.optionalSlot 3 "fields" fun x _ => readEntries FieldDefinition.read x).getD [] =
    .ok d.fields
  rules : (s.optionalSlot 4 "validate" fun x _ => readEntries Rule.read x).getD [] = .ok d.rules
  display : (s.optionalSlot 5 "display" fun x _ => readEntries DisplayRule.read x).getD [] =
    .ok d.display
  behavior : (s.optionalSlot 6 "behavior" fun x _ => readEntries BehaviorRule.read x).getD [] =
    .ok d.behavior
  constraints : (s.optionalSlot 7 "constraints" fun x _ => readEntries Constraint.read x).getD [] =
    .ok d.constraints
  recurring : (s.optionalSlot 8 "recurring" fun x _ =>
    readOption (Recurrence.read origin) x).getD none = .ok d.recurring

theorem fieldsRead_of_read {s : Source} (h : read origin s = .ok d) : FieldsRead origin s d := by
  obtain ⟨-, -, h⟩ := Outcome.bind_eq_ok h
  obtain ⟨id, hid, h⟩ := Outcome.bind_eq_ok h
  obtain ⟨name, hname, h⟩ := Outcome.bind_eq_ok h
  obtain ⟨description, hdescription, h⟩ := Outcome.bind_eq_ok h
  obtain ⟨fields, hfields, h⟩ := Outcome.bind_eq_ok h
  obtain ⟨rules, hrules, h⟩ := Outcome.bind_eq_ok h
  obtain ⟨display, hdisplay, h⟩ := Outcome.bind_eq_ok h
  obtain ⟨behavior, hbehavior, h⟩ := Outcome.bind_eq_ok h
  obtain ⟨constraints, hconstraints, h⟩ := Outcome.bind_eq_ok h
  obtain ⟨recurring, hrecurring, h⟩ := Outcome.bind_eq_ok h
  cases h
  exact ⟨hid, hname, hdescription, hfields, hrules, hdisplay, hbehavior, hconstraints, hrecurring⟩

theorem read_object {es : Entries} (hn : (Entries.keys es).Nodup)
    (h : FieldsRead origin (ofJson (.object es)) d) :
    read origin (ofJson (.object es)) = .ok d := by
  have hcheck := checkRecord_object origin "struct EventTypeDeclaration" hn <|
    (settled_slot h.id).cons <| (settled_optionalSlot h.name).cons <|
    (settled_optionalSlot h.description).cons <| (settled_optionalSlot h.fields).cons <|
    (settled_optionalSlot h.rules).cons <| (settled_optionalSlot h.display).cons <|
    (settled_optionalSlot h.behavior).cons <| (settled_optionalSlot h.constraints).cons <|
    (settled_optionalSlot h.recurring).cons <| List.forall_mem_nil _
  unfold read
  simp only [h.id, h.name, h.description, h.fields, h.rules, h.display, h.behavior, h.constraints,
    h.recurring, hcheck, Outcome.ok_bind]
  rfl

end Declaration
end CalendarRules
