import CalendarRules.Proofs.Schema
import CalendarRules.Validation

/-!
# What has to be filled in

Which fields of a payload are required is told in two ways: to validators by the schema, and to the
author of an event by a check of the payload.  Both go through the fields in the order in which they
are declared, and a name that is declared more than once is required as often as it is declared so
(`FieldDefinition.RequiredIn`).

A check is known by the names that it demands: it reports those that an event lacks, in order and as
often as they are demanded, and a payload without any entry lacks them all, so that no check demands
two lists of names (`Verdict.Demands.unique`).  The check of a declaration demands the very names
that its schema requires, and all of them are properties of the schema
(`Declaration.requiredNames_agree`).
-/

namespace CalendarRules

/-! ## The names that are required -/

namespace FieldDefinition

/-- The names of the required ones among some fields, in order. -/
inductive RequiredIn : List FieldDefinition → List String → Prop where
  | nil : RequiredIn [] []
  | required {f : FieldDefinition} {fields : List FieldDefinition} {names : List String}
      (isRequired : f.required = true) (rest : RequiredIn fields names) :
      RequiredIn (f :: fields) (f.name :: names)
  | optional {f : FieldDefinition} {fields : List FieldDefinition} {names : List String}
      (isOptional : f.required = false) (rest : RequiredIn fields names) :
      RequiredIn (f :: fields) names

theorem requiredIn_requiredNames (fields : List FieldDefinition) :
    RequiredIn fields (Schema.requiredNames fields) := by
  induction fields with
  | nil => exact .nil
  | cons f fields ih =>
    cases hf : f.required with
    | true =>
      have hnames : Schema.requiredNames (f :: fields) = f.name :: Schema.requiredNames fields := by
        rw [Schema.requiredNames, List.filter_cons_of_pos hf]
        rfl
      exact hnames ▸ .required hf ih
    | false =>
      have hnames : Schema.requiredNames (f :: fields) = Schema.requiredNames fields := by
        rw [Schema.requiredNames, List.filter_cons_of_neg (by rw [hf]; exact Bool.false_ne_true)]
        rfl
      exact hnames ▸ .optional hf ih

theorem RequiredIn.unique {fields : List FieldDefinition} {names others : List String}
    (h : RequiredIn fields names) (h' : RequiredIn fields others) : names = others := by
  induction h generalizing others with
  | nil =>
    cases h'
    rfl
  | required isRequired _ ih =>
    cases h' with
    | required _ rest => rw [ih rest]
    | optional isOptional _ => cases isRequired.symm.trans isOptional
  | optional isOptional _ ih =>
    cases h' with
    | required isRequired _ => cases isRequired.symm.trans isOptional
    | optional _ rest => exact ih rest

end FieldDefinition

/-! ## Demands -/

/-- Nothing is filled in under a key of the payload. -/
def Event.Lacks (e : Event) (name : String) : Prop :=
  Entries.get? name e.extra = none ∨ Entries.get? name e.extra = some .null ∨
    Entries.get? name e.extra = some (.string "")

theorem Declaration.isBlankEntry_iff {v : Option Json} :
    isBlankEntry v = true ↔ v = none ∨ v = some .null ∨ v = some (.string "") := by
  unfold isBlankEntry
  split
  next => simp
  next => simp
  next s => simp
  next j hnull hstring =>
    refine iff_of_false Bool.false_ne_true ?_
    rintro (h | h | h)
    · cases h
    · exact hnull (Option.some.inj h)
    · exact hstring "" (Option.some.inj h)

instance (e : Event) : DecidablePred e.Lacks := fun _ =>
  decidable_of_iff _ Declaration.isBlankEntry_iff

namespace Verdict

/-- What is said of a name that an event lacks. -/
def demand (name : String) : String := name ++ " is required"

theorem demand_injective : Function.Injective demand := by
  intro name other h
  have hlist := congrArg String.toList h
  rw [demand, demand, String.toList_append, String.toList_append] at hlist
  exact String.toList_inj.1 (List.append_cancel_right hlist)

/-- A check of events demands some names: it reports those that an event lacks, and nothing else. -/
def Demands (check : Event → Verdict) (names : List String) : Prop :=
  ∀ e, (check e).errors = (names.filter fun name => e.Lacks name).map demand

/-- An event with an empty payload. -/
def bareEvent : Event where
  id := ""
  type := ""
  start := ⟨0, 0, 0, by decide⟩
  finish := ⟨0, 0, 0, by decide⟩

/-- An event with an empty payload lacks every name, so it is told all of them. -/
theorem Demands.unique {check : Event → Verdict} {names others : List String}
    (h : Demands check names) (h' : Demands check others) : names = others := by
  have hall : ∀ names : List String, names.filter (fun name => bareEvent.Lacks name) = names :=
    fun names => List.filter_eq_self.2 fun name _ => decide_eq_true (.inl rfl)
  have hsame := (h bareEvent).symm.trans (h' bareEvent)
  rw [hall, hall] at hsame
  exact demand_injective.list_map hsame

theorem Demands.valid_iff {check : Event → Verdict} {names : List String}
    (h : Demands check names) (e : Event) :
    (check e).valid = true ↔ ∀ name ∈ names, ¬ e.Lacks name := by
  rw [valid, h e, List.isEmpty_iff, List.map_eq_nil_iff, List.filter_eq_nil_iff]
  simp only [decide_eq_true_eq]

end Verdict

/-! ## The two ways agree -/

namespace Schema

variable {fields : List FieldDefinition} {name : String}

theorem walk?_required (fields : List FieldDefinition) :
    (schemaOfFields fields).walk? ["required"] =
      some (.array ((requiredNames fields).map .string)) := by
  rw [schemaOfFields_eq]
  rfl

/-- Under the name of a required field, the properties have the schema of a field of that name. -/
theorem exists_walk?_property (h : name ∈ requiredNames fields) :
    ∃ f ∈ fields, f.name = name ∧
      (schemaOfFields fields).walk? ["properties", name] = some f.schema := by
  obtain ⟨⟨key, sub⟩, hmem, hkey⟩ := List.mem_map.1 (mem_keys_of_mem_requiredNames h)
  obtain rfl : key = name := hkey
  obtain ⟨f, hf, -⟩ := mem_properties_iff.1 hmem
  have hproperty : (Json.object (properties fields)).child? key = some f.schema :=
    (get?_properties fields key).trans (by rw [hf]; rfl)
  have hwalk : (schemaOfFields fields).walk? ["properties", key] =
      (Json.object (properties fields)).walk? [key] := by
    rw [schemaOfFields_eq]
    rfl
  refine ⟨f, List.mem_of_mem_filter (List.mem_of_getLast? hf), name_of_lastNamed? hf, ?_⟩
  rw [hwalk, Json.walk?, hproperty]
  rfl

end Schema

namespace Declaration

/-- The check of a declaration demands the names of its required fields. -/
theorem demands_validatePresence (d : Declaration) :
    Verdict.Demands d.validatePresence d.requiredNames := by
  intro e
  have hlacks : ∀ name, isBlankEntry (Entries.get? name e.extra) = decide (e.Lacks name) := by
    intro name
    rw [Bool.eq_iff_iff, decide_eq_true_eq]
    exact isBlankEntry_iff
  simp only [validatePresence, hlacks]
  rfl

/-- The declaration, its schema and its check of payloads agree on what is required: one list of
names, in the order of the fields, is that of the required fields, of the required properties of the
schema and of what the check demands, and no other list is any of these.  Every name on it is that
of a property.  The check says of each name whether an event lacks it, once for every time it is on
the list, and finds nothing exactly if the event lacks none. -/
theorem requiredNames_agree (d : Declaration) :
    (∀ names, (FieldDefinition.RequiredIn d.fields names ↔ names = d.requiredNames) ∧
      (d.schema.walk? ["required"] = some (.array (names.map .string)) ↔
        names = d.requiredNames) ∧
      (Verdict.Demands d.validatePresence names ↔ names = d.requiredNames)) ∧
    (∀ name ∈ d.requiredNames, ∃ f ∈ d.fields, f.name = name ∧
      d.schema.walk? ["properties", name] = some f.schema) ∧
    ∀ e, (d.validatePresence e).errors =
        (d.requiredNames.filter fun name => e.Lacks name).map (fun name => name ++ " is required") ∧
      ((d.validatePresence e).valid = true ↔ ∀ name ∈ d.requiredNames, ¬ e.Lacks name) := by
  have hfields := FieldDefinition.requiredIn_requiredNames d.fields
  have hschema := Schema.walk?_required d.fields
  have hdemands := d.demands_validatePresence
  refine ⟨fun names => ⟨?_, ?_, ?_⟩, fun name => Schema.exists_walk?_property, fun e =>
    ⟨hdemands e, hdemands.valid_iff e⟩⟩
  · exact ⟨fun h => h.unique hfields, fun h => h ▸ hfields⟩
  · exact ⟨fun h => Json.eq_of_array_strings (Option.some.inj (h.symm.trans hschema)),
      fun h => h ▸ hschema⟩
  · exact ⟨fun h => h.unique hdemands, fun h => h ▸ hdemands⟩

/-- A dinner that asks for a table twice and, in between, for nothing under the same name. -/
def dinner : Declaration where
  id := "dinner"
  name := "Dinner"
  fields := [⟨"table", .string, true, none, none, none⟩,
    ⟨"guests", .number, true, none, none, none⟩, ⟨"table", .number, false, none, none, none⟩,
    ⟨"table", .text, true, none, none, none⟩]

/-- The table is a property of the schema, and where it is left blank it is missed twice. -/
theorem requiredNames_agree_dinner :
    "table" ∈ dinner.requiredNames ∧
    dinner.schema.walk? ["required"] =
      some (.array (["table", "guests", "table"].map .string)) ∧
    (∃ f ∈ dinner.fields, f.name = "table" ∧
      dinner.schema.walk? ["properties", "table"] = some f.schema) ∧
    (dinner.validatePresence { Verdict.bareEvent with extra := [("table", .string ""),
      ("guests", .ofNat 0)] }).errors = ["table is required", "table is required"] := by
  obtain ⟨hagree, hproperty, hcheck⟩ := requiredNames_agree dinner
  have htable : "table" ∈ dinner.requiredNames := .head _
  refine ⟨htable, (hagree _).2.1.2 rfl, hproperty _ htable, ?_⟩
  rw [(hcheck _).1]
  decide

end Declaration
end CalendarRules
