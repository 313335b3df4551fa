import CalendarRules.Proofs.Binary64.Integer
import CalendarRules.Proofs.Command.Schema
import CalendarRules.Proofs.Declaration.RoundTrip

/-!
# What a schema has to be

A validator refuses a schema in which a length or a number of items is bounded by anything but a
whole number from zero on, or in which the names of required properties repeat.  A number is whole
if it has no part after the point, however it is written.  This holds of a schema at every level: of
the schema itself, of those of its properties and of that of the items (`Schema.Level`,
`Schema.WellFormed`).

A bound is written as it is declared.  The number in the schema denotes the declared double, but
nothing keeps the bound of a length from being negative or a fraction.  Nor does anything keep a
name from being declared twice: the last declaration of a name makes the property, and every one
that is required adds the name to the required ones.  So a schema is well formed exactly if no name
is required twice and every length and count among the fields that make a property is bounded by
whole numbers from zero on (`Schema.wellFormed_schemaOfFields`).
-/

namespace CalendarRules

/-! ## Bounds as numbers -/

/-- A whole number from zero on, in units of `2^-1074`. -/
def IsCount (units : Int) : Prop := ∃ k : Nat, units = (k * unitsPerOne : Nat)

namespace Finite64

theorem truncate_mul_of_isWhole {x : Finite64} (h : x.isWhole = true) :
    x.truncate * unitsPerOne = x.toInt := by
  have hwhole : x.magnitude / unitsPerOne * unitsPerOne = x.magnitude :=
    Nat.div_mul_cancel (Nat.dvd_of_mod_eq_zero (beq_iff_eq.1 h))
  have hcast : ((x.magnitude / unitsPerOne : Nat) : Int) * unitsPerOne = x.magnitude :=
    congrArg Int.ofNat hwhole
  rw [truncate, toInt]
  split
  · rw [Int.neg_mul, hcast]
  · exact hcast

theorem natAbs_truncate (x : Finite64) : x.truncate.natAbs = x.magnitude / unitsPerOne := by
  rw [truncate]
  split
  · rw [Int.natAbs_neg, Int.natAbs_natCast]
  · exact Int.natAbs_natCast _

end Finite64

/-- The number that is written for a bound denotes the bound. -/
theorem exists_schemaNumber_eq (x : Finite64) :
    ∃ n : Number, schemaNumber x = .number n ∧ n.units = x.toInt := by
  unfold schemaNumber
  split
  next h =>
    obtain ⟨hwhole, hlt⟩ := Bool.and_eq_true_iff.1 h
    have hfew : x.truncate.natAbs < twoPow 63 := by
      rw [x.natAbs_truncate]
      exact (Nat.div_lt_iff_lt_mul unitsPerOne_pos).2 (of_decide_eq_true hlt)
    have hrange : IntegerRange x.truncate := by
      have hpow : twoPow 63 = 9223372036854775808 := by decide
      unfold IntegerRange
      omega
    exact ⟨.int x.truncate hrange, dif_pos hrange, x.truncate_mul_of_isWhole hwhole⟩
  next => exact ⟨.float x, rfl, rfl⟩

/-! ## The keywords of a field -/

theorem Entries.mem_optional {key key' : String} {value : Json} {value? : Option Json} :
    (key', value) ∈ optional key value? ↔ key' = key ∧ value? = some value := by
  cases value? with
  | none => exact iff_of_false List.not_mem_nil fun h => nomatch h.2
  | some v =>
    rw [optional, List.mem_singleton, Prod.mk.injEq, Option.some_inj, @eq_comm _ v]

/-- A list of names is known from its document. -/
theorem Json.eq_of_array_strings {names others : List String}
    (h : Json.array (names.map .string) = .array (others.map .string)) : names = others := by
  have hinjective : Function.Injective Json.string := fun _ _ => Json.string.inj
  exact hinjective.list_map (Json.array.inj h)

namespace FieldType

/-- The keywords of the schemas of types. -/
def keywords : List String := ["type", "format", "items", "enum"]

theorem mem_keywords_of_mem_schema {t : FieldType} {key : String} {value : Json}
    (h : (key, value) ∈ t.schema) : key ∈ keywords := by
  cases t <;> simp only [schema, List.mem_cons, List.not_mem_nil, Prod.mk.injEq, or_false] at h
  case string | text | number | boolean =>
    rw [h.1]
    decide
  case email | list | enumeration =>
    rcases h with ⟨rfl, -⟩ | ⟨rfl, -⟩ <;> decide

/-- Only a list has items. -/
theorem eq_list_of_mem_schema {t : FieldType} {item : Json} (h : ("items", item) ∈ t.schema) :
    ∃ t', t = .list t' ∧ item = .object t'.schema := by
  cases t <;>
    simp only [schema, List.mem_cons, List.not_mem_nil, Prod.mk.injEq, String.reduceEq, false_and,
      true_and, or_false, false_or] at h
  case list t' => exact ⟨t', rfl, h⟩

end FieldType

namespace FieldDefinition

variable {f : FieldDefinition} {key : String} {value : Json} {x : Finite64}

/-- The field declares the bound that a keyword stands for: the least or the greatest value, length
or number of items, by its type. -/
def Declares (f : FieldDefinition) (key : String) (x : Finite64) : Prop :=
  ∃ minKey maxKey, f.type.boundKeys? = some (minKey, maxKey) ∧
    (key = minKey ∧ f.min = some x ∨ key = maxKey ∧ f.max = some x)

/-- What the schema of the field consists of. -/
def keywords (f : FieldDefinition) : Entries :=
  f.type.schema ++ Entries.optional "default" f.default ++
    match f.type.boundKeys? with
    | some (minKey, maxKey) =>
      Entries.optional minKey (f.min.map schemaNumber) ++
      Entries.optional maxKey (f.max.map schemaNumber)
    | none => []

theorem schema_eq (f : FieldDefinition) : f.schema = .object f.keywords := rfl

theorem mem_keywords_iff : (key, value) ∈ f.keywords ↔
    (key, value) ∈ f.type.schema ∨ (key = "default" ∧ f.default = some value) ∨
      ∃ x, f.Declares key x ∧ value = schemaNumber x := by
  rw [keywords, List.mem_append, List.mem_append, Entries.mem_optional, or_assoc]
  refine or_congr_right (or_congr_right ?_)
  unfold Declares
  cases f.type.boundKeys? with
  | none =>
    refine iff_of_false List.not_mem_nil ?_
    rintro ⟨x, ⟨minKey, maxKey, hkeys, -⟩, -⟩
    cases hkeys
  | some keys =>
    obtain ⟨minKey, maxKey⟩ := keys
    rw [List.mem_append, Entries.mem_optional, Entries.mem_optional, Option.map_eq_some_iff,
      Option.map_eq_some_iff]
    constructor
    · rintro (⟨hkey, x, hx, rfl⟩ | ⟨hkey, x, hx, rfl⟩)
      · exact ⟨x, ⟨minKey, maxKey, rfl, .inl ⟨hkey, hx⟩⟩, rfl⟩
      · exact ⟨x, ⟨minKey, maxKey, rfl, .inr ⟨hkey, hx⟩⟩, rfl⟩
    · rintro ⟨x, ⟨_, _, hkeys, hx⟩, rfl⟩
      cases hkeys
      exact hx.imp (fun h => ⟨h.1, x, h.2, rfl⟩) fun h => ⟨h.1, x, h.2, rfl⟩

end FieldDefinition

namespace Schema

variable {fields : List FieldDefinition} {f : FieldDefinition} {name key : String} {x : Finite64}

/-! ## Levels -/

/-- Some keywords are those of a schema, or of one inside it. -/
inductive Level : Json → Entries → Prop where
  | self (keywords : Entries) : Level (.object keywords) keywords
  | property {schema properties keywords : Entries} {name : String} {sub : Json}
      (among : ("properties", .object properties) ∈ schema) (entry : (name, sub) ∈ properties)
      (inside : Level sub keywords) : Level (.object schema) keywords
  | items {schema keywords : Entries} {item : Json} (entry : ("items", item) ∈ schema)
      (inside : Level item keywords) : Level (.object schema) keywords

/-- The keywords for lengths and numbers of items. -/
def countKeys : List String := ["minLength", "maxLength", "minItems", "maxItems"]

/-- The keywords for bounds of any kind. -/
def boundKeys : List String := "minimum" :: "maximum" :: countKeys

/-- Lengths and numbers of items are bounded by whole numbers from zero on, and the required names
are those of properties and do not repeat. -/
structure WellFormedLevel (keywords : Entries) : Prop where
  count : ∀ key ∈ countKeys, ∀ value, (key, value) ∈ keywords →
    ∃ n : Number, value = .number n ∧ IsCount n.units
  required : ∀ value, ("required", value) ∈ keywords →
    ∃ (names : List String) (entries : Entries), value = .array (names.map .string) ∧
      names.Nodup ∧ ("properties", .object entries) ∈ keywords ∧
        ∀ name ∈ names, name ∈ Entries.keys entries

/-- Every level is as it has to be. -/
def WellFormed (schema : Json) : Prop :=
  ∀ keywords, Level schema keywords → WellFormedLevel keywords

theorem mem_boundKeys_of_mem_countKeys (h : key ∈ countKeys) : key ∈ boundKeys :=
  .tail _ (.tail _ h)

theorem ne_of_mem_boundKeys (h : key ∈ boundKeys) : key ∉ FieldType.keywords ∧ key ≠ "default" := by
  revert key
  decide

theorem mem_boundKeys_of_declares (h : f.Declares key x) : key ∈ boundKeys := by
  obtain ⟨minKey, maxKey, hkeys, hkey⟩ := h
  have hmem {a b : String} (hab : f.type.boundKeys? = some (a, b)) :
      a ∈ boundKeys ∧ b ∈ boundKeys := by
    unfold FieldType.boundKeys? at hab
    split at hab <;> cases hab <;> decide
  rcases hkey with ⟨rfl, -⟩ | ⟨rfl, -⟩
  · exact (hmem hkeys).1
  · exact (hmem hkeys).2

/-- In the schema of a field, a bound is one that is declared. -/
theorem mem_keywords_of_mem_boundKeys {value : Json} (hkey : key ∈ boundKeys) :
    (key, value) ∈ f.keywords ↔ ∃ x, f.Declares key x ∧ value = schemaNumber x := by
  obtain ⟨htype, hdefault⟩ := ne_of_mem_boundKeys hkey
  rw [FieldDefinition.mem_keywords_iff]
  constructor
  · rintro (h | ⟨h, -⟩ | h)
    · exact absurd (FieldType.mem_keywords_of_mem_schema h) htype
    · exact absurd h hdefault
    · exact h
  · exact fun h => .inr (.inr h)

/-- A keyword that is neither a bound nor the default of a field belongs to its type. -/
theorem mem_schema_of_mem_keywords {value : Json} (h : (key, value) ∈ f.keywords)
    (hdefault : key ≠ "default") (hbound : key ∉ boundKeys) : (key, value) ∈ f.type.schema := by
  rcases FieldDefinition.mem_keywords_iff.1 h with h | ⟨h, -⟩ | ⟨x, hx, -⟩
  · exact h
  · exact absurd h hdefault
  · exact absurd (mem_boundKeys_of_declares hx) hbound

theorem exists_type_of_level {t : FieldType} {keywords : Entries}
    (h : Level (.object t.schema) keywords) : ∃ t' : FieldType, keywords = t'.schema := by
  induction t with
  | list item ih =>
    cases h with
    | self => exact ⟨.list item, rfl⟩
    | property among =>
      exact absurd (FieldType.mem_keywords_of_mem_schema among) (by decide)
    | items entry inside =>
      obtain ⟨t', heq, rfl⟩ := FieldType.eq_list_of_mem_schema entry
      cases heq
      exact ih inside
  | string | number | boolean | email | text | enumeration | other =>
    cases h with
    | self => exact ⟨_, rfl⟩
    | property among =>
      exact absurd (FieldType.mem_keywords_of_mem_schema among) (by decide)
    | items entry =>
      obtain ⟨t', heq, -⟩ := FieldType.eq_list_of_mem_schema entry
      cases heq

/-- Below the schema of a field there are only schemas of types. -/
theorem level_field {keywords : Entries} (h : Level f.schema keywords) :
    keywords = f.keywords ∨ ∃ t : FieldType, keywords = t.schema := by
  rw [FieldDefinition.schema_eq] at h
  cases h with
  | self => exact .inl rfl
  | property among =>
    -- the payload alone has properties
    have htype := mem_schema_of_mem_keywords among (by decide) (by decide)
    exact absurd (FieldType.mem_keywords_of_mem_schema htype) (by decide)
  | items entry inside =>
    obtain ⟨t, -, rfl⟩ :=
      FieldType.eq_list_of_mem_schema (mem_schema_of_mem_keywords entry (by decide) (by decide))
    exact .inr (exists_type_of_level inside)

/-! ## Properties -/

/-- The field that makes the property of a name: the last one that has it. -/
def lastNamed? (fields : List FieldDefinition) (name : String) : Option FieldDefinition :=
  (fields.filter fun f => f.name = name).getLast?

/-- The properties of a payload. -/
def properties (fields : List FieldDefinition) : Entries :=
  Entries.ofSettings (fields.map fun f => (f.name, f.schema))

/-- The names of the required fields in order. -/
def requiredNames (fields : List FieldDefinition) : List String :=
  (fields.filter FieldDefinition.required).map FieldDefinition.name

/-- What the schema of a payload consists of. -/
def payloadKeywords (fields : List FieldDefinition) : Entries := [
  ("$schema", .string "http://json-schema.org/draft-07/schema#"),
  ("type", .string "object"),
  ("properties", .object (properties fields)),
  ("required", .array ((requiredNames fields).map .string)),
  ("additionalProperties", .bool false)]

theorem schemaOfFields_eq (fields : List FieldDefinition) :
    schemaOfFields fields = .object (payloadKeywords fields) := by
  rw [payloadKeywords, requiredNames, List.map_map]
  rfl

theorem get?_properties (fields : List FieldDefinition) (name : String) :
    Entries.get? name (properties fields) =
      (lastNamed? fields name).map FieldDefinition.schema := by
  have hsettings : (fields.map fun f => (f.name, f.schema)).filterMap (Entries.valueFor? name) =
      (fields.filter fun f => f.name = name).map FieldDefinition.schema := by
    induction fields with
    | nil => rfl
    | cons f fields ih =>
      rw [List.map_cons, List.filterMap_cons, Entries.valueFor?, List.filter_cons, ih]
      by_cases hname : f.name = name
      · simp only [hname, if_true, decide_true, List.map_cons]
      · simp only [hname, if_false, decide_false, Bool.false_eq_true]
  rw [properties, Entries.get?_ofSettings, hsettings, List.getLast?_map, lastNamed?]

theorem mem_properties_iff {sub : Json} : (name, sub) ∈ properties fields ↔
    ∃ f, lastNamed? fields name = some f ∧ f.schema = sub := by
  have hget : (name, sub) ∈ properties fields ↔
      Entries.get? name (properties fields) = some sub :=
    ⟨Entries.get?_of_mem (Entries.nodup_keys_ofSettings _), Entries.mem_of_get?⟩
  rw [hget, get?_properties, Option.map_eq_some_iff]

theorem name_of_lastNamed? (h : lastNamed? fields name = some f) : f.name = name :=
  of_decide_eq_true (List.mem_filter.1 (List.mem_of_getLast? h)).2

/-- Every field has a property of its name. -/
theorem mem_keys_properties (h : f ∈ fields) : f.name ∈ Entries.keys (properties fields) := by
  have hne : (fields.filter fun g => g.name = f.name) ≠ [] :=
    List.ne_nil_of_mem (List.mem_filter.2 ⟨h, decide_eq_true rfl⟩)
  have hlast : lastNamed? fields f.name = some _ := List.getLast?_eq_some_getLast hne
  exact Entries.mem_keys (mem_properties_iff.2 ⟨_, hlast, rfl⟩)

theorem mem_keys_of_mem_requiredNames (h : name ∈ requiredNames fields) :
    name ∈ Entries.keys (properties fields) := by
  obtain ⟨f, hf, rfl⟩ := List.mem_map.1 h
  exact mem_keys_properties (List.mem_of_mem_filter hf)

theorem properties_mem_payloadKeywords (fields : List FieldDefinition) :
    ("properties", .object (properties fields)) ∈ payloadKeywords fields :=
  .tail _ (.tail _ (.head _))

theorem required_mem_payloadKeywords (fields : List FieldDefinition) :
    ("required", .array ((requiredNames fields).map .string)) ∈ payloadKeywords fields :=
  .tail _ (.tail _ (.tail _ (.head _)))

theorem mem_payloadKeywords {value : Json} (h : (key, value) ∈ payloadKeywords fields) :
    key ∉ boundKeys ∧ key ≠ "items" ∧
      (key = "properties" → value = .object (properties fields)) ∧
      (key = "required" → value = .array ((requiredNames fields).map .string)) := by
  simp only [payloadKeywords, List.mem_cons, List.not_mem_nil, Prod.mk.injEq, or_false] at h
  rcases h with ⟨rfl, rfl⟩ | ⟨rfl, rfl⟩ | ⟨rfl, rfl⟩ | ⟨rfl, rfl⟩ | ⟨rfl, rfl⟩ <;>
  exact ⟨by decide, by decide, by simp, by simp⟩

/-- The levels of the schema of a payload: its own, those of its properties, and below these only
schemas of types. -/
theorem level_schemaOfFields {keywords : Entries} (h : Level (schemaOfFields fields) keywords) :
    keywords = payloadKeywords fields ∨
      (∃ f, lastNamed? fields f.name = some f ∧ keywords = f.keywords) ∨
      ∃ t : FieldType, keywords = t.schema := by
  rw [schemaOfFields_eq] at h
  cases h with
  | self => exact .inl rfl
  | property among entry inside =>
    have hproperties := (mem_payloadKeywords among).2.2.1 rfl
    cases hproperties
    -- what is left of a name that is declared again is its last declaration
    obtain ⟨f, hf, rfl⟩ := mem_properties_iff.1 entry
    refine .inr ((level_field inside).imp_left fun heq => ⟨f, ?_, heq⟩)
    rw [name_of_lastNamed? hf, hf]
  | items entry => exact absurd rfl (mem_payloadKeywords entry).2.1

theorem level_of_lastNamed? (h : lastNamed? fields name = some f) :
    Level (schemaOfFields fields) f.keywords := by
  rw [schemaOfFields_eq]
  exact .property (properties_mem_payloadKeywords fields) (mem_properties_iff.2 ⟨f, h, rfl⟩)
    (.self _)

/-! ## Well-formed levels -/

theorem wellFormedLevel_type (t : FieldType) : WellFormedLevel t.schema where
  count key hkey value h :=
    absurd (FieldType.mem_keywords_of_mem_schema h)
      (ne_of_mem_boundKeys (mem_boundKeys_of_mem_countKeys hkey)).1
  required value h := absurd (FieldType.mem_keywords_of_mem_schema h) (by decide)

theorem wellFormedLevel_field_iff : WellFormedLevel f.keywords ↔
    ∀ key ∈ countKeys, ∀ x, f.Declares key x → IsCount x.toInt := by
  constructor
  · intro h key hkey x hx
    obtain ⟨n, hn, hunits⟩ := exists_schemaNumber_eq x
    have hmem : (key, schemaNumber x) ∈ f.keywords :=
      (mem_keywords_of_mem_boundKeys (mem_boundKeys_of_mem_countKeys hkey)).2 ⟨x, hx, rfl⟩
    obtain ⟨m, hm, hcount⟩ := h.count key hkey _ hmem
    rw [hn] at hm
    cases hm
    exact hunits ▸ hcount
  · intro h
    refine ⟨fun key hkey value hvalue => ?_, fun value hvalue => ?_⟩
    · have hbound := mem_boundKeys_of_mem_countKeys hkey
      obtain ⟨x, hx, rfl⟩ := (mem_keywords_of_mem_boundKeys hbound).1 hvalue
      obtain ⟨n, hn, hunits⟩ := exists_schemaNumber_eq x
      exact ⟨n, hn, hunits ▸ h key hkey x hx⟩
    · have htype := mem_schema_of_mem_keywords hvalue (by decide) (by decide)
      exact absurd (FieldType.mem_keywords_of_mem_schema htype) (by decide)

theorem wellFormedLevel_payload_iff :
    WellFormedLevel (payloadKeywords fields) ↔ (requiredNames fields).Nodup := by
  constructor
  · intro h
    obtain ⟨names, _, hnames, hnodup, -⟩ := h.required _ (required_mem_payloadKeywords fields)
    rw [Json.eq_of_array_strings hnames]
    exact hnodup
  · intro h
    refine ⟨fun key hkey value hvalue => ?_, fun value hvalue => ?_⟩
    · exact absurd (mem_boundKeys_of_mem_countKeys hkey) (mem_payloadKeywords hvalue).1
    · exact ⟨requiredNames fields, properties fields, (mem_payloadKeywords hvalue).2.2.2 rfl, h,
        properties_mem_payloadKeywords fields, fun name => mem_keys_of_mem_requiredNames⟩

/-- The schema of a payload is well formed exactly if no name is required twice and the lengths and
numbers of items are bounded by whole numbers from zero on, in each field that is the last of its
name.  Whatever the fields are, a required name is one of a property, and every number that stands
for a bound denotes the bound that such a field declares. -/
theorem wellFormed_schemaOfFields (fields : List FieldDefinition) :
    (WellFormed (schemaOfFields fields) ↔
      (requiredNames fields).Nodup ∧ ∀ f, lastNamed? fields f.name = some f →
        ∀ key ∈ countKeys, ∀ x, f.Declares key x → IsCount x.toInt) ∧
    (∃ keywords entries, schemaOfFields fields = .object keywords ∧
      ("properties", .object entries) ∈ keywords ∧
      ("required", .array ((requiredNames fields).map .string)) ∈ keywords ∧
      ∀ name ∈ requiredNames fields, name ∈ Entries.keys entries) ∧
    (∀ keywords, Level (schemaOfFields fields) keywords →
      ∀ key ∈ boundKeys, ∀ value, (key, value) ∈ keywords →
        ∃ f, lastNamed? fields f.name = some f ∧ f.schema = .object keywords ∧
          ∃ x, f.Declares key x ∧ ∃ n : Number, value = .number n ∧ n.units = x.toInt) := by
  refine ⟨⟨fun h => ⟨?_, fun f hf => ?_⟩, ?_⟩, ?_, ?_⟩
  · refine wellFormedLevel_payload_iff.1 (h _ ?_)
    rw [schemaOfFields_eq]
    exact .self _
  · exact wellFormedLevel_field_iff.1 (h _ (level_of_lastNamed? hf))
  · rintro ⟨hnodup, hcounts⟩ keywords hlevel
    rcases level_schemaOfFields hlevel with rfl | ⟨f, hf, rfl⟩ | ⟨t, rfl⟩
    · exact wellFormedLevel_payload_iff.2 hnodup
    · exact wellFormedLevel_field_iff.2 (hcounts f hf)
    · exact wellFormedLevel_type t
  · exact ⟨_, properties fields, schemaOfFields_eq fields, properties_mem_payloadKeywords fields,
      required_mem_payloadKeywords fields, fun name => mem_keys_of_mem_requiredNames⟩
  · intro keywords hlevel key hkey value hvalue
    rcases level_schemaOfFields hlevel with rfl | ⟨f, hf, rfl⟩ | ⟨t, rfl⟩
    · exact absurd hkey (mem_payloadKeywords hvalue).1
    · obtain ⟨x, hx, rfl⟩ := (mem_keywords_of_mem_boundKeys hkey).1 hvalue
      obtain ⟨n, hn, hunits⟩ := exists_schemaNumber_eq x
      exact ⟨f, hf, rfl, x, hx, n, hn, hunits⟩
    · exact absurd (FieldType.mem_keywords_of_mem_schema hvalue) (ne_of_mem_boundKeys hkey).1

/-! ## Half a character -/

/-- Two and a half. -/
def twoAndAHalf : Finite64 := ⟨false, 5 * twoPow 1073, by decide +kernel⟩

theorem readsBack_twoAndAHalf : (Number.float twoAndAHalf).ReadsBack := by
  have hjson : (Number.float twoAndAHalf).json = ['2', '.', '5'] := by decide +kernel
  have hscan : Numeral.scan ['2', '.', '5'] = .ok (⟨false, ['2'], some ['5'], none⟩, []) := rfl
  have hvalue : Numeral.value? ⟨false, ['2'], some ['5'], none⟩ = some (.float twoAndAHalf) := by
    decide +kernel
  exact Number.readsBack_of_numeral hjson (.inr rfl) (hjson ▸ hscan) hvalue

/-- A talk in a room whose name has a least length. -/
def talkJson (min : Finite64) : Json :=
  .object [("type", .string "talk"), ("fields", .array [
    .object [("name", .string "room"), ("type", .string "string"), ("min", .number (.float min))]])]

/-- The room that is read from it. -/
def namedRoom (min : Finite64) : FieldDefinition := ⟨"room", .string, false, none, some min, none⟩

theorem listOfJson_talkJson (min : Finite64) : Declaration.listOfJson (talkJson min) =
    .ok [{ id := "talk", name := "", fields := [namedRoom min] }] := by
  cbv

theorem not_isCount_twoAndAHalf : ¬ IsCount twoAndAHalf.toInt := by
  have hunits : unitsPerOne = twoPow 1073 * 2 := by
    rw [unitsPerOne, show 2 = twoPow 1 from rfl, ← twoPow_add]
  have hvalue : twoAndAHalf.toInt = (5 * twoPow 1073 : Nat) := if_neg Bool.false_ne_true
  rintro ⟨k, hk⟩
  rw [hvalue, hunits, Nat.mul_comm, Nat.mul_left_comm] at hk
  have hhalves := Nat.eq_of_mul_eq_mul_left (twoPow_pos 1073) (Int.ofNat_inj.1 hk)
  omega

/-- A room may be asked to have two characters and a half in its name, which no schema can say. -/
theorem not_wellFormed_schema_talk :
    ∃ d, Declaration.listOfText (talkJson twoAndAHalf).text = .ok [d] ∧ ¬ WellFormed d.schema := by
  have hn : (talkJson twoAndAHalf).DoublesReadBack :=
    List.forall_mem_singleton.2 readsBack_twoAndAHalf
  have hw : (talkJson twoAndAHalf).WellFormed := by
    simp [talkJson, Json.WellFormed, Json.WellFormedItems, Json.WellFormedEntries]
  have hl : (talkJson twoAndAHalf).depth ≤ Source.maxDepth := by
    simp [talkJson, Json.depth, Json.depthOfItems, Json.depthOfEntries, Source.maxDepth]
  refine ⟨{ id := "talk", name := "", fields := [namedRoom twoAndAHalf] }, ?_, fun h => ?_⟩
  · rw [Declaration.listOfText_text hw hl hn]
    exact listOfJson_talkJson twoAndAHalf
  · have hlast : lastNamed? [namedRoom twoAndAHalf] "room" = some (namedRoom twoAndAHalf) := rfl
    have hlevel := h _ (level_of_lastNamed? hlast)
    exact not_isCount_twoAndAHalf (wellFormedLevel_field_iff.1 hlevel "minLength" (by decide) _
      ⟨"minLength", "maxLength", rfl, .inl ⟨rfl, rfl⟩⟩)

end Schema
end CalendarRules
