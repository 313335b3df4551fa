import CalendarRules.Declaration.FieldType
import CalendarRules.Proofs.Json.Restored

/-!
# Types of fields are read back

Writing a type gives the document that it was read from, whatever that document is
(`FieldType.json_ofJson`); reading it again therefore cannot tell the difference.
-/

namespace CalendarRules

open Source

namespace FieldType

theorem json_ofName {name : String} {type : FieldType} (h : ofName? name = some type) :
    type.json = .string name := by
  unfold ofName? at h
  repeat' split at h
  all_goals cases h
  all_goals subst_vars; rw [json]

theorem map_string_of_strings? {items : List Json} {names : List String}
    (h : strings? items = some names) : names.map Json.string = items := by
  fun_induction strings? items generalizing names with
  | case1 => cases h; rfl
  | case2 s rest ih =>
    obtain ⟨tail, htail, rfl⟩ := Option.map_eq_some_iff.1 h
    rw [List.map_cons, ih htail]
  | case3 => cases h

theorem json_ofJson (j : Json) : (ofJson j).json = j := by
  fun_induction ofJson j with
  | case1 name =>
    cases h : ofName? name with
    | none => rw [Option.getD_none, json]
    | some type => rw [Option.getD_some, json_ofName h]
  | case2 value ih => rw [json, ih]
  | case3 items names hnames => rw [json, map_string_of_strings? hnames]
  | case4 | case5 | case6 | case7 => rw [json]

theorem restores (n : Nat) : RestoresBelow n (fun _ => read) json := by
  rintro s ⟨j, hj, rfl⟩ _ _ type h _
  have h : (Source.ofJson j).readJson.map ofJson = .ok type := h
  rw [readJson_ofJson hj] at h
  cases h
  refine ⟨?_, ?_, ?_⟩
  · rw [json_ofJson]
    exact hj
  · rw [json_ofJson, depth_ofJson]
    exact Nat.lt_succ_self _
  · show (Source.ofJson (ofJson j).json).readJson.map ofJson = .ok (ofJson j)
    rw [json_ofJson, readJson_ofJson hj]
    rfl

end FieldType

namespace FieldDefinition

/-- The entries of a field. -/
def entries (field : FieldDefinition) : Entries :=
  [("name", .string field.name), ("type", field.type.json), ("required", .bool field.required)] ++
    Entries.optional "default" field.default ++
    Entries.optional "min" (field.min.map fun x => .number (.float x)) ++
    Entries.optional "max" (field.max.map fun x => .number (.float x))

theorem json_eq (field : FieldDefinition) : field.json = .object field.entries := rfl

theorem keys_entries_sublist (field : FieldDefinition) :
    (Entries.keys field.entries).Sublist
      ["name", "type", "required", "default", "min", "max"] := by
  rw [entries, Entries.keys_append, Entries.keys_append, Entries.keys_append]
  exact (((List.Sublist.refl ["name", "type", "required"]).append
    (Entries.keys_optional_sublist _ _)).append (Entries.keys_optional_sublist _ _)).append
      (Entries.keys_optional_sublist _ _)

theorem get?_entries (field : FieldDefinition) :
    Entries.get? "default" field.entries = field.default ∧
      Entries.get? "min" field.entries = (field.min.map fun x => .number (.float x)) ∧
      Entries.get? "max" field.entries = field.max.map fun x => .number (.float x) := by
  simp [entries, Entries.get?_append, Entries.get?_optional, Entries.get?]

theorem restores (n : Nat) : RestoresBelow n read json := by
  intro s hs _ origin field h origin'
  obtain ⟨-, -, h⟩ := Outcome.bind_eq_ok h
  obtain ⟨name, hname, h⟩ := Outcome.bind_eq_ok h
  obtain ⟨type, htype, h⟩ := Outcome.bind_eq_ok h
  obtain ⟨required, hrequired, h⟩ := Outcome.bind_eq_ok h
  obtain ⟨default, hdefault, h⟩ := Outcome.bind_eq_ok h
  obtain ⟨min, hmin, h⟩ := Outcome.bind_eq_ok h
  obtain ⟨max, hmax, h⟩ := Outcome.bind_eq_ok h
  cases h
  have hname := (restores_readString _).slot hs origin hname origin'
  have htype := (FieldType.restores _).slot hs origin htype origin'
  have hpos := Nat.zero_lt_of_lt hname.depth_lt
  have hrequired : Restored readBool (.bool required) required s.depth := by
    rcases (restores_readBool _).optionalSlot hs origin hrequired origin' with rfl | h
    · exact ⟨Json.wellFormed_bool _, hpos, by rw [ofJson]; rfl⟩
    · exact h
  have hnull : ∀ j, default = some j → j ≠ .null := by
    intro j hj
    obtain ⟨x, ⟨k, hk, rfl⟩, -, hne, hread⟩ := exists_of_optionalSlot_option hs hdefault hj
    rw [readJson_ofJson hk] at hread
    cases hread
    rintro rfl
    exact hne (by rw [Source.ofJson])
  have hdefault := (restores_readJson _).option hs origin hdefault origin'
  have hmin := (restores_readDouble _).option hs origin hmin origin'
  have hmax := (restores_readDouble _).option hs origin hmax origin'
  rw [json_eq]
  obtain ⟨hgetDefault, hgetMin, hgetMax⟩ :=
    get?_entries ⟨name, type, required, default, min, max⟩
  have hkeys := keys_entries_sublist ⟨name, type, required, default, min, max⟩
  refine restored_object hpos (hkeys.nodup (by decide)) ?_ fun hn => ?_
  · simp only [entries, List.forall_mem_append]
    refine ⟨⟨⟨?_, ?_⟩, fits_optional hmin "min"⟩, fits_optional hmax "max"⟩
    · simp [hname.fits, htype.fits, hrequired.fits]
    · rw [← Option.map_id' (x := default)]
      exact fits_optional hdefault "default"
  · have hname := hname.slot_get hn (.head _) 0
    have htype := htype.slot_get hn (.tail _ (.head _)) 1
    have hrequired := hrequired.optionalSlot_getD hn (.tail _ (.tail _ (.head _))) 2 false
    have hdefault := optionalSlot_option_object (hgetDefault.trans Option.map_id'.symm)
      hdefault hnull 3
    have hmin := optionalSlot_option_object hgetMin hmin (by simp) 4
    have hmax := optionalSlot_option_object hgetMax hmax (by simp) 5
    have hcheck := checkRecord_object origin' "struct FieldDefinition" hn <|
      (settled_slot hname).cons <| (settled_slot htype).cons <|
      (settled_optionalSlot hrequired).cons <| (settled_optionalSlot hdefault).cons <|
      (settled_optionalSlot hmin).cons <| (settled_optionalSlot hmax).cons <| List.forall_mem_nil _
    unfold read
    simp only [hname, htype, hrequired, hdefault, hmin, hmax, hcheck, Outcome.ok_bind]
    rfl

end FieldDefinition
end CalendarRules
