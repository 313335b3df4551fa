import CalendarRules.Proofs.Command
import CalendarRules.Proofs.Declaration.RoundTrip
import CalendarRules.Proofs.LastSetting

/-!
# The two forms of the schema command

A schema can be asked for by the identifier of its type, or all schemas of a file at once, as an
object with the identifiers for its keys.  The first form searches the declarations from the
beginning; the second one goes through them and sets the key of each, so that a later declaration
takes the place of an earlier one.  The forms agree on an identifier that is declared once
(`Invocation.run_schema`).  On a repeated one they show two declarations, and may disagree.
-/

namespace CalendarRules

namespace Entries

/-- What a setting sets a key to; a setting of another key sets it to nothing. -/
def valueFor? (key : String) (setting : String × Json) : Option Json :=
  if setting.1 = key then some setting.2 else none

/-- Under a key is what was set last. -/
theorem get?_ofSettings (key : String) (settings : Entries) :
    get? key (ofSettings settings) = (settings.filterMap (valueFor? key)).getLast? := by
  have hlast : get? key (ofSettings settings) =
      ((settings.filterMap (valueFor? key)).getLast?.map some).getD none := by
    refine observe_foldl (get? key) (fun entries setting => ?_) settings []
    rw [get?_insert, valueFor?]
    split <;> rfl
  rw [hlast]
  cases (settings.filterMap (valueFor? key)).getLast? <;> rfl

end Entries

namespace Declaration

variable {ds : List Declaration} {id : String} {d first last : Declaration}

/-- A declaration is the last one of a list that has an identifier. -/
def IsLast (ds : List Declaration) (id : String) (d : Declaration) : Prop :=
  ∃ before after, ds = before ++ d :: after ∧ d.id = id ∧ ∀ d' ∈ after, d'.id ≠ id

theorem isFirst_reverse_iff : IsFirst ds.reverse id d ↔ IsLast ds id d := by
  constructor
  · rintro ⟨before, after, heq, hid, hbefore⟩
    refine ⟨after.reverse, before.reverse, ?_, hid, fun d' h => hbefore d' (List.mem_reverse.1 h)⟩
    rw [← List.reverse_reverse ds, heq, List.reverse_append, List.reverse_cons, List.append_assoc,
      List.singleton_append]
  · rintro ⟨before, after, rfl, hid, hafter⟩
    refine ⟨after.reverse, before.reverse, ?_, hid, fun d' h => hafter d' (List.mem_reverse.1 h)⟩
    rw [List.reverse_append, List.reverse_cons, List.append_assoc, List.singleton_append]

theorem exists_isFirst (h : id ∈ ds.map Declaration.id) : ∃ d, IsFirst ds id d := by
  induction ds with
  | nil => cases h
  | cons d ds ih =>
    by_cases hd : d.id = id
    · exact ⟨d, [], ds, rfl, hd, List.forall_mem_nil _⟩
    · obtain ⟨first, before, after, heq, hid, hbefore⟩ :=
        ih ((List.mem_cons.1 h).resolve_left (Ne.symm hd))
      refine ⟨first, d :: before, after, by rw [heq, List.cons_append], hid, ?_⟩
      exact List.forall_mem_cons.2 ⟨hd, hbefore⟩

theorem exists_isLast (h : id ∈ ds.map Declaration.id) : ∃ d, IsLast ds id d := by
  rw [← List.mem_reverse, ← List.map_reverse] at h
  obtain ⟨d, hd⟩ := exists_isFirst h
  exact ⟨d, isFirst_reverse_iff.1 hd⟩

/-- Of an identifier that is declared once, the first declaration is the last. -/
theorem IsLast.eq_of_isFirst (hlast : IsLast ds id last) (hfirst : IsFirst ds id first)
    (hone : (ds.map Declaration.id).count id = 1) : last = first := by
  obtain ⟨before, after, rfl, rfl, hbefore⟩ := hfirst
  obtain ⟨earlier, later, heq, hid, -⟩ := hlast
  have hmem : last ∈ before ++ first :: after := by
    rw [heq]
    exact List.mem_append_right _ (List.mem_cons_self ..)
  rcases List.mem_append.1 hmem with hb | hf
  · exact absurd hid (hbefore last hb)
  · rcases List.mem_cons.1 hf with rfl | ha
    · rfl
    · have hagain : 0 < (after.map Declaration.id).count first.id :=
        List.count_pos_iff.2 (hid ▸ List.mem_map_of_mem ha)
      rw [List.map_append, List.map_cons, List.count_append, List.count_cons_self] at hone
      omega

/-- Among all schemas, that of the last declaration stands under an identifier. -/
theorem IsLast.get?_schemas (h : IsLast ds id d) :
    Entries.get? id (Entries.ofSettings (ds.map fun d => (d.id, d.schema))) = some d.schema := by
  obtain ⟨before, after, rfl, hid, hafter⟩ := h
  have hnone : (after.map fun d => (d.id, d.schema)).filterMap (Entries.valueFor? id) = [] := by
    rw [List.filterMap_map, List.filterMap_eq_nil_iff]
    exact fun d' h => if_neg (hafter d' h)
  have hsome : Entries.valueFor? id (d.id, d.schema) = some d.schema := if_pos hid
  rw [Entries.get?_ofSettings, List.map_append, List.map_cons, List.filterMap_append,
    List.filterMap_cons_some hsome, hnone, List.getLast?_append, List.getLast?_singleton]
  rfl

end Declaration

/-- A run shows a document and nothing else: in the output file if there is one, else on standard
output. -/
def Outcome.showing (output : Option String) (document : Json) : Outcome where
  exitCode := 0
  stdout := output.elim document.prettyText fun _ => ""
  written := output.map fun path => (path, document.prettyText)

namespace Invocation

variable {s : Surroundings} {types id : String} {ds : List Declaration} {output : Option String}

theorem run_of_answers_content [TimeZones] [RuleEngine] {c : Command} {document : Json}
    (h : c.Answers s document true) (hwrite : ∀ path ∈ output, s.isWritable path = true) :
    run ⟨c, output⟩ s = .showing output document := by
  have hanswers : (Invocation.mk c output).command.Answers s document true := h
  exact run_of_answers hanswers hwrite

/-- What the schema command shows for a file that can be read, with and without an identifier that
is declared in it.  The one form has the schema of the last declaration under the identifier, the
other form is the schema of the first.  So they agree if the identifier is declared once, and else
only if these two declarations have one schema. -/
theorem run_schema [TimeZones] [RuleEngine] (hfile : s.Holds Declaration.listOfText types ds)
    (hid : id ∈ ds.map Declaration.id) (hwrite : ∀ path ∈ output, s.isWritable path = true) :
    ∃ entries first last,
      Declaration.IsFirst ds id first ∧ Declaration.IsLast ds id last ∧
      run ⟨.schema types none, output⟩ s = .showing output (.object entries) ∧
      run ⟨.schema types (some id), output⟩ s = .showing output first.schema ∧
      ((ds.map Declaration.id).count id = 1 → Entries.get? id entries = some first.schema) ∧
      (Entries.get? id entries = some first.schema ↔ last.schema = first.schema) := by
  obtain ⟨first, hfirst⟩ := Declaration.exists_isFirst hid
  obtain ⟨last, hlast⟩ := Declaration.exists_isLast hid
  have hentry := hlast.get?_schemas
  refine ⟨Entries.ofSettings (ds.map fun d => (d.id, d.schema)), first, last, hfirst, hlast, ?_, ?_,
    fun hone => ?_, ?_⟩
  · exact run_of_answers_content (.schemas hfile) hwrite
  · exact run_of_answers_content (.schema hfile hfirst) hwrite
  · rw [← hlast.eq_of_isFirst hfirst hone, hentry]
  · rw [hentry, Option.some_inj]

end Invocation

/-! ## A programme with two types of one identifier -/

/-- A talk with a room, a film and a talk without a room. -/
def programme : Json :=
  .array [
    .object [("type", .string "talk"), ("fields",
      .array [.object [("name", .string "room"), ("type", .string "string")]])],
    .object [("type", .string "film")],
    .object [("type", .string "talk")]]

/-- The room of a talk. -/
def roomField : FieldDefinition := ⟨"room", .string, false, none, none, none⟩

/-- The declarations that are read from it. -/
def programmeTypes : List Declaration :=
  [{ id := "talk", name := "", fields := [roomField] }, { id := "film", name := "" },
    { id := "talk", name := "" }]

/-- A file with the programme in it. -/
def programmeFiles : Surroundings where
  file? := fun path => if path = "types.json" then some programme.text else none
  input? := none
  isWritable := fun _ => true
  clock := exhibition.start

theorem holds_programme :
    programmeFiles.Holds Declaration.listOfText "types.json" programmeTypes := by
  have hfile : programmeFiles.file? "types.json" = some programme.text := by
    simp [programmeFiles]
  have hw : programme.WellFormed := by
    simp [programme, Json.WellFormed, Json.WellFormedItems, Json.WellFormedEntries]
  have hl : programme.depth ≤ Source.maxDepth := by
    simp [programme, Json.depth, Json.depthOfItems, Json.depthOfEntries, Source.maxDepth]
  have hn : programme.DoublesReadBack := Json.doublesReadBack_of_doubles_eq_nil rfl
  refine ⟨_, hfile, ?_⟩
  rw [Declaration.listOfText_text hw hl hn]
  cbv

theorem Invocation.run_schema_film :
    ∃ entries first, Declaration.IsFirst programmeTypes "film" first ∧
      run ⟨.schema "types.json" none, none⟩ programmeFiles = .showing none (.object entries) ∧
      run ⟨.schema "types.json" (some "film"), none⟩ programmeFiles =
        .showing none first.schema ∧
      Entries.get? "film" entries = some first.schema := by
  have hfilm : "film" ∈ programmeTypes.map Declaration.id := by decide
  have hwrite : ∀ path ∈ (none : Option String), programmeFiles.isWritable path = true := nofun
  obtain ⟨entries, first, -, hfirst, -, hall, hone, hagree, -⟩ :=
    run_schema holds_programme hfilm hwrite
  exact ⟨entries, first, hfirst, hall, hone, hagree (by decide)⟩

/-- For the talk, one form shows no field and the other the room. -/
theorem Invocation.run_schema_talk :
    ∃ entries,
      run ⟨.schema "types.json" none, none⟩ programmeFiles = .showing none (.object entries) ∧
      run ⟨.schema "types.json" (some "talk"), none⟩ programmeFiles =
        .showing none (schemaOfFields [roomField]) ∧
      Entries.get? "talk" entries = some (schemaOfFields []) ∧
      schemaOfFields [] ≠ schemaOfFields [roomField] := by
  have hfirst : Declaration.IsFirst programmeTypes "talk"
      { id := "talk", name := "", fields := [roomField] } :=
    ⟨[], _, rfl, rfl, List.forall_mem_nil _⟩
  have hlast : Declaration.IsLast programmeTypes "talk" { id := "talk", name := "" } :=
    ⟨programmeTypes.take 2, [], rfl, rfl, List.forall_mem_nil _⟩
  refine ⟨_, run_of_answers_content (.schemas holds_programme) nofun,
    run_of_answers_content (.schema holds_programme hfirst) nofun, hlast.get?_schemas, ?_⟩
  simp [schemaOfFields, roomField, Entries.ofSettings]

end CalendarRules
