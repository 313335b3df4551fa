import CalendarRules.Proofs.Declaration.Constraint
import CalendarRules.Proofs.Declaration.Display
import CalendarRules.Proofs.Declaration.FieldType
import CalendarRules.Proofs.Declaration.Record
import CalendarRules.Proofs.Declaration.Recurrence
import CalendarRules.Proofs.Declaration.Rule
import CalendarRules.Proofs.Json.Compact
import CalendarRules.Proofs.Json.Nesting
import Mathlib.Data.List.Permutation

/-!
# Declarations are read back

A declaration that was read from a text, alone or in a list, is written as a text from which it is
read back (`Declaration.ofText_text_of_listOfText`).  The lists of a declaration are written even
when they are empty, which may nest it one level deeper than the text that it came from; the limit
on nesting leaves room for that.
-/

namespace CalendarRules

open Source

namespace Declaration

/-- The entries of a declaration. -/
def entries (d : Declaration) : Entries :=
  [("type", .string d.id), ("name", .string d.name)] ++
    Entries.optional "description" (d.description.map .string) ++
    [("fields", .array (d.fields.map FieldDefinition.json)),
      ("validate", .array (d.rules.map Rule.json)),
      ("display", .array (d.display.map DisplayRule.json)),
      ("behavior", .array (d.behavior.map BehaviorRule.json)),
      ("constraints", .array (d.constraints.map Constraint.json))] ++
    Entries.optional "recurring" (d.recurring.map Recurrence.json)

theorem json_eq (d : Declaration) : d.json = .object d.entries := rfl

theorem keys_entries_sublist (d : Declaration) :
    (Entries.keys d.entries).Sublist ["type", "name", "description", "fields", "validate",
      "display", "behavior", "constraints", "recurring"] := by
  have hoptional := Entries.keys_optional_sublist
  simp only [entries, Entries.keys_append]
  exact (((List.Sublist.refl ["type", "name"]).append (hoptional _ _)).append
    (List.Sublist.refl ["fields", "validate", "display", "behavior", "constraints"])).append
      (hoptional _ _)

theorem get?_entries (d : Declaration) :
    Entries.get? "description" d.entries = d.description.map .string ∧
      Entries.get? "recurring" d.entries = d.recurring.map Recurrence.json := by
  simp [entries, Entries.get?_append, Entries.get?_optional, Entries.get?]

theorem mem_entries (d : Declaration) :
    ("fields", .array (d.fields.map FieldDefinition.json)) ∈ d.entries ∧
      ("validate", .array (d.rules.map Rule.json)) ∈ d.entries ∧
      ("display", .array (d.display.map DisplayRule.json)) ∈ d.entries ∧
      ("behavior", .array (d.behavior.map BehaviorRule.json)) ∈ d.entries ∧
      ("constraints", .array (d.constraints.map Constraint.json)) ∈ d.entries := by
  simp [entries]

/-- A list of entries of a declaration is restored, also when it was left out. -/
theorem restored_entries {α : Type} {read : Origin → Source → Except Problem α} {write : α → Json}
    {s : Source} {as : List α} {i : Nat} {name : String} (hs : s.Plain)
    (hr : RestoresBelow s.depth read write)
    (h : (s.optionalSlot i name fun x _ => readEntries read x).getD [] = .ok as) :
    Restored (readEntries read) (.array (as.map write)) as (max s.depth 2) := by
  rcases hr.each.optionalSlot hs .value h .value with rfl | hlist
  · refine (restored_readEach (n := 1) Nat.one_pos (List.forall_mem_nil _)).mono ?_
    exact Nat.le_max_right _ _
  · exact hlist.mono (Nat.le_max_left _ _)

theorem restored_of_read {origin : Origin} {s : Source} {d : Declaration} (hs : s.Plain)
    (h : read origin s = .ok d) (origin' : Origin) :
    Restored (read origin') d.json d (max s.depth 2 + 1) := by
  have h := fieldsRead_of_read h
  have hmax : s.depth ≤ max s.depth 2 := Nat.le_max_left _ _
  have hid := ((restores_readString _).slot hs origin h.id origin').mono hmax
  have hname : Restored readString (.string d.name) d.name (max s.depth 2) := by
    rcases (restores_readString _).optionalSlot hs origin h.name origin' with hempty | hname
    · exact ⟨Json.wellFormed_string _, Nat.zero_lt_of_lt hid.depth_lt, by rw [ofJson]; rfl⟩
    · exact hname.mono hmax
  have hdescription := (restores_readString _).option hs origin h.description origin'
  have hrecurring := (Recurrence.restores _).option hs origin h.recurring origin'
  have hfields := restored_entries hs (FieldDefinition.restores _) h.fields
  have hrules := restored_entries hs (Rule.restores _) h.rules
  have hdisplay := restored_entries hs (DisplayRule.restores _) h.display
  have hbehavior := restored_entries hs (BehaviorRule.restores _) h.behavior
  have hconstraints := restored_entries hs (Constraint.restores _) h.constraints
  have hdescription := fun a ha => (hdescription a ha).mono hmax
  have hrecurring := fun a ha => (hrecurring a ha).mono hmax
  rw [json_eq]
  obtain ⟨hgetDescription, hgetRecurring⟩ := d.get?_entries
  obtain ⟨hmemFields, hmemRules, hmemDisplay, hmemBehavior, hmemConstraints⟩ := d.mem_entries
  have hkeys := d.keys_entries_sublist
  refine restored_object (Nat.zero_lt_of_lt hid.depth_lt) (hkeys.nodup (by decide)) ?_ fun hn => ?_
  · simp only [entries, List.forall_mem_append]
    refine ⟨⟨⟨?_, fits_optional hdescription "description"⟩, ?_⟩,
      fits_optional hrecurring "recurring"⟩
    · exact List.forall_mem_cons.2 ⟨hid.fits, List.forall_mem_singleton.2 hname.fits⟩
    · exact List.forall_mem_cons.2 ⟨hfields.fits, List.forall_mem_cons.2 ⟨hrules.fits,
        List.forall_mem_cons.2 ⟨hdisplay.fits, List.forall_mem_cons.2 ⟨hbehavior.fits,
          List.forall_mem_singleton.2 hconstraints.fits⟩⟩⟩⟩
  · exact read_object hn {
      id := hid.slot_get hn (.head _) 0
      name := hname.optionalSlot_getD hn (.tail _ (.head _)) 1 ""
      description := optionalSlot_option_object hgetDescription hdescription (by simp) 2
      fields := hfields.optionalSlot_getD hn hmemFields 3 []
      rules := hrules.optionalSlot_getD hn hmemRules 4 []
      display := hdisplay.optionalSlot_getD hn hmemDisplay 5 []
      behavior := hbehavior.optionalSlot_getD hn hmemBehavior 6 []
      constraints := hconstraints.optionalSlot_getD hn hmemConstraints 7 []
      recurring := optionalSlot_option_object hgetRecurring hrecurring
        (fun r _ => by rw [Recurrence.json_eq]; simp) 8 }

/-- A declaration of a text was read from a source of a document, no deeper than a text can be. -/
theorem exists_of_listOfText {text : String} {ds : List Declaration}
    (h : listOfText text = .ok ds) {d : Declaration} (hd : d ∈ ds) :
    ∃ s : Source, s.Plain ∧ s.depth ≤ maxDepth ∧ read .value s = .ok d := by
  unfold listOfText at h
  split at h
  next => cases h
  next j hj =>
    have hw := Json.wellFormed_of_ofText hj
    have hdepth := Json.depth_le_of_ofText hj
    unfold listOfJson at h
    split at h
    next items =>
      obtain ⟨x, hx, hread⟩ := exists_of_readList h hd
      refine ⟨ofJson x, plain_ofJson (Json.wellFormed_array.1 hw x hx), ?_, hread⟩
      have := Json.depth_lt_of_mem hx
      rw [depth_ofJson]
      omega
    next =>
      obtain ⟨a, ha, h⟩ := Outcome.bind_eq_ok h
      cases h
      rw [List.mem_singleton.1 hd]
      exact ⟨ofJson j, plain_ofJson hw, by rw [depth_ofJson]; exact hdepth, ha⟩

/-- Declarations are read from the text of a document as from the document itself, given that it can
be read back. -/
theorem listOfText_text {j : Json} (hw : j.WellFormed) (hl : j.depth ≤ maxDepth)
    (hn : j.DoublesReadBack) : listOfText j.text = listOfJson j := by
  rw [listOfText, Json.ofText_text hw hl hn]

/-- A declaration that was read from a text, alone or in a list, is read back from the text that is
written for it, given that every double in it is. -/
theorem ofText_text_of_listOfText {text : String} {ds : List Declaration} {d : Declaration}
    (h : listOfText text = .ok ds) (hd : d ∈ ds) (hn : d.json.DoublesReadBack) :
    ofText d.json.text = .ok d := by
  obtain ⟨s, hs, hdepth, hread⟩ := exists_of_listOfText h hd
  have hr := restored_of_read hs hread .text
  have hdeep : d.json.depth ≤ maxDepth := by
    have hlt := hr.depth_lt
    have hmax : max s.depth 2 ≤ maxDepth := Nat.max_le.2 ⟨hdepth, by decide⟩
    omega
  rw [ofText, Document.ofText_text hdeep hn, Document.read, hr.reads]
  rfl

/-- A declaration as it may stand in a text: its rules and its constraint are arrays, the kind of
one rule is unknown, and its name is left out. -/
def visitJson (lead : Finite64) : Json :=
  .object [("type", .string "visit"),
    ("validate", .array [.array [.string "Conflict"], .object [("type", .string "Odd")]]),
    ("constraints", .array [.array [.string "lead",
      .array [.number (.float lead), .string "hours"]]])]

/-- The declaration that is read from it. -/
def visit (lead : Finite64) : Declaration where
  id := "visit"
  name := ""
  rules := [.conflict, .unknown]
  constraints := [⟨"lead", .duration ⟨lead, "hours"⟩⟩]

theorem listOfJson_visitJson (lead : Finite64) :
    listOfJson (visitJson lead) = .ok [visit lead] := by
  cbv

theorem doubles_visit (lead : Finite64) :
    (visitJson lead).doubles = [lead] ∧ (visit lead).json.doubles = [lead] := by
  constructor <;> rfl

theorem ofText_text_visit :
    listOfText (visitJson .one).text = .ok [visit .one] ∧ visit .one ∈ [visit .one] ∧
      (visit .one).json.DoublesReadBack ∧ ofText (visit .one).json.text = .ok (visit .one) := by
  have hj : (visitJson .one).DoublesReadBack := by
    intro x hx
    rw [(doubles_visit .one).1, List.mem_singleton] at hx
    exact hx ▸ readsBack_one
  have hd : (visit .one).json.DoublesReadBack := by
    intro x hx
    rw [(doubles_visit .one).2, List.mem_singleton] at hx
    exact hx ▸ readsBack_one
  have hw : (visitJson .one).WellFormed := by
    simp [visitJson, Json.WellFormed, Json.WellFormedItems, Json.WellFormedEntries]
  have hl : (visitJson .one).depth ≤ maxDepth := by
    simp [visitJson, Json.depth, Json.depthOfItems, Json.depthOfEntries, maxDepth]
  have hlist : listOfText (visitJson .one).text = .ok [visit .one] := by
    rw [listOfText_text hw hl hj]
    exact listOfJson_visitJson .one
  exact ⟨hlist, List.mem_cons_self, hd, ofText_text_of_listOfText hlist List.mem_cons_self hd⟩

end Declaration
end CalendarRules
