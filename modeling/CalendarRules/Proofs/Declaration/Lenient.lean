import CalendarRules.Proofs.Declaration.Record
import CalendarRules.Proofs.Declaration.Rule
import CalendarRules.Proofs.Json.Compact
import CalendarRules.Proofs.Json.Nesting
import CalendarRules.Proofs.Json.Replaced

/-!
# Entries that cannot be read

An object is a declaration whatever stands in its lists (`Acceptable`), and the declaration keeps of
each list the entries that are read on their own, in their order (`salvage`).

So an entry that cannot be read may be put in anywhere without a change.  In the list of rules this
goes on inside: the rules under a condition are read like those of the declaration, and a rule with
a padded list inside reads like the rule it was, be it a record or an array (`Rule.Padded`).  The
induction is on how deep the entry is put in; at each level the list of rules read is the same.

A text denotes nothing if it nests too deep or holds a number too large for a double.
-/

namespace CalendarRules

open Source

section Readable

variable {α : Type}

/-- The entries of a list that are read on their own. -/
def readable (read : Origin → Source → Except Problem α) (xs : List Json) : List α :=
  xs.filterMap fun j => (read .value (ofJson j)).toOption

def Unreadable (read : Origin → Source → Except Problem α) (j : Json) : Prop :=
  ∀ a, read .value (ofJson j) ≠ .ok a

/-- One list is another with an entry put in that cannot be read. -/
inductive Padded (read : Origin → Source → Except Problem α) : List Json → List Json → Prop where
  | entry (before after : List Json) {j : Json} (h : Unreadable read j) :
    Padded read (before ++ after) (before ++ j :: after)

theorem Unreadable.toOption {read : Origin → Source → Except Problem α} {j : Json}
    (h : Unreadable read j) : (read .value (ofJson j)).toOption = none := by
  cases hj : read .value (ofJson j) with
  | error problem => rfl
  | ok a => exact absurd hj (h a)

theorem readable_insert (read : Origin → Source → Except Problem α) (before after : List Json)
    {j : Json} (h : Unreadable read j) :
    readable read (before ++ after) = readable read (before ++ j :: after) := by
  rw [readable, readable, List.filterMap_append, List.filterMap_append, List.filterMap_cons,
    h.toOption]

theorem Padded.readable_eq {read : Origin → Source → Except Problem α} {xs ys : List Json}
    (h : Padded read xs ys) : readable read xs = readable read ys := by
  obtain ⟨before, after, hj⟩ := h
  exact readable_insert read before after hj

theorem readEntries_array (read : Origin → Source → Except Problem α) {xs : List Json}
    (h : (Json.array xs).WellFormed) :
    Declaration.readEntries read (ofJson (.array xs)) = .ok (readable read xs) :=
  readLenient_array h _

end Readable

namespace Rule

/-! ## Lists of rules -/

/-- One list of rules is another with an entry put in that cannot be read, either there or in the
list of rules under a condition, at any depth. -/
inductive Padded : List Json → List Json → Prop where
  | entry (before after : List Json) {j : Json} (h : Unreadable Rule.read j) :
    Padded (before ++ after) (before ++ j :: after)
  | object (before after : List Json) {es : Entries} {xs ys : List Json}
    (ht : Entries.get? "type" es = some (.string "When"))
    (hr : Entries.get? "rules" es = some (.array xs)) (h : Padded xs ys) :
    Padded (before ++ .object es :: after)
      (before ++ .object (Entries.insert "rules" (.array ys) es) :: after)
  | array (before after : List Json) {condition : Json} {extra xs ys : List Json}
    (h : Padded xs ys) :
    Padded (before ++ .array (.string "When" :: condition :: .array xs :: extra) :: after)
      (before ++ .array (.string "When" :: condition :: .array ys :: extra) :: after)

/-- A rule under a condition is read from its keys, its condition and its list of rules. -/
theorem readKind_onlyIf_congr {s s' : Source}
    (hcheck : ∀ expected reports,
      checkRecord .aside expected s reports = checkRecord .aside expected s' reports)
    (hcondition : (s.slot 0 "condition" fun x _ => Expression.read .aside x) =
      s'.slot 0 "condition" fun x _ => Expression.read .aside x)
    (hrules : (s.slot 1 "rules" fun x _ => readEach (read .value) x) =
      s'.slot 1 "rules" fun x _ => readEach (read .value) x) :
    readKind (some "When") s = readKind (some "When") s' := by
  unfold readEach at hrules
  simp only [readKind, readOnlyIf, hcondition, hrules, hcheck]

theorem read_onlyIf_object (origin : Origin) {es : Entries} (hw : (Json.object es).WellFormed)
    (ht : Entries.get? "type" es = some (.string "When")) :
    read origin (ofJson (.object es)) =
      readKind (some "When") (ofJson (.object (bodyEntries es))) := by
  have hname : readVariant origin variants (.string "When") = .ok (some "When") :=
    readVariant_of_mem (by decide) origin
  obtain ⟨hle, htagged⟩ := readTagged_of_get? "ValidationRule" hw ht hname
  rw [read_eq_readKind, htagged, Outcome.ok_bind]

theorem read_onlyIf_array (xs : List Json) :
    read .value (ofJson (.array (.string "When" :: xs))) =
      readKind (some "When") (ofJson (.array xs)) := by
  rw [read_eq_readKind, ofJson, ofItems, ofJson, ofJson]
  rfl

section Rules

variable {xs ys : List Json} (hx : (Json.array xs).WellFormed) (hy : (Json.array ys).WellFormed)
  (h : readable Rule.read xs = readable Rule.read ys)

include hx hy h

theorem readEach_array_congr :
    readEach (read .value) (ofJson (.array xs)) = readEach (read .value) (ofJson (.array ys)) := by
  rw [readEach, readEach, readLenient_array hx, readLenient_array hy]
  exact congrArg Except.ok h

/-- A rule written as a record reads alike with a list of rules that reads alike. -/
theorem read_insert_rules {es : Entries} (hes : (Json.object es).WellFormed)
    (hes' : (Json.object (Entries.insert "rules" (.array ys) es)).WellFormed)
    (ht : Entries.get? "type" es = some (.string "When"))
    (hr : Entries.get? "rules" es = some (.array xs)) (origin : Origin) :
    read origin (ofJson (.object es)) =
      read origin (ofJson (.object (Entries.insert "rules" (.array ys) es))) := by
  have ht' : Entries.get? "type" (Entries.insert "rules" (.array ys) es) =
      some (.string "When") := by
    rw [Entries.get?_insert, if_neg (by decide), ht]
  have hkeys := Entries.keys_insert_of_mem (Entries.mem_keys (Entries.mem_of_get? hr)) (.array ys)
  rw [read_onlyIf_object origin hes ht, read_onlyIf_object origin hes' ht']
  refine readKind_onlyIf_congr ?_ (slot_object_congr ?_) (slot_object_congr ?_)
  · intro expected reports
    exact checkRecord_object_congr .aside expected (keys_bodyEntries_congr hkeys.symm)
  · exact readAlike_bodyEntries (by decide) (readAlike_insert hr fun heq => absurd heq (by decide))
  · exact readAlike_bodyEntries (by decide)
      (readAlike_insert hr fun _ => readEach_array_congr hx hy h)

/-- A rule written as an array reads alike with a list of rules that reads alike. -/
theorem read_array_rules (condition : Json) (extra : List Json) :
    read .value (ofJson (.array (.string "When" :: condition :: .array xs :: extra))) =
      read .value (ofJson (.array (.string "When" :: condition :: .array ys :: extra))) := by
  rw [read_onlyIf_array, read_onlyIf_array]
  refine readKind_onlyIf_congr ?_ (slot_array_congr rfl) (slot_array_congr ?_)
  · intro expected reports
    exact checkRecord_array_congr .aside expected rfl
  · exact congrArg some (readEach_array_congr hx hy h)

end Rules

/-- The same rules are read from a list and from what it is padded to. -/
theorem Padded.readable_eq {xs ys : List Json} (h : Padded xs ys)
    (hx : (Json.array xs).WellFormed) (hy : (Json.array ys).WellFormed) :
    readable Rule.read xs = readable Rule.read ys := by
  have hreplace : ∀ {j j' : Json} (before after : List Json),
      read .value (ofJson j) = read .value (ofJson j') →
        readable Rule.read (before ++ j :: after) = readable Rule.read (before ++ j' :: after) := by
    intro j j' before after hj
    simp only [readable, List.filterMap_append, List.filterMap_cons, hj]
  induction h with
  | entry before after hj => exact readable_insert Rule.read before after hj
  | @object before after es xs ys ht hr h ih =>
    have hes := Json.wellFormed_array.1 hx (.object es) (by simp)
    have hes' := Json.wellFormed_array.1 hy (.object (Entries.insert "rules" (.array ys) es))
      (by simp)
    have hxs := Json.wellFormed_of_get? hes hr
    have hys := Json.wellFormed_of_insert hes'
    exact hreplace before after (read_insert_rules hxs hys (ih hxs hys) hes hes' ht hr .value)
  | @array before after condition extra xs ys h ih =>
    have hrule := Json.wellFormed_array.1 hx
      (.array (.string "When" :: condition :: .array xs :: extra)) (by simp)
    have hrule' := Json.wellFormed_array.1 hy
      (.array (.string "When" :: condition :: .array ys :: extra)) (by simp)
    have hxs := Json.wellFormed_array.1 hrule (.array xs) (by simp)
    have hys := Json.wellFormed_array.1 hrule' (.array ys) (by simp)
    exact hreplace before after (read_array_rules hxs hys (ih hxs hys) condition extra)

end Rule

namespace Declaration

/-! ## Which objects are declarations -/

/-- The names of the lists of a declaration. -/
def listNames : List String := ["fields", "validate", "display", "behavior", "constraints"]

/-- What an object has to hold to be a declaration. -/
structure Acceptable (es : Entries) : Prop where
  type : ∃ id, Entries.get? "type" es = some (.string id)
  name : ∀ j, Entries.get? "name" es = some j → ∃ name, j = .string name
  description : ∀ j, Entries.get? "description" es = some j → j = .null ∨ ∃ text, j = .string text
  recurring : ∀ j, Entries.get? "recurring" es = some j →
    j = .null ∨ ∃ r, Recurrence.read .value (ofJson j) = .ok r
  lists : ∀ name ∈ listNames, ∀ j, Entries.get? name es = some j → ∃ xs, j = .array xs

/-- The entries of a list of a declaration, which may be left out. -/
def entriesUnder (name : String) (es : Entries) : List Json :=
  match Entries.get? name es with
  | some (.array xs) => xs
  | _ => []

/-- The declaration that is read of an object.  It keeps of each list the entries that are read on
their own. -/
def salvage (es : Entries) : Declaration where
  id := ((Entries.get? "type" es).bind Json.asString?).getD ""
  name := ((Entries.get? "name" es).bind Json.asString?).getD ""
  description := (Entries.get? "description" es).bind Json.asString?
  fields := readable FieldDefinition.read (entriesUnder "fields" es)
  rules := readable Rule.read (entriesUnder "validate" es)
  display := readable DisplayRule.read (entriesUnder "display" es)
  behavior := readable BehaviorRule.read (entriesUnder "behavior" es)
  constraints := readable Constraint.read (entriesUnder "constraints" es)
  recurring := (Entries.get? "recurring" es).bind fun j =>
    (Recurrence.read .value (ofJson j)).toOption

section Fields

variable {α : Type} {es : Entries} {name text : String} {i : Nat}

theorem readString_ofJson (j : Json) : (ofJson j).readString.toOption = j.asString? := by
  cases j <;> rw [ofJson] <;> rfl

theorem readString_ofJson_iff {j : Json} : (ofJson j).readString = .ok text ↔ j = .string text := by
  cases j with
  | string s => simp [ofJson, readString]
  | null | bool _ | number _ | array _ | object _ => simp [ofJson, readString]

theorem slot_string_iff :
    ((ofJson (.object es)).slot i name fun x _ => x.readString).get = .ok text ↔
      Entries.get? name es = some (.string text) := by
  rw [slot_get_object_iff]
  constructor
  · rintro ⟨j, hj, hread⟩
    rw [hj, readString_ofJson_iff.1 hread]
  · exact fun h => ⟨_, h, readString_ofJson_iff.2 rfl⟩

/-- A string is read if it is left out or is one. -/
theorem optionalSlot_string_iff :
    ((ofJson (.object es)).optionalSlot i name fun x _ => x.readString).getD "" = .ok text ↔
      (∀ j, Entries.get? name es = some j → ∃ s, j = .string s) ∧
        text = ((Entries.get? name es).bind Json.asString?).getD "" := by
  rw [optionalSlot_getD_object_iff]
  cases hj : Entries.get? name es with
  | none => simp
  | some j =>
    cases j with
    | string s => simpa [readString_ofJson_iff, Json.asString?] using eq_comm
    | null | bool _ | number _ | array _ | object _ => simp [readString_ofJson_iff]

/-- A value that may be `null` is read if it is left out, is `null` or is read as what it may be. -/
theorem optionalSlot_option_iff {read : Source → Except Problem α} {v : Option α}
    (hnull : ∀ a, read .null ≠ .ok a) :
    ((ofJson (.object es)).optionalSlot i name fun x _ => readOption read x).getD none = .ok v ↔
      (∀ j, Entries.get? name es = some j → j = .null ∨ ∃ a, read (ofJson j) = .ok a) ∧
        v = (Entries.get? name es).bind fun j => (read (ofJson j)).toOption := by
  rw [optionalSlot_getD_object_iff]
  cases hj : Entries.get? name es with
  | none => simp
  | some j =>
    by_cases hn : j = .null
    · subst hn
      cases hread : read .null with
      | ok a => exact absurd hread (hnull a)
      | error problem => simp [ofJson, readOption, hread, Except.toOption, eq_comm]
    · have hoption : readOption read (ofJson j) = (read (ofJson j)).map some :=
        readOption_of_ne (ofJson_ne_null hn)
      cases hread : read (ofJson j) with
      | ok a => simp [hoption, hread, hn, Except.toOption, Except.map, eq_comm]
      | error problem => simp [hoption, hread, hn, Except.map]

/-- A list is read if it is left out or is an array, and gives what is readable of it. -/
theorem optionalSlot_entries_iff {read : Origin → Source → Except Problem α} {as : List α}
    (hw : (Json.object es).WellFormed) :
    ((ofJson (.object es)).optionalSlot i name fun x _ => readEntries read x).getD [] = .ok as ↔
      (∀ j, Entries.get? name es = some j → ∃ xs, j = .array xs) ∧
        as = readable read (entriesUnder name es) := by
  rw [optionalSlot_getD_object_iff]
  cases hj : Entries.get? name es with
  | none => simp [entriesUnder, hj, readable]
  | some j =>
    have hwj := Json.wellFormed_of_get? hw hj
    cases j with
    | array xs =>
      rw [entriesUnder, hj]
      simp [readEntries_array read hwj, eq_comm]
    | null | bool _ | number _ | string _ | object _ => simp [readEntries, ofJson, readLenient]

end Fields

/-- An acceptable object is read, and no other is. -/
theorem read_object_iff {es : Entries} (hw : (Json.object es).WellFormed) {d : Declaration} :
    read .value (ofJson (.object es)) = .ok d ↔ Acceptable es ∧ d = salvage es := by
  have hstring : ∀ a, readString .null ≠ .ok a := fun a h => by cases h
  have hrecurrence : ∀ a, Recurrence.read .value .null ≠ .ok a := fun a h => by cases h
  constructor
  · intro h
    have h := fieldsRead_of_read h
    have hid := slot_string_iff.1 h.id
    obtain ⟨hname, hnameEq⟩ := optionalSlot_string_iff.1 h.name
    obtain ⟨hdescription, hdescriptionEq⟩ := (optionalSlot_option_iff hstring).1 h.description
    obtain ⟨hfields, hfieldsEq⟩ := (optionalSlot_entries_iff hw).1 h.fields
    obtain ⟨hrules, hrulesEq⟩ := (optionalSlot_entries_iff hw).1 h.rules
    obtain ⟨hdisplay, hdisplayEq⟩ := (optionalSlot_entries_iff hw).1 h.display
    obtain ⟨hbehavior, hbehaviorEq⟩ := (optionalSlot_entries_iff hw).1 h.behavior
    obtain ⟨hconstraints, hconstraintsEq⟩ := (optionalSlot_entries_iff hw).1 h.constraints
    obtain ⟨hrecurring, hrecurringEq⟩ := (optionalSlot_option_iff hrecurrence).1 h.recurring
    simp only [readString_ofJson, readString_ofJson_iff] at hdescription hdescriptionEq
    refine ⟨⟨⟨d.id, hid⟩, hname, hdescription, hrecurring, ?_⟩, ?_⟩
    · simp only [listNames, List.forall_mem_cons]
      exact ⟨hfields, hrules, hdisplay, hbehavior, hconstraints, List.forall_mem_nil _⟩
    · rw [salvage, hid, ← hnameEq, ← hdescriptionEq, ← hfieldsEq, ← hrulesEq, ← hdisplayEq,
        ← hbehaviorEq, ← hconstraintsEq, ← hrecurringEq]
      rfl
  · rintro ⟨h, rfl⟩
    obtain ⟨id, hid⟩ := h.type
    have hlist : ∀ {α : Type} (read : Origin → Source → Except Problem α) (i : Nat) {name : String},
        name ∈ listNames → ((ofJson (.object es)).optionalSlot i name fun x _ =>
          readEntries read x).getD [] = .ok (readable read (entriesUnder name es)) :=
      fun read i name hmem => (optionalSlot_entries_iff hw).2 ⟨h.lists name hmem, rfl⟩
    refine read_object (Json.wellFormed_object.1 hw).1 {
      id := slot_string_iff.2 (by rw [salvage, hid]; rfl)
      name := optionalSlot_string_iff.2 ⟨h.name, rfl⟩
      description := (optionalSlot_option_iff hstring).2 ?_
      fields := hlist FieldDefinition.read 3 (by decide)
      rules := hlist Rule.read 4 (by decide)
      display := hlist DisplayRule.read 5 (by decide)
      behavior := hlist BehaviorRule.read 6 (by decide)
      constraints := hlist Constraint.read 7 (by decide)
      recurring := (optionalSlot_option_iff hrecurrence).2 ⟨h.recurring, rfl⟩ }
    simp only [readString_ofJson, readString_ofJson_iff]
    exact ⟨h.description, rfl⟩

/-! ## Padded declarations -/

/-- The lists of a declaration, each with an entry put in that cannot be read. -/
inductive ListPadded : String → List Json → List Json → Prop where
  | fields {xs ys : List Json} (h : Padded FieldDefinition.read xs ys) : ListPadded "fields" xs ys
  | rules {xs ys : List Json} (h : Rule.Padded xs ys) : ListPadded "validate" xs ys
  | display {xs ys : List Json} (h : Padded DisplayRule.read xs ys) : ListPadded "display" xs ys
  | behavior {xs ys : List Json} (h : Padded BehaviorRule.read xs ys) : ListPadded "behavior" xs ys
  | constraints {xs ys : List Json} (h : Padded Constraint.read xs ys) :
    ListPadded "constraints" xs ys

section Padded

variable {name : String} {xs ys : List Json}

theorem ListPadded.mem_listNames (h : ListPadded name xs ys) : name ∈ listNames := by
  cases h <;> decide

/-- The list with the name reads alike, and all others are left alone. -/
theorem ListPadded.readable_eq (h : ListPadded name xs ys) (hx : (Json.array xs).WellFormed)
    (hy : (Json.array ys).WellFormed) :
    (name = "fields" → readable FieldDefinition.read xs = readable FieldDefinition.read ys) ∧
      (name = "validate" → readable Rule.read xs = readable Rule.read ys) ∧
      (name = "display" → readable DisplayRule.read xs = readable DisplayRule.read ys) ∧
      (name = "behavior" → readable BehaviorRule.read xs = readable BehaviorRule.read ys) ∧
      (name = "constraints" → readable Constraint.read xs = readable Constraint.read ys) := by
  cases h with
  | fields h => simp [h.readable_eq]
  | rules h => simp [h.readable_eq hx hy]
  | display h => simp [h.readable_eq]
  | behavior h => simp [h.readable_eq]
  | constraints h => simp [h.readable_eq]

/-- What is read of a declaration depends on the keys of the object and on what its values read
as. -/
theorem read_object_congr (origin : Origin) {es es' : Entries}
    (hkeys : Entries.keys es = Entries.keys es')
    (hother : ∀ key ∉ listNames, Entries.get? key es = Entries.get? key es')
    (hfields : ReadAlike (readEntries FieldDefinition.read) "fields" es es')
    (hrules : ReadAlike (readEntries Rule.read) "validate" es es')
    (hdisplay : ReadAlike (readEntries DisplayRule.read) "display" es es')
    (hbehavior : ReadAlike (readEntries BehaviorRule.read) "behavior" es es')
    (hconstraints : ReadAlike (readEntries Constraint.read) "constraints" es es') :
    read origin (ofJson (.object es)) = read origin (ofJson (.object es')) := by
  unfold read
  rw [slot_object_congr (readAlike_of_get?_eq (hother "type" (by decide))),
    optionalSlot_object_congr (readAlike_of_get?_eq (hother "name" (by decide))),
    optionalSlot_object_congr (readAlike_of_get?_eq (hother "description" (by decide))),
    optionalSlot_object_congr hfields, optionalSlot_object_congr hrules,
    optionalSlot_object_congr hdisplay, optionalSlot_object_congr hbehavior,
    optionalSlot_object_congr hconstraints,
    optionalSlot_object_congr (readAlike_of_get?_eq (hother "recurring" (by decide)))]
  simp only [checkRecord_object_congr origin _ hkeys]

theorem read_insert_list (origin : Origin) {es : Entries}
    (hxs : Entries.get? name es = some (.array xs)) (h : ListPadded name xs ys)
    (hx : (Json.array xs).WellFormed) (hy : (Json.array ys).WellFormed) :
    read origin (ofJson (.object es)) =
      read origin (ofJson (.object (Entries.insert name (.array ys) es))) := by
  obtain ⟨hfields, hrules, hdisplay, hbehavior, hconstraints⟩ := h.readable_eq hx hy
  have hkeys := Entries.keys_insert_of_mem (Entries.mem_keys (Entries.mem_of_get? hxs)) (.array ys)
  have hlist : ∀ {α : Type} {read : Origin → Source → Except Problem α} {key : String},
      (name = key → readable read xs = readable read ys) →
        ReadAlike (readEntries read) key es (Entries.insert name (.array ys) es) := by
    intro α read key hread
    refine readAlike_insert hxs fun hkey => ?_
    rw [readEntries_array read hx, readEntries_array read hy, hread hkey]
  refine read_object_congr origin hkeys.symm ?_ (hlist hfields) (hlist hrules) (hlist hdisplay)
    (hlist hbehavior) (hlist hconstraints)
  intro key hkey
  have hne : name ≠ key := fun heq => hkey (heq ▸ h.mem_listNames)
  rw [Entries.get?_insert, if_neg hne]

end Padded

/-! ## Texts -/

theorem listOfText_eq {text : String} {es : Entries} (h : Json.ofText text = .ok (.object es)) :
    listOfText text = read .value (ofJson (.object es)) >>= fun d => .ok [d] := by
  rw [listOfText, h]
  rfl

theorem listOfText_object_iff {text : String} {es : Entries}
    (h : Json.ofText text = .ok (.object es)) {ds : List Declaration} :
    listOfText text = .ok ds ↔ Acceptable es ∧ ds = [salvage es] := by
  have hread : ∀ d, read .value (ofJson (.object es)) = .ok d ↔ Acceptable es ∧ d = salvage es :=
    fun d => read_object_iff (Json.wellFormed_of_ofText h)
  rw [listOfText_eq h]
  constructor
  · intro h
    obtain ⟨d, hd, h⟩ := Outcome.bind_eq_ok h
    obtain ⟨hes, rfl⟩ := (hread d).1 hd
    cases h
    exact ⟨hes, rfl⟩
  · rintro ⟨hes, rfl⟩
    rw [(hread _).2 ⟨hes, rfl⟩, Outcome.ok_bind]

/-- A text that denotes an object is a declaration just when the object is acceptable.  Of its lists
it keeps what is read on its own, and it is the same with an entry put in that cannot be read. -/
theorem listOfText_object {text : String} {es : Entries}
    (h : Json.ofText text = .ok (.object es)) :
    ((∃ ds, listOfText text = .ok ds) ↔ Acceptable es) ∧
      (∀ ds, listOfText text = .ok ds → ds = [salvage es]) ∧
      ∀ name xs ys padded, Entries.get? name es = some (.array xs) → ListPadded name xs ys →
        Json.ofText padded = .ok (.object (Entries.insert name (.array ys) es)) →
          listOfText padded = listOfText text := by
  have hiff : ∀ ds, listOfText text = .ok ds ↔ Acceptable es ∧ ds = [salvage es] :=
    fun ds => listOfText_object_iff h
  refine ⟨⟨?_, ?_⟩, ?_, ?_⟩
  · rintro ⟨ds, hds⟩
    exact ((hiff ds).1 hds).1
  · exact fun hes => ⟨[salvage es], (hiff _).2 ⟨hes, rfl⟩⟩
  · exact fun ds hds => ((hiff ds).1 hds).2
  · intro name xs ys padded hxs hpad hpadded
    have hw := Json.wellFormed_of_ofText h
    have hw' := Json.wellFormed_of_ofText hpadded
    have hx := Json.wellFormed_of_get? hw hxs
    have hy := Json.wellFormed_of_insert hw'
    rw [listOfText_eq h, listOfText_eq hpadded, read_insert_list .value hxs hpad hx hy]

/-- A declaration with one rule, which has a list of rules under a condition. -/
def guarded (rules : List Json) : Entries :=
  [("type", .string "visit"), ("validate", .array [.object [("type", .string "When"),
    ("condition", .array [.string "FieldAccess", .array [.string "allDay"]]),
    ("rules", .array rules)]])]

theorem acceptable_guarded (rules : List Json) : Acceptable (guarded rules) where
  type := ⟨"visit", rfl⟩
  name := by simp [guarded, Entries.get?]
  description := by simp [guarded, Entries.get?]
  recurring := by simp [guarded, Entries.get?]
  lists := by simp [guarded, Entries.get?, listNames]

theorem ofText_guarded {rules : List Json} (hw : (Json.array rules).WellFormed)
    (hl : (Json.array rules).depth ≤ 2) (hd : (Json.array rules).doubles = []) :
    Json.ofText (Json.object (guarded rules)).text = .ok (.object (guarded rules)) := by
  refine Json.ofText_text ?_ ?_ ?_
  · simpa [guarded, Json.wellFormed_object, Json.wellFormed_array, Json.wellFormed_string] using hw
  · simp [guarded, Json.depth, Json.depthOfItems, Json.depthOfEntries, maxDepth] at hl ⊢
    omega
  · refine Json.doublesReadBack_of_doubles_eq_nil ?_
    simpa [guarded, Json.doubles, Json.doublesOfItems, Json.doublesOfEntries] using hd

/-- A `null` may stand behind a rule under a condition. -/
theorem listOfText_object_guarded :
    Json.ofText (Json.object (guarded [.array [.string "Conflict"]])).text =
        .ok (.object (guarded [.array [.string "Conflict"]])) ∧
      listOfText (Json.object (guarded [.array [.string "Conflict"]])).text =
        .ok [salvage (guarded [.array [.string "Conflict"]])] ∧
      listOfText (Json.object (guarded [.array [.string "Conflict"], .null])).text =
        .ok [salvage (guarded [.array [.string "Conflict"]])] := by
  have htext : Json.ofText (Json.object (guarded [.array [.string "Conflict"]])).text =
      .ok (.object (guarded [.array [.string "Conflict"]])) :=
    ofText_guarded (by simp [Json.wellFormed_array, Json.wellFormed_string])
      (by simp [Json.depth, Json.depthOfItems]) rfl
  have hpadded : Json.ofText (Json.object (guarded [.array [.string "Conflict"], .null])).text =
      .ok (.object (guarded [.array [.string "Conflict"], .null])) :=
    ofText_guarded
      (by simp [Json.wellFormed_array, Json.wellFormed_string, Json.wellFormed_null])
      (by simp [Json.depth, Json.depthOfItems]) rfl
  have hnull : Unreadable Rule.read .null := by
    intro rule h
    rw [Rule.read_eq_readKind, ofJson] at h
    cases h
  obtain ⟨hiff, hsalvage, hsame⟩ := listOfText_object htext
  obtain ⟨ds, hds⟩ := hiff.2 (acceptable_guarded _)
  obtain rfl := hsalvage ds hds
  refine ⟨htext, hds, ?_⟩
  rw [← hds]
  exact hsame "validate" _ _ _ rfl
    (.rules (.object [] [] rfl rfl (.entry [.array [.string "Conflict"]] [] hnull))) hpadded

end Declaration
end CalendarRules
