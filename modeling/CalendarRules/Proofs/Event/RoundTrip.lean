import CalendarRules.Event
import CalendarRules.Proofs.Declaration.Recurrence
import CalendarRules.Proofs.Json.Compact
import CalendarRules.Proofs.Json.Kept

/-!
# Events are read back

An event that was read from a text is written as a text from which it is read back
(`Event.ofText_text_of_ofText`).

An event is read straight from its text, which may hold broken parts where no reader looks and may
repeat keys that no field has.  None of that is in the event, and the two halves of the proof meet
at what is: whatever source it comes from, an event is `Writable`, and a writable event is read back
from what is written for it.  Two of its parts are documents of any shape, the payload and the other
keys of the metadata.  They were nested no deeper than the text, and they are written as deep as
they were, so that the limit on nesting holds again.
-/

namespace CalendarRules

open Source

/-! ## Metadata -/

namespace EventMetadata

/-- The entries of a record of metadata. -/
def entries (m : EventMetadata) : Entries :=
  Entries.optional "createdAt" (m.createdAt.map Instant.json) ++
    Entries.optional "updatedAt" (m.updatedAt.map Instant.json) ++ m.other

theorem json_eq (m : EventMetadata) : m.json = .object m.entries := rfl

/-- What metadata are to be written and read back: the other keys are no field's. -/
structure Writable (m : EventMetadata) : Prop where
  wellFormed : (Json.object m.other).WellFormed
  createdAt_notMem : "createdAt" ∉ Entries.keys m.other
  updatedAt_notMem : "updatedAt" ∉ Entries.keys m.other

theorem writable_of_read {s : Source} {m : EventMetadata} (h : read s = .ok m) :
    m.Writable ∧ (Json.object m.other).depth ≤ s.reach := by
  obtain ⟨other, hother, h⟩ := Outcome.bind_eq_ok h
  obtain ⟨createdAt, -, h⟩ := Outcome.bind_eq_ok h
  obtain ⟨updatedAt, -, h⟩ := Outcome.bind_eq_ok h
  cases h
  obtain ⟨hw, hdepth, hnames⟩ := object_of_readOpenRecord hother
  exact ⟨⟨hw, hnames _ (.head _), hnames _ (.tail _ (.head _))⟩, hdepth⟩

section Restored

variable {m : EventMetadata} (h : m.Writable)

include h

theorem get?_entries : Entries.get? "createdAt" m.entries = m.createdAt.map Instant.json ∧
    Entries.get? "updatedAt" m.entries = m.updatedAt.map Instant.json := by
  simp [entries, Entries.get?_append, Entries.get?_optional,
    Entries.get?_eq_none h.createdAt_notMem, Entries.get?_eq_none h.updatedAt_notMem]

theorem nodup_keys_entries : (Entries.keys m.entries).Nodup := by
  have hfields : (Entries.keys (Entries.optional "createdAt" (m.createdAt.map Instant.json) ++
      Entries.optional "updatedAt" (m.updatedAt.map Instant.json))).Sublist
        ["createdAt", "updatedAt"] := by
    rw [Entries.keys_append]
    exact (Entries.keys_optional_sublist _ _).append (Entries.keys_optional_sublist _ _)
  rw [entries, Entries.keys_append]
  refine List.nodup_append.2 ⟨hfields.nodup (by decide), (Json.wellFormed_object.1 h.wellFormed).1,
    ?_⟩
  rintro key hkey _ hother rfl
  rcases List.mem_pair.1 (hfields.subset hkey) with rfl | rfl
  · exact h.createdAt_notMem hother
  · exact h.updatedAt_notMem hother

/-- The other entries are those under the names of no field. -/
theorem filter_entries :
    m.entries.filter (fun e => !(["createdAt", "updatedAt"].contains e.1)) = m.other := by
  have hoptional : ∀ {key : String} (value : Option Json), key ∈ ["createdAt", "updatedAt"] →
      (Entries.optional key value).filter
        (fun e => !(["createdAt", "updatedAt"].contains e.1)) = [] := by
    intro key value hkey
    refine List.filter_eq_nil_iff.2 fun e he => ?_
    have hmem : e.1 ∈ ["createdAt", "updatedAt"] := by
      have hname := (Entries.keys_optional_sublist key value).subset (List.mem_map_of_mem he)
      rw [List.mem_singleton.1 hname]
      exact hkey
    rw [List.contains_iff_mem.2 hmem]
    exact Bool.false_ne_true
  have hother : m.other.filter (fun e => !(["createdAt", "updatedAt"].contains e.1)) = m.other := by
    refine List.filter_eq_self.2 fun e he => ?_
    rw [Bool.not_eq_true', ← Bool.not_eq_true, List.contains_iff_mem, List.mem_pair, not_or]
    have hkey : e.1 ∈ Entries.keys m.other := List.mem_map_of_mem he
    exact ⟨fun heq => h.createdAt_notMem (heq ▸ hkey), fun heq => h.updatedAt_notMem (heq ▸ hkey)⟩
  rw [entries, List.filter_append, List.filter_append, hoptional _ (.head _),
    hoptional _ (.tail _ (.head _)), hother]
  rfl

theorem restored {n : Nat} (hn : (Json.object m.other).depth ≤ n) :
    Restored read m.json m (n + 1) := by
  have hpos : 0 < n := by
    rw [Json.depth] at hn
    omega
  have hcreated : ∀ t, m.createdAt = some t → Restored Instant.read t.json t n :=
    fun t _ => t.restored hpos
  have hupdated : ∀ t, m.updatedAt = some t → Restored Instant.read t.json t n :=
    fun t _ => t.restored hpos
  have hfits : ∀ e ∈ m.entries, e.2.WellFormed ∧ e.2.depth < n := by
    simp only [entries, List.forall_mem_append]
    refine ⟨⟨fits_optional hcreated "createdAt", fits_optional hupdated "updatedAt"⟩, ?_⟩
    intro e he
    exact ⟨(Json.wellFormed_object.1 h.wellFormed).2 e he,
      Nat.lt_of_lt_of_le (Json.depth_lt_of_mem_entries he) hn⟩
  have hw : (Json.object m.entries).WellFormed :=
    Json.wellFormed_object.2 ⟨nodup_keys_entries h, fun e he => (hfits e he).1⟩
  rw [json_eq]
  refine restored_object hpos (nodup_keys_entries h) hfits fun _ => ?_
  obtain ⟨hgetCreated, hgetUpdated⟩ := get?_entries h
  have hcreatedAt := optionalSlot_option_object hgetCreated hcreated (by simp [Instant.json]) 0
  have hupdatedAt := optionalSlot_option_object hgetUpdated hupdated (by simp [Instant.json]) 1
  have hother := readOpenRecord_object "struct EventMetadata" hw <|
    (settled_optionalSlot hcreatedAt).cons <| (settled_optionalSlot hupdatedAt).cons <|
      List.forall_mem_nil _
  unfold read
  simp only [hother, hcreatedAt, hupdatedAt, Outcome.ok_bind]
  exact congrArg (fun other => Except.ok (EventMetadata.mk m.createdAt m.updatedAt other))
    (filter_entries h)

end Restored
end EventMetadata

namespace Event

/-! ## Fields -/

/-- The entries of an event. -/
def entries (e : Event) : Entries :=
  [("id", .string e.id), ("type", .string e.type)] ++
    Entries.optional "title" (e.title.map .string) ++
    [("startTime", e.start.json), ("endTime", e.finish.json)] ++
    Entries.optional "color" (e.color.map .string) ++
    Entries.optional "icon" (e.icon.map .string) ++
    Entries.optional "extra" (if e.extra.isEmpty then none else some (.object e.extra)) ++
    Entries.optional "timeZone" (e.timeZone.map .string) ++
    Entries.optional "allDay" (e.allDay.map .bool) ++
    Entries.optional "recurring" (e.recurring.map Recurrence.json) ++
    Entries.optional "parentEventId" (e.parentEventId.map .string) ++
    Entries.optional "recurrenceId" (e.recurrenceId.map .string) ++
    Entries.optional "metadata" (e.metadata.map EventMetadata.json)

theorem json_eq (e : Event) : e.json = .object e.entries := rfl

theorem keys_entries_sublist (e : Event) :
    (Entries.keys e.entries).Sublist ["id", "type", "title", "startTime", "endTime", "color",
      "icon", "extra", "timeZone", "allDay", "recurring", "parentEventId", "recurrenceId",
      "metadata"] := by
  have hoptional := Entries.keys_optional_sublist
  simp only [entries, Entries.keys_append]
  exact (((((((((((List.Sublist.refl ["id", "type"]).append (hoptional _ _)).append
    (List.Sublist.refl ["startTime", "endTime"])).append (hoptional _ _)).append
      (hoptional _ _)).append (hoptional _ _)).append (hoptional _ _)).append
        (hoptional _ _)).append (hoptional _ _)).append (hoptional _ _)).append
          (hoptional _ _)).append (hoptional _ _)

theorem get?_entries (e : Event) :
    Entries.get? "id" e.entries = some (.string e.id) ∧
      Entries.get? "type" e.entries = some (.string e.type) ∧
      Entries.get? "title" e.entries = e.title.map .string ∧
      Entries.get? "startTime" e.entries = some e.start.json ∧
      Entries.get? "endTime" e.entries = some e.finish.json ∧
      Entries.get? "color" e.entries = e.color.map .string ∧
      Entries.get? "icon" e.entries = e.icon.map .string ∧
      Entries.get? "extra" e.entries =
        (if e.extra.isEmpty then none else some (.object e.extra)) ∧
      Entries.get? "timeZone" e.entries = e.timeZone.map .string ∧
      Entries.get? "allDay" e.entries = e.allDay.map .bool ∧
      Entries.get? "recurring" e.entries = e.recurring.map Recurrence.json ∧
      Entries.get? "parentEventId" e.entries = e.parentEventId.map .string ∧
      Entries.get? "recurrenceId" e.entries = e.recurrenceId.map .string ∧
      Entries.get? "metadata" e.entries = e.metadata.map EventMetadata.json := by
  simp [entries, Entries.get?_append, Entries.get?_optional, Entries.get?]

/-- The fields of a record give the values of an event. -/
structure FieldsRead (s : Source) (e : Event) : Prop where
  id : (s.slot 0 "id" fun x _ => x.readString).get = .ok e.id
  type : (s.slot 1 "type" fun x _ => x.readString).get = .ok e.type
  title : (s.optionalSlot 2 "title" fun x _ => readOption readString x).getD none = .ok e.title
  start : (s.slot 3 "startTime" fun x _ => Instant.read x).get = .ok e.start
  finish : (s.slot 4 "endTime" fun x _ => Instant.read x).get = .ok e.finish
  color : (s.optionalSlot 5 "color" fun x _ => readOption readString x).getD none = .ok e.color
  icon : (s.optionalSlot 6 "icon" fun x _ => readOption readString x).getD none = .ok e.icon
  extra : (s.optionalSlot 7 "extra" fun x _ => x.readEntries).getD [] = .ok e.extra
  timeZone : (s.optionalSlot 8 "timeZone" fun x _ => readOption readString x).getD none =
    .ok e.timeZone
  allDay : (s.optionalSlot 9 "allDay" fun x _ => readOption readBool x).getD none = .ok e.allDay
  recurring : (s.optionalSlot 10 "recurring" fun x _ =>
    readOption (Recurrence.read .text) x).getD none = .ok e.recurring
  parentEventId : (s.optionalSlot 11 "parentEventId" fun x _ =>
    readOption readString x).getD none = .ok e.parentEventId
  recurrenceId : (s.optionalSlot 12 "recurrenceId" fun x _ =>
    readOption readString x).getD none = .ok e.recurrenceId
  metadata : (s.optionalSlot 13 "metadata" fun x _ =>
    readOption EventMetadata.read x).getD none = .ok e.metadata

theorem fieldsRead_of_read {s : Source} {e : Event} (h : read s = .ok e) : FieldsRead s e := by
  obtain ⟨-, -, h⟩ := Outcome.bind_eq_ok h
  obtain ⟨id, hid, h⟩ := Outcome.bind_eq_ok h
  obtain ⟨type, htype, h⟩ := Outcome.bind_eq_ok h
  obtain ⟨title, htitle, h⟩ := Outcome.bind_eq_ok h
  obtain ⟨start, hstart, h⟩ := Outcome.bind_eq_ok h
  obtain ⟨finish, hfinish, h⟩ := Outcome.bind_eq_ok h
  obtain ⟨color, hcolor, h⟩ := Outcome.bind_eq_ok h
  obtain ⟨icon, hicon, h⟩ := Outcome.bind_eq_ok h
  obtain ⟨extra, hextra, h⟩ := Outcome.bind_eq_ok h
  obtain ⟨timeZone, htimeZone, h⟩ := Outcome.bind_eq_ok h
  obtain ⟨allDay, hallDay, h⟩ := Outcome.bind_eq_ok h
  obtain ⟨recurring, hrecurring, h⟩ := Outcome.bind_eq_ok h
  obtain ⟨parentEventId, hparent, h⟩ := Outcome.bind_eq_ok h
  obtain ⟨recurrenceId, hrecurrence, h⟩ := Outcome.bind_eq_ok h
  obtain ⟨metadata, hmetadata, h⟩ := Outcome.bind_eq_ok h
  cases h
  exact ⟨hid, htype, htitle, hstart, hfinish, hcolor, hicon, hextra, htimeZone, hallDay,
    hrecurring, hparent, hrecurrence, hmetadata⟩

theorem read_object {es : Entries} {e : Event} (hn : (Entries.keys es).Nodup)
    (h : FieldsRead (ofJson (.object es)) e) : read (ofJson (.object es)) = .ok e := by
  have hcheck := checkRecord_object .text "struct Event" hn <|
    (settled_slot h.id).cons <| (settled_slot h.type).cons <|
    (settled_optionalSlot h.title).cons <| (settled_slot h.start).cons <|
    (settled_slot h.finish).cons <| (settled_optionalSlot h.color).cons <|
    (settled_optionalSlot h.icon).cons <| (settled_optionalSlot h.extra).cons <|
    (settled_optionalSlot h.timeZone).cons <| (settled_optionalSlot h.allDay).cons <|
    (settled_optionalSlot h.recurring).cons <| (settled_optionalSlot h.parentEventId).cons <|
    (settled_optionalSlot h.recurrenceId).cons <| (settled_optionalSlot h.metadata).cons <|
    List.forall_mem_nil _
  unfold read
  simp only [h.id, h.type, h.title, h.start, h.finish, h.color, h.icon, h.extra, h.timeZone,
    h.allDay, h.recurring, h.parentEventId, h.recurrenceId, h.metadata, hcheck, Outcome.ok_bind]
  rfl

/-! ## What is written is read back -/

/-- What an event is to be written and read back. -/
structure Writable (e : Event) : Prop where
  extra : (Json.object e.extra).WellFormed ∧ (Json.object e.extra).depth < maxDepth
  recurring : ∀ r, e.recurring = some r → r.InRange
  metadata : ∀ m, e.metadata = some m → m.Writable ∧ (Json.object m.other).depth < maxDepth

/-- Whatever may be read is writable, if readers get no deeper than into a text. -/
theorem writable_of_read {s : Source} {e : Event} (hs : s.reach ≤ maxDepth)
    (h : read s = .ok e) : e.Writable := by
  have h := fieldsRead_of_read h
  constructor
  · rcases exists_field_of_optionalSlot_getD h.extra with hempty | ⟨x, hx, hread⟩
    · rw [hempty]
      refine ⟨Json.wellFormed_object.2 ⟨List.nodup_nil, List.forall_mem_nil _⟩, ?_⟩
      rw [Json.depth, Json.depthOfEntries]
      decide
    · have hjson := json_of_readEntries hread
      exact ⟨wellFormed_of_json hjson, calc
        _ ≤ x.1.reach := depth_le_reach_of_json hjson
        _ < s.reach := reach_lt_of_field? hx
        _ ≤ maxDepth := hs⟩
  · intro r hr
    obtain ⟨x, -, -, hread⟩ := exists_field_of_optionalSlot_option h.recurring hr
    exact Recurrence.inRange_of_read hread
  · intro m hm
    obtain ⟨x, hx, -, hread⟩ := exists_field_of_optionalSlot_option h.metadata hm
    obtain ⟨hwritable, hdepth⟩ := EventMetadata.writable_of_read hread
    exact ⟨hwritable, calc
      _ ≤ x.1.reach := hdepth
      _ < s.reach := reach_lt_of_field? hx
      _ ≤ maxDepth := hs⟩

theorem restored {e : Event} (h : e.Writable) : Restored read e.json e (maxDepth + 1) := by
  have hpos : 0 < maxDepth := by decide
  have hstring : ∀ v : Option String, ∀ text, v = some text →
      Restored readString (.string text) text maxDepth := fun _ text _ => restored_string text hpos
  have hbool : ∀ b, e.allDay = some b → Restored readBool (.bool b) b maxDepth :=
    fun b _ => restored_bool b hpos
  have hrecurring : ∀ r, e.recurring = some r →
      Restored (Recurrence.read .text) r.json r maxDepth := fun r hr =>
    (Recurrence.restored (h.recurring r hr) .text (n := 2) (by decide) fun _ => by decide).mono
      (by decide)
  have hmetadata : ∀ m, e.metadata = some m →
      Restored EventMetadata.read m.json m maxDepth := fun m hm =>
    EventMetadata.restored (h.metadata m hm).1 (Nat.le_of_lt_succ (h.metadata m hm).2)
  have hextra := restored_readEntries h.extra.1 h.extra.2
  obtain ⟨hgetId, hgetType, hgetTitle, hgetStart, hgetFinish, hgetColor, hgetIcon, hgetExtra,
    hgetZone, hgetAllDay, hgetRecurring, hgetParent, hgetRecurrence, hgetMetadata⟩ :=
      e.get?_entries
  have hkeys := e.keys_entries_sublist
  rw [json_eq]
  refine restored_object hpos (hkeys.nodup (by decide)) ?_ fun hn => ?_
  · simp only [entries, List.forall_mem_append]
    refine ⟨⟨⟨⟨⟨⟨⟨⟨⟨⟨⟨?_, fits_optional (hstring _) "title"⟩, ?_⟩,
      fits_optional (hstring _) "color"⟩, fits_optional (hstring _) "icon"⟩,
      fits_nonempty (fun _ => hextra) "extra"⟩, fits_optional (hstring _) "timeZone"⟩,
      fits_optional hbool "allDay"⟩, fits_optional hrecurring "recurring"⟩,
      fits_optional (hstring _) "parentEventId"⟩, fits_optional (hstring _) "recurrenceId"⟩,
      fits_optional hmetadata "metadata"⟩
    · exact List.forall_mem_cons.2 ⟨(restored_string e.id hpos).fits,
        List.forall_mem_singleton.2 (restored_string e.type hpos).fits⟩
    · exact List.forall_mem_cons.2 ⟨(e.start.restored hpos).fits,
        List.forall_mem_singleton.2 (e.finish.restored hpos).fits⟩
  · exact read_object hn {
      id := slot_get_object hgetId (restored_string e.id hpos).reads 0
      type := slot_get_object hgetType (restored_string e.type hpos).reads 1
      title := optionalSlot_option_object hgetTitle (hstring _) (by simp) 2
      start := slot_get_object hgetStart (e.start.restored hpos).reads 3
      finish := slot_get_object hgetFinish (e.finish.restored hpos).reads 4
      color := optionalSlot_option_object hgetColor (hstring _) (by simp) 5
      icon := optionalSlot_option_object hgetIcon (hstring _) (by simp) 6
      extra := optionalSlot_nonempty_object hgetExtra (fun _ => hextra) 7
      timeZone := optionalSlot_option_object hgetZone (hstring _) (by simp) 8
      allDay := optionalSlot_option_object hgetAllDay hbool (by simp) 9
      recurring := optionalSlot_option_object hgetRecurring hrecurring
        (fun r _ => by rw [Recurrence.json_eq]; simp) 10
      parentEventId := optionalSlot_option_object hgetParent (hstring _) (by simp) 11
      recurrenceId := optionalSlot_option_object hgetRecurrence (hstring _) (by simp) 12
      metadata := optionalSlot_option_object hgetMetadata hmetadata
        (fun m _ => by rw [EventMetadata.json_eq]; simp) 13 }

theorem Writable.ofText_text {e : Event} (h : e.Writable) (hn : e.json.DoublesReadBack) :
    ofText e.json.text = .ok e := by
  have hr := restored h
  have hdeep : e.json.depth ≤ maxDepth := Nat.le_of_lt_succ hr.depth_lt
  rw [ofText, Document.ofText_text hdeep hn, Document.read, hr.reads]
  rfl

/-- An event that was read from a text is read back from the text that is written for it, given that
every double in it is. -/
theorem ofText_text_of_ofText {text : String} {e : Event} (h : ofText text = .ok e)
    (hn : e.json.DoublesReadBack) : ofText e.json.text = .ok e := by
  have hread : read (Document.ofText text).root = .ok e := by
    unfold ofText Document.read at h
    obtain ⟨a, ha, h⟩ := Outcome.bind_eq_ok h
    split at h
    · cases h
    · exact ha.trans h
  exact (writable_of_read (Document.reach_root_le text) hread).ofText_text hn

/-- An event as it may stand in a text: it starts in a leap second and finishes in a year of five
digits, both written in the relaxed form, its payload is empty, and its metadata have a key of their
own with a double in it. -/
def launchJson : Json :=
  .object [("id", .string "launch"), ("type", .string "visit"), ("title", .null),
    ("startTime", .string "2016-12-31 23:59:60.5 +00:00"),
    ("endTime", .string "+12345-01-01T00:00:00Z"), ("extra", .object []),
    ("metadata", .object [("source", .object [("weight", .number (.float .one))]),
      ("updatedAt", .null)]),
    ("recurring", .object [("frequency", .string "daily"), ("daysOfWeek", .array [])]),
    ("notes", .array [])]

/-- The event that is read from it. -/
def launch : Event where
  id := "launch"
  type := "visit"
  start := ⟨17166, 86399, 1500000000, by decide⟩
  finish := ⟨3789391, 0, 0, by decide⟩
  recurring := some { frequency := .daily, daysOfWeek := some [] }
  metadata := some ⟨none, none, [("source", .object [("weight", .number (.float .one))])]⟩

theorem ofRelaxed_launch :
    Instant.ofRelaxed "2016-12-31 23:59:60.5 +00:00" = .ok launch.start ∧
      Instant.ofRelaxed "+12345-01-01T00:00:00Z" = .ok launch.finish := by
  decide +kernel

theorem read_launchJson : read (ofJson launchJson) = .ok launch :=
  read_object (by decide) {
    id := rfl
    type := rfl
    title := rfl
    start := slot_get_object rfl (by rw [ofJson, Instant.read, ofRelaxed_launch.1]) 3
    finish := slot_get_object rfl (by rw [ofJson, Instant.read, ofRelaxed_launch.2]) 4
    color := rfl
    icon := rfl
    extra := rfl
    timeZone := rfl
    allDay := rfl
    recurring := rfl
    parentEventId := rfl
    recurrenceId := rfl
    metadata := rfl }

theorem ofText_text_launch :
    ofText launchJson.text = .ok launch ∧ launch.json.DoublesReadBack ∧
      ofText launch.json.text = .ok launch := by
  have hdoubles : launchJson.DoublesReadBack ∧ launch.json.DoublesReadBack :=
    ⟨List.forall_mem_singleton.2 readsBack_one, List.forall_mem_singleton.2 readsBack_one⟩
  have hdepth : launchJson.depth ≤ maxDepth := by
    simp [launchJson, Json.depth, Json.depthOfItems, Json.depthOfEntries, maxDepth]
  have htext : ofText launchJson.text = .ok launch := by
    rw [ofText, Document.ofText_text hdepth hdoubles.1, Document.read, read_launchJson]
    rfl
  exact ⟨htext, hdoubles.2, ofText_text_of_ofText htext hdoubles.2⟩

end Event
end CalendarRules
