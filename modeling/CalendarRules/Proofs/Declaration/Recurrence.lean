import CalendarRules.Proofs.Json.Restored
import CalendarRules.Proofs.Time.Timestamp
import CalendarRules.Recurrence

/-!
# Recurrences are read back

Most fields of a recurrence may be left out.  An absent one is not written, apart from the interval,
and an empty list of excluded instants is not written either; both come back as the absent value
that they stand for.
-/

namespace CalendarRules

open Source

namespace Instant

theorem restored (t : Instant) {n : Nat} (hn : 0 < n) : Restored read t.json t n := by
  refine ⟨Json.wellFormed_string _, hn, ?_⟩
  rw [json, ofJson, read, ofRelaxed_timestamp]

end Instant

namespace Frequency

theorem restored (f : Frequency) (origin : Origin) {n : Nat} (hn : 0 < n) :
    Restored (read origin) (.string f.name) f n := by
  refine ⟨Json.wellFormed_string _, hn, ?_⟩
  rw [ofJson]
  cases f <;> rfl

end Frequency

theorem ofInt_ne_null {i : Int} (h : SignedRange i) : Json.ofInt i ≠ .null := by
  rw [Json.ofInt, dif_pos h.1]
  intro hnull
  cases hnull

namespace Recurrence

/-- The entries of a recurrence. -/
def entries (r : Recurrence) : Entries :=
  [("frequency", .string r.frequency.name), ("interval", .ofInt r.interval)] ++
    Entries.optional "endDate" (r.endDate.map Instant.json) ++
    Entries.optional "count" (r.count.map .ofInt) ++
    Entries.optional "daysOfWeek" (r.daysOfWeek.map fun days => .array (days.map .ofInt)) ++
    Entries.optional "dayOfMonth" (r.dayOfMonth.map .ofInt) ++
    Entries.optional "excludeDates"
      (if r.excludeDates.isEmpty then none else some (.array (r.excludeDates.map Instant.json))) ++
    Entries.optional "timeZone" (r.timeZone.map .string)

theorem json_eq (r : Recurrence) : r.json = .object r.entries := rfl

theorem keys_entries_sublist (r : Recurrence) :
    (Entries.keys r.entries).Sublist ["frequency", "interval", "endDate", "count", "daysOfWeek",
      "dayOfMonth", "excludeDates", "timeZone"] := by
  have hoptional := Entries.keys_optional_sublist
  simp only [entries, Entries.keys_append]
  exact ((((((List.Sublist.refl ["frequency", "interval"]).append (hoptional _ _)).append
    (hoptional _ _)).append (hoptional _ _)).append (hoptional _ _)).append (hoptional _ _)).append
      (hoptional _ _)

theorem get?_entries (r : Recurrence) :
    Entries.get? "endDate" r.entries = r.endDate.map Instant.json ∧
      Entries.get? "count" r.entries = r.count.map .ofInt ∧
      Entries.get? "daysOfWeek" r.entries =
        (r.daysOfWeek.map fun days => .array (days.map .ofInt)) ∧
      Entries.get? "dayOfMonth" r.entries = r.dayOfMonth.map .ofInt ∧
      Entries.get? "excludeDates" r.entries =
        (if r.excludeDates.isEmpty then none
          else some (.array (r.excludeDates.map Instant.json))) ∧
      Entries.get? "timeZone" r.entries = r.timeZone.map .string := by
  simp [entries, Entries.get?_append, Entries.get?_optional, Entries.get?]

/-! ## Fields -/

section Fields

variable {origin : Origin} {r : Recurrence}

/-- The fields of a record give the values of a recurrence. -/
structure FieldsRead (origin : Origin) (s : Source) (r : Recurrence) : Prop where
  frequency : (s.slot 0 "frequency" fun x _ => Frequency.read origin x).get = .ok r.frequency
  interval : (s.optionalSlot 1 "interval" fun x _ => x.readInteger).getD 1 = .ok r.interval
  endDate : (s.optionalSlot 2 "endDate" fun x _ => readOption Instant.read x).getD none =
    .ok r.endDate
  count : (s.optionalSlot 3 "count" fun x _ => readOption readInteger x).getD none = .ok r.count
  daysOfWeek : (s.optionalSlot 4 "daysOfWeek" fun x _ =>
    readOption (readList readInteger) x).getD none = .ok r.daysOfWeek
  dayOfMonth : (s.optionalSlot 5 "dayOfMonth" fun x _ => readOption readInteger x).getD none =
    .ok r.dayOfMonth
  excludeDates : (s.optionalSlot 6 "excludeDates" fun x _ => readList Instant.read x).getD [] =
    .ok r.excludeDates
  timeZone : (s.optionalSlot 7 "timeZone" fun x _ => readOption readString x).getD none =
    .ok r.timeZone

theorem fieldsRead_of_read {s : Source} (h : read origin s = .ok r) : FieldsRead origin s r := by
  obtain ⟨-, -, h⟩ := Outcome.bind_eq_ok h
  obtain ⟨frequency, hfrequency, h⟩ := Outcome.bind_eq_ok h
  obtain ⟨interval, hinterval, h⟩ := Outcome.bind_eq_ok h
  obtain ⟨endDate, hendDate, h⟩ := Outcome.bind_eq_ok h
  obtain ⟨count, hcount, h⟩ := Outcome.bind_eq_ok h
  obtain ⟨daysOfWeek, hdaysOfWeek, h⟩ := Outcome.bind_eq_ok h
  obtain ⟨dayOfMonth, hdayOfMonth, h⟩ := Outcome.bind_eq_ok h
  obtain ⟨excludeDates, hexcludeDates, h⟩ := Outcome.bind_eq_ok h
  obtain ⟨timeZone, htimeZone, h⟩ := Outcome.bind_eq_ok h
  cases h
  exact ⟨hfrequency, hinterval, hendDate, hcount, hdaysOfWeek, hdayOfMonth, hexcludeDates,
    htimeZone⟩

theorem read_object {es : Entries} (hn : (Entries.keys es).Nodup)
    (h : FieldsRead origin (ofJson (.object es)) r) :
    read origin (ofJson (.object es)) = .ok r := by
  have hcheck := checkRecord_object origin "struct RecurrenceTemplate" hn <|
    (settled_slot h.frequency).cons <| (settled_optionalSlot h.interval).cons <|
    (settled_optionalSlot h.endDate).cons <| (settled_optionalSlot h.count).cons <|
    (settled_optionalSlot h.daysOfWeek).cons <| (settled_optionalSlot h.dayOfMonth).cons <|
    (settled_optionalSlot h.excludeDates).cons <| (settled_optionalSlot h.timeZone).cons <|
    List.forall_mem_nil _
  unfold read
  simp only [h.frequency, h.interval, h.endDate, h.count, h.daysOfWeek, h.dayOfMonth,
    h.excludeDates, h.timeZone, hcheck, Outcome.ok_bind]
  rfl

end Fields

/-! ## What is written is read back -/

/-- The integers of a recurrence are such as can be read. -/
structure InRange (r : Recurrence) : Prop where
  interval : SignedRange r.interval
  count : ∀ i, r.count = some i → SignedRange i
  daysOfWeek : ∀ days, r.daysOfWeek = some days → ∀ i ∈ days, SignedRange i
  dayOfMonth : ∀ i, r.dayOfMonth = some i → SignedRange i

theorem inRange_of_read {origin : Origin} {s : Source} {r : Recurrence}
    (h : read origin s = .ok r) : r.InRange := by
  have h := fieldsRead_of_read h
  constructor
  · rcases exists_field_of_optionalSlot_getD h.interval with hdefault | ⟨x, -, hread⟩
    · rw [hdefault]
      exact ⟨by decide, by decide⟩
    · exact signedRange_of_readInteger hread
  · intro i hi
    obtain ⟨x, -, -, hread⟩ := exists_field_of_optionalSlot_option h.count hi
    exact signedRange_of_readInteger hread
  · intro days hdays i hi
    obtain ⟨x, -, -, hread⟩ := exists_field_of_optionalSlot_option h.daysOfWeek hdays
    obtain ⟨items, ending, -, hitems⟩ := exists_array_of_readList hread
    obtain ⟨y, -, hy⟩ := hitems i hi
    exact signedRange_of_readInteger hy
  · intro i hi
    obtain ⟨x, -, -, hread⟩ := exists_field_of_optionalSlot_option h.dayOfMonth hi
    exact signedRange_of_readInteger hread

/-- A list is written for a recurrence. -/
def HoldsList (r : Recurrence) : Prop := r.daysOfWeek ≠ none ∨ r.excludeDates ≠ []

theorem restored {r : Recurrence} (hr : r.InRange) (origin : Origin) {n : Nat} (hpos : 0 < n)
    (hlist : r.HoldsList → 1 < n) : Restored (read origin) r.json r (n + 1) := by
  have hfrequency := r.frequency.restored origin hpos
  have hinterval := restored_ofInt hr.interval hpos
  have hendDate : ∀ t, r.endDate = some t → Restored Instant.read t.json t n :=
    fun t _ => t.restored hpos
  have hcount : ∀ i, r.count = some i → Restored readInteger (.ofInt i) i n :=
    fun i hi => restored_ofInt (hr.count i hi) hpos
  have hdaysOfWeek : ∀ days, r.daysOfWeek = some days →
      Restored (readList readInteger) (.array (days.map .ofInt)) days n := by
    intro days hdays
    have hone : 1 < n := hlist (.inl (by rw [hdays]; exact Option.some_ne_none days))
    exact (restored_readList Nat.one_pos fun i hi =>
      restored_ofInt (hr.daysOfWeek days hdays i hi) Nat.one_pos).mono hone
  have hdayOfMonth : ∀ i, r.dayOfMonth = some i → Restored readInteger (.ofInt i) i n :=
    fun i hi => restored_ofInt (hr.dayOfMonth i hi) hpos
  have hexcludeDates : r.excludeDates ≠ [] → Restored (readList Instant.read)
      (.array (r.excludeDates.map Instant.json)) r.excludeDates n :=
    fun hne => (restored_readList Nat.one_pos fun t _ => t.restored Nat.one_pos).mono
      (hlist (.inr hne))
  have htimeZone : ∀ name, r.timeZone = some name → Restored readString (.string name) name n :=
    fun name _ => restored_string name hpos
  obtain ⟨hgetEnd, hgetCount, hgetDays, hgetDay, hgetExclude, hgetZone⟩ := r.get?_entries
  have hkeys := r.keys_entries_sublist
  rw [json_eq]
  refine restored_object hpos (hkeys.nodup (by decide)) ?_ fun hn => ?_
  · simp only [entries, List.forall_mem_append]
    refine ⟨⟨⟨⟨⟨⟨?_, fits_optional hendDate "endDate"⟩, fits_optional hcount "count"⟩,
      fits_optional hdaysOfWeek "daysOfWeek"⟩, fits_optional hdayOfMonth "dayOfMonth"⟩,
      fits_nonempty hexcludeDates "excludeDates"⟩, fits_optional htimeZone "timeZone"⟩
    exact List.forall_mem_cons.2 ⟨hfrequency.fits, List.forall_mem_singleton.2 hinterval.fits⟩
  · exact read_object hn {
      frequency := hfrequency.slot_get hn (.head _) 0
      interval := hinterval.optionalSlot_getD hn (.tail _ (.head _)) 1 1
      endDate := optionalSlot_option_object hgetEnd hendDate (by simp [Instant.json]) 2
      count := optionalSlot_option_object hgetCount hcount
        (fun i hi => ofInt_ne_null (hr.count i hi)) 3
      daysOfWeek := optionalSlot_option_object hgetDays hdaysOfWeek (by simp) 4
      dayOfMonth := optionalSlot_option_object hgetDay hdayOfMonth
        (fun i hi => ofInt_ne_null (hr.dayOfMonth i hi)) 5
      excludeDates := optionalSlot_nonempty_object hgetExclude hexcludeDates 6
      timeZone := optionalSlot_option_object hgetZone htimeZone (by simp) 7 }

/-- A list that is written was read from one, and is nested no deeper than that was. -/
theorem restores (n : Nat) : RestoresBelow n read json := by
  intro s hs _ origin r h origin'
  have hfields := fieldsRead_of_read h
  obtain ⟨x, -, hlt, -⟩ := exists_of_slot_get hs hfields.frequency
  refine restored (inRange_of_read h) origin' (Nat.zero_lt_of_lt hlt) ?_
  rintro (hdays | hdates)
  · obtain ⟨days, hdays⟩ := Option.ne_none_iff_exists'.1 hdays
    obtain ⟨x, hx, hlt, -, hread⟩ := exists_of_optionalSlot_option hs hfields.daysOfWeek hdays
    exact Nat.lt_of_le_of_lt (hx.readList hread).2 hlt
  · rcases exists_of_optionalSlot_getD hs hfields.excludeDates with hnil | ⟨x, hx, hlt, hread⟩
    · exact absurd hnil hdates
    · exact Nat.lt_of_le_of_lt (hx.readList hread).2 hlt

end Recurrence
end CalendarRules
