import CalendarRules.Proofs.Json.Restored

/-!
# Records with a value replaced

A reader of records sees of an object its keys and what comes of reading the values of its fields;
of an array it sees the number of items and the same.  So a value may be replaced by any other that
reads alike, and the record reads alike, down to the problem that comes first.

A variant record may have the name of its variant anywhere among its keys; the rest of it is read as
a record of that variant.
-/

namespace CalendarRules

theorem Entries.keys_insert_of_mem {key : String} {es : Entries} (h : key ∈ keys es)
    (value : Json) : keys (insert key value es) = keys es := by
  rw [keys_insert, if_pos h]

theorem Json.wellFormed_of_insert {key : String} {es : Entries} {value : Json}
    (hw : (Json.object (Entries.insert key value es)).WellFormed) : value.WellFormed := by
  have hvalue : Entries.get? key (Entries.insert key value es) = some value := by
    rw [Entries.get?_insert, if_pos rfl]
  exact wellFormed_of_get? hw hvalue

namespace Source

/-! ## What a record reader sees -/

section Record

variable {reports : List SlotReport}

/-- Going through a record depends on the keys alone: no value of another key stands in the way. -/
theorem checkEntries_congr {es es' : Entries} (h : Entries.keys es = Entries.keys es')
    (seen : List String) : checkEntries skip reports none seen (ofEntries es) =
      checkEntries skip reports none seen (ofEntries es') := by
  induction es generalizing es' seen with
  | nil =>
    cases es' with
    | nil => rfl
    | cons e' es' => cases h
  | cons e es ih =>
    cases es' with
    | nil => cases h
    | cons e' es' =>
      obtain ⟨key, x⟩ := e
      obtain ⟨key', x'⟩ := e'
      obtain ⟨rfl, hrest⟩ := List.cons.inj h
      rw [ofEntries, ofEntries, checkEntries, checkEntries, skip_ofJson, skip_ofJson]
      simp only [ih hrest]

theorem checkRecord_object_congr (origin : Origin) (expected : String) {es es' : Entries}
    (h : Entries.keys es = Entries.keys es') :
    checkRecord origin expected (ofJson (.object es)) reports =
      checkRecord origin expected (ofJson (.object es')) reports := by
  rw [ofJson, ofJson, checkRecord, checkRecord]
  exact checkEntries_congr h []

/-- Going through a record written as an array depends on the number of items alone. -/
theorem checkItems_congr {origin : Origin} {expected : String} {count index : Nat}
    {ending : Option Fault} {items items' : List Source} (h : items.length = items'.length) :
    checkItems origin expected count ending index reports items =
      checkItems origin expected count ending index reports items' := by
  induction reports generalizing index items items' with
  | nil =>
    cases items with
    | nil => rw [List.eq_nil_of_length_eq_zero h.symm]
    | cons x items =>
      cases items' with
      | nil => cases h
      | cons x' items' => simp only [checkItems, List.isEmpty_cons, h]
  | cons r rs ih =>
    cases items with
    | nil => rw [List.eq_nil_of_length_eq_zero h.symm]
    | cons x items =>
      cases items' with
      | nil => cases h
      | cons x' items' => rw [checkItems, checkItems, ih (Nat.succ.inj h)]

theorem checkRecord_array_congr (origin : Origin) (expected : String) {xs xs' : List Json}
    (h : xs.length = xs'.length) :
    checkRecord origin expected (ofJson (.array xs)) reports =
      checkRecord origin expected (ofJson (.array xs')) reports := by
  rw [ofJson, ofJson, checkRecord, checkRecord, ofItems_eq_map, ofItems_eq_map]
  exact checkItems_congr (by rw [List.length_map, List.length_map, h])

end Record

section Slot

variable {α : Type} {read : Source → Except Problem α} {name key : String} {i : Nat}
  {es es' : Entries}

/-- What stands in two objects under a name reads alike. -/
def ReadAlike (read : Source → Except Problem α) (name : String) (es es' : Entries) : Prop :=
  (Entries.get? name es).map (fun j => read (ofJson j)) =
    (Entries.get? name es').map fun j => read (ofJson j)

theorem readAlike_of_get?_eq (h : Entries.get? name es = Entries.get? name es') :
    ReadAlike read name es es' := congrArg (Option.map _) h

/-- What a field reads is unchanged where a value is replaced by one that reads alike. -/
theorem readAlike_insert {value value' : Json} (hvalue : Entries.get? key es = some value)
    (hread : key = name → read (ofJson value) = read (ofJson value')) :
    ReadAlike read name es (Entries.insert key value' es) := by
  rw [ReadAlike, Entries.get?_insert]
  by_cases hkey : key = name
  · rw [if_pos hkey, ← hkey, hvalue, Option.map_some, Option.map_some, hread hkey]
  · rw [if_neg hkey]

/-- A field is the same in two objects if what stands under its name reads alike. -/
theorem slot_object_congr (h : ReadAlike read name es es') :
    ((ofJson (.object es)).slot i name fun x _ => read x) =
      (ofJson (.object es')).slot i name fun x _ => read x := by
  have hout := outcome_slot_object read es i name
  rw [h, ← outcome_slot_object read es' i name] at hout
  exact congrArg (Slot.mk name true) hout

theorem optionalSlot_object_congr (h : ReadAlike read name es es') :
    ((ofJson (.object es)).optionalSlot i name fun x _ => read x) =
      (ofJson (.object es')).optionalSlot i name fun x _ => read x := by
  have hout := outcome_optionalSlot_object read es i name
  rw [h, ← outcome_optionalSlot_object read es' i name] at hout
  exact congrArg (Slot.mk name false) hout

theorem outcome_slot_array (read : Source → Except Problem α) (xs : List Json) (i : Nat)
    (name : String) :
    ((ofJson (.array xs)).slot i name fun x _ => read x).outcome =
      xs[i]?.map fun j => read (ofJson j) := by
  have h := congrArg (Option.map read) (field?_array xs i name)
  rw [Option.map_map, Option.map_map] at h
  exact h

/-- A field is the same in two arrays if what stands at its position reads alike. -/
theorem slot_array_congr {xs xs' : List Json}
    (h : xs[i]?.map (fun j => read (ofJson j)) = xs'[i]?.map fun j => read (ofJson j)) :
    ((ofJson (.array xs)).slot i name fun x _ => read x) =
      (ofJson (.array xs')).slot i name fun x _ => read x := by
  have hout := outcome_slot_array read xs i name
  rw [h, ← outcome_slot_array read xs' i name] at hout
  exact congrArg (Slot.mk name true) hout

end Slot

/-! ## Variant records -/

section Tagged

variable {origin : Origin} {variants : Variants} {name key : String} {es : Entries}
  {variant : Option String}

theorem get?_bodyEntries (h : key ≠ "type") (es : Entries) :
    Entries.get? key (bodyEntries es) = Entries.get? key es := by
  induction es with
  | nil => rfl
  | cons e es ih =>
    obtain ⟨k, x⟩ := e
    rw [bodyEntries, List.filter_cons]
    by_cases hk : k = "type"
    · have hkey : k ≠ key := fun heq => h (heq.symm.trans hk)
      rw [if_neg (by simp [hk]), Entries.get?_cons, if_neg hkey]
      exact ih
    · rw [if_pos (by simp [hk]), Entries.get?_cons, Entries.get?_cons]
      exact congrArg (fun found => if k = key then some x else found) ih

theorem readAlike_bodyEntries {α : Type} {read : Source → Except Problem α} {es es' : Entries}
    (h : key ≠ "type") (hread : ReadAlike read key es es') :
    ReadAlike read key (bodyEntries es) (bodyEntries es') := by
  rw [ReadAlike, get?_bodyEntries h, get?_bodyEntries h]
  exact hread

theorem keys_bodyEntries_congr {es es' : Entries} (h : Entries.keys es = Entries.keys es') :
    Entries.keys (bodyEntries es) = Entries.keys (bodyEntries es') := by
  have hkeys : ∀ es : Entries,
      Entries.keys (bodyEntries es) = (Entries.keys es).filter fun key => !(key == "type") := by
    intro es
    rw [Entries.keys, Entries.keys, bodyEntries, List.filter_map]
    rfl
  rw [hkeys, hkeys, h]

/-- The name of a variant is found wherever it stands. -/
theorem findVariant_of_get? (hn : (Entries.keys es).Nodup) (hw : ∀ e ∈ es, e.2.WellFormed)
    (h : Entries.get? "type" es = some (.string name))
    (hv : readVariant origin variants (.string name) = .ok variant) :
    findVariant origin variants none none (ofEntries es) = .ok variant := by
  induction es with
  | nil => cases h
  | cons e es ih =>
    obtain ⟨key, x⟩ := e
    rw [Entries.keys_cons, List.nodup_cons] at hn
    rw [List.forall_mem_cons] at hw
    rw [Entries.get?_cons] at h
    rw [ofEntries, findVariant]
    by_cases hkey : key = "type"
    · rw [if_pos hkey] at h
      cases h
      rw [if_pos hkey, ofJson]
      simp only [hv]
      exact findVariant_ofEntries hw.2 (hkey ▸ hn.1) variant
    · rw [if_neg hkey] at h
      rw [if_neg hkey, setAside_ofJson hw.1]
      exact ih hn.2 hw.2 h

/-- A variant record is split into its variant and its other entries. -/
theorem readTagged_of_get? (expected : String) (hw : (Json.object es).WellFormed)
    (h : Entries.get? "type" es = some (.string name))
    (hv : readVariant origin variants (.string name) = .ok variant) :
    ∃ hle, readTagged origin expected variants (ofJson (.object es)) =
      .ok ⟨variant, ofJson (.object (bodyEntries es)), hle⟩ := by
  have hbody := filter_isBodyEntry_ofEntries es
  obtain ⟨hn, hw⟩ := Json.wellFormed_object.1 hw
  rw [ofJson, ofJson]
  refine ⟨?_, ?_⟩
  · rw [← hbody, depth_object, depth_object]
    exact Nat.succ_le_succ (depthOfEntries_filter_le isBodyEntry _)
  · simp only [readTagged, findVariant_of_get? hn hw h hv, Outcome.ok_bind, hbody]
    rfl

end Tagged

end Source
end CalendarRules
