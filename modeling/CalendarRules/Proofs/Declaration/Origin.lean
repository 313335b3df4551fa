import CalendarRules.Proofs.Declaration.Lenient
import CalendarRules.Proofs.Declaration.Recurrence
import CalendarRules.Proofs.Json.Unrepeated

/-!
# Two ways to read a declaration

A declaration is read straight from its text, or from the value that the text denotes.  The two
differ in what they object to, in an array that is too long or in the name of a frequency; they
accept the same documents and make the same of them (`Declaration.read_of_origin`).  Only two
readers know where their source comes from: that of records, for the wording of a problem, and that
of frequencies, whose names may stand as the key of an object.

The value of a text is the text itself as long as no object in it repeats a key, and then the two
ways accept the same declarations (`Declaration.listOfText_eq_singleton_iff`).
-/

namespace CalendarRules

namespace Source

variable {origin origin' : Origin}

/-! ## Records -/

section Record

variable {reports : List SlotReport} {expected : String} {ending : Option Fault}

theorem checkItems_of_origin (origin' : Origin) {count index : Nat} {items : List Source}
    (h : checkItems origin expected count ending index reports items = .ok ()) :
    checkItems origin' expected count ending index reports items = .ok () := by
  induction reports generalizing index items with
  | nil =>
    cases items with
    | nil => exact h
    | cons x items => cases h
  | cons r rs ih =>
    cases items with
    | nil =>
      cases ending with
      | some fault => cases h
      | none =>
        rw [checkItems] at h ⊢
        split at h
        next => cases h
        next hr =>
          rw [if_neg hr]
          exact ih h
    | cons x items =>
      rw [checkItems] at h ⊢
      split at h
      next => cases h
      next => exact ih h

/-- A record that can be read can be read wherever it comes from. -/
theorem checkRecord_of_origin (origin' : Origin) {s : Source}
    (h : checkRecord origin expected s reports = .ok ()) :
    checkRecord origin' expected s reports = .ok () := by
  cases s with
  | object entries ending => exact h
  | array items ending => exact checkItems_of_origin origin' h
  | null | bool _ | number _ | string _ | broken _ => cases h

end Record

section Slot

variable {α : Type} {read read' : Source → Except Problem α} {a absent : α} {s : Source} {i : Nat}
  {name : String}

/-- A field that one reader has read is the same to any reader that accepts as much. -/
theorem slot_congr_of_get (hs : s.Plain)
    (hread : ∀ {x : Source} {a : α}, x.Plain → read x = .ok a → read' x = .ok a)
    (h : (s.slot i name fun x _ => read x).get = .ok a) :
    (s.slot i name fun x _ => read x) = s.slot i name fun x _ => read' x := by
  obtain ⟨x, hx, ha⟩ := exists_field_of_slot_get h
  have heq : read x.1 = read' x.1 := ha.trans (hread (hs.field? hx) ha).symm
  unfold slot
  rw [hx]
  exact congrArg (fun outcome => Slot.mk name true (some outcome)) heq

theorem optionalSlot_congr_of_getD (hs : s.Plain)
    (hread : ∀ {x : Source} {a : α}, x.Plain → read x = .ok a → read' x = .ok a)
    (h : (s.optionalSlot i name fun x _ => read x).getD absent = .ok a) :
    (s.optionalSlot i name fun x _ => read x) = s.optionalSlot i name fun x _ => read' x := by
  unfold optionalSlot Slot.getD at *
  cases hx : s.field? i name with
  | none => rfl
  | some x =>
    rw [hx] at h
    have heq : read x.1 = read' x.1 := Eq.trans h (hread (hs.field? hx) h).symm
    exact congrArg (fun outcome => Slot.mk name false (some outcome)) heq

end Slot

theorem readOption_of_reads {α : Type} {read read' : Source → Except Problem α} {x : Source}
    {a : Option α} (hread : ∀ {a : α}, read x = .ok a → read' x = .ok a)
    (h : readOption read x = .ok a) : readOption read' x = .ok a := by
  by_cases hx : x = .null
  · rw [hx] at h ⊢
    exact h
  · rw [readOption_of_ne hx] at h ⊢
    obtain ⟨b, hb, rfl⟩ := Outcome.map_eq_ok h
    rw [hread hb]
    rfl

/-! ## Names -/

section Name

variable {names : List String} {key name : String} {x : Source}

/-- The name of an object is its only key, and what stands under it is `null`. -/
theorem readName_entries_iff (ho : origin ≠ .aside) {rest : List Entry} :
    readName origin names (.object ((.ok key, x) :: rest) none) = .ok name ↔
      names.contains name = true ∧ key = name ∧ x = .null ∧ rest = [] := by
  constructor
  · intro h
    -- A second key is one too many, for a value at once and for a text at the end.
    have htext : readName .text names (.object ((.ok key, x) :: rest) none) = .ok name := by
      cases origin with
      | aside => exact absurd rfl ho
      | text => exact h
      | value =>
        cases rest with
        | nil => exact h
        | cons _ _ => cases h
    obtain ⟨known, hknown, h⟩ := Outcome.bind_eq_ok htext
    dsimp only at hknown
    split at hknown
    next hkey =>
      cases hknown
      cases x with
      | null =>
        cases rest with
        | nil =>
          cases h
          exact ⟨hkey, rfl, rfl, rfl⟩
        | cons _ _ => cases h
      | object entries ending =>
        cases entries with
        | nil => cases ending <;> cases h
        | cons _ _ => cases h
      | bool _ | number _ | string _ | array _ _ | broken _ => cases h
    next => cases hknown
  · rintro ⟨hkey, rfl, rfl, rfl⟩
    have hmem : key ∈ names := List.contains_iff_mem.1 hkey
    simp [readName, hmem]

theorem readName_object_iff (ho : origin ≠ .aside) {es : Entries} :
    readName origin names (ofJson (.object es)) = .ok name ↔
      names.contains name = true ∧ es = [(name, .null)] := by
  rw [ofJson]
  cases es with
  | nil =>
    rw [ofEntries]
    refine iff_of_false ?_ (by simp)
    cases origin <;> intro h <;> cases h
  | cons entry rest =>
    have hnull : ofJson entry.2 = .null ↔ entry.2 = .null := by
      cases entry.2 <;> simp [ofJson]
    have hnil : ofEntries rest = [] ↔ rest = [] := by
      cases rest <;> simp [ofEntries]
    rw [ofEntries, readName_entries_iff ho, hnull, hnil]
    simp [Prod.ext_iff, and_assoc]

/-- A name stands alone, or as the only key of an object whose value is `null`. -/
theorem readName_ofJson_iff (ho : origin ≠ .aside) {j : Json} :
    readName origin names (ofJson j) = .ok name ↔
      names.contains name = true ∧ (j = .string name ∨ j = .object [(name, .null)]) := by
  cases j with
  | string s =>
    rw [ofJson]
    simp only [readName]
    constructor
    · intro h
      split at h
      next hs =>
        cases h
        exact ⟨hs, .inl rfl⟩
      next => cases h
    · rintro ⟨hname, h | h⟩
      · cases h
        exact if_pos hname
      · cases h
  | object es =>
    rw [readName_object_iff ho]
    simp
  | null | bool _ | number _ | array _ =>
    rw [ofJson]
    refine iff_of_false ?_ (by simp)
    cases origin <;> intro h <;> cases h

end Name

end Source

open Source

theorem Frequency.read_of_origin {origin origin' : Origin} (ho : origin ≠ .aside)
    (ho' : origin' ≠ .aside) {s : Source} {f : Frequency} (hs : s.Plain)
    (h : read origin s = .ok f) : read origin' s = .ok f := by
  obtain ⟨j, -, rfl⟩ := hs
  obtain ⟨name, hname, h⟩ := Outcome.bind_eq_ok h
  rw [read, (readName_ofJson_iff ho').2 ((readName_ofJson_iff ho).1 hname)]
  exact h

theorem Recurrence.read_of_origin {origin origin' : Origin} (ho : origin ≠ .aside)
    (ho' : origin' ≠ .aside) {s : Source} {r : Recurrence} (hs : s.Plain)
    (h : read origin s = .ok r) : read origin' s = .ok r := by
  have hslot := slot_congr_of_get hs (Frequency.read_of_origin ho ho')
    (fieldsRead_of_read h).frequency
  obtain ⟨_, hcheck, h⟩ := Outcome.bind_eq_ok h
  unfold read
  simp only [← hslot, checkRecord_of_origin origin' hcheck, Outcome.ok_bind]
  exact h

namespace Declaration

/-- A declaration that can be read from a text can be read from its value, and the other way
round. -/
theorem read_of_origin {origin origin' : Origin} (ho : origin ≠ .aside) (ho' : origin' ≠ .aside)
    {s : Source} {d : Declaration} (hs : s.Plain) (h : read origin s = .ok d) :
    read origin' s = .ok d := by
  have hslot := optionalSlot_congr_of_getD hs
    (fun hx => readOption_of_reads (Recurrence.read_of_origin ho ho' hx))
    (fieldsRead_of_read h).recurring
  obtain ⟨_, hcheck, h⟩ := Outcome.bind_eq_ok h
  unfold read
  simp only [← hslot, checkRecord_of_origin origin' hcheck, Outcome.ok_bind]
  exact h

/-- Of a text that is an object and repeats no key, both ways to read it make the same
declarations. -/
theorem listOfText_eq_singleton_iff {text : String} {es : Entries}
    (h : Json.ofText text = .ok (.object es))
    (hd : (Document.ofText text).root.KeysDistinct) (d : Declaration) :
    listOfText text = .ok [d] ↔ ofText text = .ok d := by
  have hplain := plain_ofJson (Json.wellFormed_of_ofText h)
  have hlist : listOfText text = .ok [d] ↔ read .value (ofJson (.object es)) = .ok d := by
    rw [listOfText_eq h]
    exact Outcome.bind_ok_eq_ok_iff List.singleton_injective
  have htext : ofText text = .ok d ↔ read .text (ofJson (.object es)) = .ok d := by
    rw [ofText, Document.eq_of_ofText h hd]
    exact Outcome.bind_ok_eq_ok_iff Function.injective_id
  rw [hlist, htext]
  constructor
  · exact read_of_origin (by decide) (by decide) hplain
  · exact read_of_origin (by decide) (by decide) hplain

/-- A weekly visit as it may stand in a text: its recurrence is an array, the frequency in it is an
object, and there is a key that no field has. -/
def weeklyEntries : Entries :=
  [("color", .null),
    ("recurring", .array [.object [("weekly", .null)], .number (.int 4 (by decide)), .null,
      .number (.int 6 (by decide)),
      .array [.number (.int 1 (by decide)), .number (.int 3 (by decide))]]),
    ("type", .string "visit")]

/-- The declaration that is read from it. -/
def weeklyVisit : Declaration where
  id := "visit"
  name := ""
  recurring := some
    { frequency := .weekly, interval := 4, count := some 6, daysOfWeek := some [1, 3] }

theorem listOfText_eq_singleton_iff_weekly :
    Json.ofText (Json.object weeklyEntries).text = .ok (.object weeklyEntries) ∧
      (Document.ofText (Json.object weeklyEntries).text).root.KeysDistinct ∧
      listOfText (Json.object weeklyEntries).text = .ok [weeklyVisit] ∧
      ofText (Json.object weeklyEntries).text = .ok weeklyVisit := by
  have hw : (Json.object weeklyEntries).WellFormed := by
    simp [weeklyEntries, Json.WellFormed, Json.WellFormedItems, Json.WellFormedEntries]
  have hl : (Json.object weeklyEntries).depth ≤ maxDepth := by
    simp [weeklyEntries, Json.depth, Json.depthOfItems, Json.depthOfEntries, maxDepth]
  have hn : (Json.object weeklyEntries).DoublesReadBack := by
    have hd : (Json.object weeklyEntries).doubles = [] := rfl
    intro x hx
    rw [hd] at hx
    cases hx
  have htext := Json.ofText_text hw hl hn
  have hd : (Document.ofText (Json.object weeklyEntries).text).root.KeysDistinct := by
    rw [Document.ofText_text hl hn]
    simp [weeklyEntries, ofJson, ofItems, ofEntries, KeysDistinct, KeysDistinctItems,
      KeysDistinctEntries, names, Except.toOption]
  have hlist : listOfText (Json.object weeklyEntries).text = .ok [weeklyVisit] := by
    rw [listOfText, htext]
    show listOfJson (.object weeklyEntries) = .ok [weeklyVisit]
    cbv
  exact ⟨htext, hd, hlist, (listOfText_eq_singleton_iff htext hd weeklyVisit).1 hlist⟩

end Declaration
end CalendarRules
