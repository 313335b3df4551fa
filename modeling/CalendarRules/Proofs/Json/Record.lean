import CalendarRules.Json.Reading
import CalendarRules.Proofs.Json.WellFormed

/-!
# Records of documents

What readers make of the source of a document, in contrast to that of a broken text: nothing in it
stands in the way, a field is found where the object has its key, and a record written as an object
can be read as soon as each of its fields can (`checkRecord_object`).

The parts of such a source are again sources of documents.  This is `Plain`, the property that is
handed down from a record to its fields and from a variant record to its body.
-/

namespace CalendarRules
namespace Source

theorem ofEntries_eq_map (es : Entries) :
    ofEntries es = es.map fun e => (Except.ok e.1, ofJson e.2) := by
  induction es with
  | nil => rw [ofEntries, List.map_nil]
  | cons e es ih => rw [ofEntries, ih, List.map_cons]

theorem ofItems_eq_map (xs : List Json) : ofItems xs = xs.map ofJson := by
  induction xs with
  | nil => rw [ofItems, List.map_nil]
  | cons x xs ih => rw [ofItems, ih, List.map_cons]

mutual

/-- Nothing in a document stops who wants to get past it. -/
theorem obstacle?_ofJson : ∀ j : Json, (ofJson j).obstacle? = none
  | .null | .bool _ | .number _ | .string _ => by
    rw [ofJson, obstacle?]
    all_goals simp
  | .array xs => by rw [ofJson, obstacle?, obstacleInItems?_ofItems xs, Option.none_or]
  | .object es => by rw [ofJson, obstacle?, obstacleInEntries?_ofEntries es, Option.none_or]

theorem obstacleInItems?_ofItems : ∀ xs : List Json, obstacleInItems? (ofItems xs) = none
  | [] => by rw [ofItems, obstacleInItems?]
  | x :: xs => by
    rw [ofItems, obstacleInItems?, obstacle?_ofJson x, obstacleInItems?_ofItems xs, Option.none_or]

theorem obstacleInEntries?_ofEntries :
    ∀ es : List (String × Json), obstacleInEntries? (ofEntries es) = none
  | [] => by rw [ofEntries, obstacleInEntries?]
  | (_, x) :: es => by
    rw [ofEntries, obstacleInEntries?, obstacle?_ofJson x, obstacleInEntries?_ofEntries es,
      Option.none_or]

end

theorem skip_ofJson (j : Json) : (ofJson j).skip = .ok () := by
  rw [skip, obstacle?_ofJson]

theorem check_ofJson {j : Json} (h : j.WellFormed) : (ofJson j).check = .ok () := by
  rw [check, json_ofJson h]

theorem setAside_ofJson {j : Json} (h : j.WellFormed) (origin : Origin) :
    (ofJson j).setAside origin = .ok () := by
  rw [setAside, check_ofJson h]
  exact ite_self _

theorem readJson_ofJson {j : Json} (h : j.WellFormed) : (ofJson j).readJson = .ok j := by
  rw [readJson, json_ofJson h]

/-! ## Plain sources -/

/-- The source of a document that repeats no key. -/
def Plain (s : Source) : Prop := ∃ j : Json, j.WellFormed ∧ s = ofJson j

theorem plain_ofJson {j : Json} (h : j.WellFormed) : (ofJson j).Plain := ⟨j, h, rfl⟩

theorem entryNamed?_ofEntries (name : String) (es : Entries) :
    (entryNamed? name (ofEntries es)).map Subtype.val = (Entries.get? name es).map ofJson := by
  induction es with
  | nil => rw [ofEntries]; rfl
  | cons e es ih =>
    obtain ⟨key, x⟩ := e
    have hkey : ((Except.ok key : Except Break String).toOption == some name) = (key == name) := rfl
    rw [ofEntries, entryNamed?, Entries.get?_cons, hkey]
    by_cases h : key = name
    · rw [if_pos h, if_pos (beq_iff_eq.2 h)]
      rfl
    · rw [if_neg h, if_neg (fun hb => h (beq_iff_eq.1 hb)), ← ih, Option.map_map]
      rfl

theorem itemAt?_ofItems (xs : List Json) (i : Nat) :
    (itemAt? (ofItems xs) i).map Subtype.val = xs[i]?.map ofJson := by
  induction xs generalizing i with
  | nil => rw [ofItems]; rfl
  | cons x xs ih =>
    rw [ofItems]
    cases i with
    | zero => rfl
    | succ i =>
      rw [itemAt?, List.getElem?_cons_succ, ← ih, Option.map_map]
      rfl

theorem field?_object (es : Entries) (i : Nat) (name : String) :
    ((ofJson (.object es)).field? i name).map Subtype.val =
      (Entries.get? name es).map ofJson := by
  rw [ofJson, field?, Option.map_map, ← entryNamed?_ofEntries]
  rfl

theorem field?_array (xs : List Json) (i : Nat) (name : String) :
    ((ofJson (.array xs)).field? i name).map Subtype.val = xs[i]?.map ofJson := by
  rw [ofJson, field?, Option.map_map, ← itemAt?_ofItems]
  rfl

namespace Plain

variable {s : Source}

theorem field? (hs : s.Plain) {i : Nat} {name : String} {x : { x : Source // x.depth < s.depth }}
    (h : s.field? i name = some x) : x.1.Plain := by
  obtain ⟨j, hj, rfl⟩ := hs
  have hx : ((ofJson j).field? i name).map Subtype.val = some x.1 := by rw [h]; rfl
  cases j with
  | array xs =>
    rw [field?_array] at hx
    obtain ⟨k, hk, heq⟩ := Option.map_eq_some_iff.1 hx
    exact ⟨k, Json.wellFormed_array.1 hj k (List.mem_of_getElem? hk), heq.symm⟩
  | object es =>
    rw [field?_object] at hx
    obtain ⟨k, hk, heq⟩ := Option.map_eq_some_iff.1 hx
    exact ⟨k, Json.wellFormed_of_get? hj hk, heq.symm⟩
  | null | bool _ | number _ | string _ =>
    exact absurd (h.symm.trans (by rw [ofJson]; rfl)) (Option.some_ne_none x)

end Plain

/-! ## Fields that have been read -/

section Read

variable {α : Type} {s : Source} {read : Source → Except Problem α} {a absent : α} {i : Nat}
  {name : String}

theorem exists_field_of_slot_get (h : (s.slot i name fun x _ => read x).get = .ok a) :
    ∃ x, s.field? i name = some x ∧ read x.1 = .ok a := by
  unfold slot Slot.get at h
  cases hx : s.field? i name with
  | none => rw [hx] at h; cases h
  | some x =>
    rw [hx] at h
    exact ⟨x, rfl, h⟩

theorem exists_field_of_optionalSlot_getD
    (h : (s.optionalSlot i name fun x _ => read x).getD absent = .ok a) :
    a = absent ∨ ∃ x, s.field? i name = some x ∧ read x.1 = .ok a := by
  unfold optionalSlot Slot.getD at h
  cases hx : s.field? i name with
  | none =>
    rw [hx] at h
    exact Or.inl (Except.ok.inj h).symm
  | some x =>
    rw [hx] at h
    exact Or.inr ⟨x, rfl, h⟩

theorem exists_of_slot_get (hs : s.Plain) (h : (s.slot i name fun x _ => read x).get = .ok a) :
    ∃ x : Source, x.Plain ∧ x.depth < s.depth ∧ read x = .ok a := by
  obtain ⟨x, hx, hread⟩ := exists_field_of_slot_get h
  exact ⟨x.1, hs.field? hx, x.2, hread⟩

theorem exists_of_optionalSlot_getD (hs : s.Plain)
    (h : (s.optionalSlot i name fun x _ => read x).getD absent = .ok a) :
    a = absent ∨ ∃ x : Source, x.Plain ∧ x.depth < s.depth ∧ read x = .ok a := by
  refine (exists_field_of_optionalSlot_getD h).imp_right ?_
  rintro ⟨x, hx, hread⟩
  exact ⟨x.1, hs.field? hx, x.2, hread⟩

end Read

/-! ## Fields of an object -/

section Object

variable {α : Type} {read : Source → Except Problem α} {a absent : α} {es : Entries} {j : Json}
  {name : String}

theorem outcome_slot_object (read : Source → Except Problem α) (es : Entries) (i : Nat)
    (name : String) :
    ((ofJson (.object es)).slot i name fun x _ => read x).outcome =
      (Entries.get? name es).map fun j => read (ofJson j) := by
  have h := congrArg (Option.map read) (field?_object es i name)
  rw [Option.map_map, Option.map_map] at h
  exact h

theorem outcome_optionalSlot_object (read : Source → Except Problem α) (es : Entries) (i : Nat)
    (name : String) :
    ((ofJson (.object es)).optionalSlot i name fun x _ => read x).outcome =
      (Entries.get? name es).map fun j => read (ofJson j) :=
  outcome_slot_object read es i name

/-- A field that has to be there is read if it is there and can be read. -/
theorem slot_get_object_iff {i : Nat} :
    ((ofJson (.object es)).slot i name fun x _ => read x).get = .ok a ↔
      ∃ j, Entries.get? name es = some j ∧ read (ofJson j) = .ok a := by
  rw [Slot.get, outcome_slot_object]
  cases Entries.get? name es with
  | none =>
    constructor
    · intro h
      cases h
    · rintro ⟨_, h, -⟩
      cases h
  | some j =>
    constructor
    · exact fun h => ⟨j, rfl, h⟩
    · rintro ⟨_, hj, h⟩
      exact Option.some.inj hj ▸ h

/-- A field that may be left out is read if it is left out or can be read. -/
theorem optionalSlot_getD_object_iff {i : Nat} :
    ((ofJson (.object es)).optionalSlot i name fun x _ => read x).getD absent = .ok a ↔
      (Entries.get? name es = none ∧ a = absent) ∨
        ∃ j, Entries.get? name es = some j ∧ read (ofJson j) = .ok a := by
  rw [Slot.getD, outcome_optionalSlot_object]
  cases Entries.get? name es with
  | none =>
    constructor
    · exact fun h => .inl ⟨rfl, (Except.ok.inj h).symm⟩
    · rintro (⟨-, rfl⟩ | ⟨_, h, -⟩)
      · rfl
      · cases h
  | some j =>
    constructor
    · exact fun h => .inr ⟨j, rfl, h⟩
    · rintro (⟨h, -⟩ | ⟨_, hj, h⟩)
      · cases h
      · exact Option.some.inj hj ▸ h

theorem slot_get_object (hj : Entries.get? name es = some j) (ha : read (ofJson j) = .ok a)
    (i : Nat) : ((ofJson (.object es)).slot i name fun x _ => read x).get = .ok a :=
  slot_get_object_iff.2 ⟨j, hj, ha⟩

theorem slot_get_object_of_none (hj : Entries.get? name es = none) (i : Nat) :
    ((ofJson (.object es)).slot i name fun x _ => read x).get =
      .error (.mismatch (.missingField name)) := by
  rw [Slot.get, outcome_slot_object, hj]
  rfl

theorem optionalSlot_getD_object (hj : Entries.get? name es = some j)
    (ha : read (ofJson j) = .ok a) (i : Nat) (absent : α) :
    ((ofJson (.object es)).optionalSlot i name fun x _ => read x).getD absent = .ok a :=
  optionalSlot_getD_object_iff.2 (.inr ⟨j, hj, ha⟩)

theorem optionalSlot_getD_object_of_none (hj : Entries.get? name es = none) (i : Nat)
    (absent : α) :
    ((ofJson (.object es)).optionalSlot i name fun x _ => read x).getD absent = .ok absent := by
  rw [Slot.getD, outcome_optionalSlot_object, hj]
  rfl

end Object

/-! ## Records written as objects -/

/-- A field that has been read if it is there, and that is there if it has to be. -/
def Settled (es : Entries) (r : SlotReport) : Prop :=
  r.problem = none ∧ (r.required = true → r.name ∈ Entries.keys es)

theorem settled_slot {α : Type} {read : Source → Except Problem α} {a : α} {es : Entries} {i : Nat}
    {name : String} (h : ((ofJson (.object es)).slot i name fun x _ => read x).get = .ok a) :
    Settled es ((ofJson (.object es)).slot i name fun x _ => read x).report := by
  have hout := outcome_slot_object read es i name
  rw [Slot.get, hout] at h
  cases hj : Entries.get? name es with
  | none => rw [hj] at h; cases h
  | some j =>
    rw [hj, Option.map_some, Option.getD_some] at h
    refine ⟨?_, fun _ => Entries.mem_keys (Entries.mem_of_get? hj)⟩
    simp only [Slot.report, hout, hj, Option.map_some, h]

theorem settled_optionalSlot {α : Type} {read : Source → Except Problem α} {a absent : α}
    {es : Entries} {i : Nat} {name : String}
    (h : ((ofJson (.object es)).optionalSlot i name fun x _ => read x).getD absent = .ok a) :
    Settled es ((ofJson (.object es)).optionalSlot i name fun x _ => read x).report := by
  have hout := outcome_optionalSlot_object read es i name
  refine ⟨?_, fun hreq => by cases hreq⟩
  rw [Slot.getD, hout] at h
  cases hj : Entries.get? name es with
  | none => simp only [Slot.report, hout, hj, Option.map_none]
  | some j =>
    rw [hj, Option.map_some, Option.getD_some] at h
    simp only [Slot.report, hout, hj, Option.map_some, h]

theorem Settled.cons {es : Entries} {r : SlotReport} {reports : List SlotReport} (h : Settled es r)
    (hs : ∀ r ∈ reports, Settled es r) : ∀ r' ∈ r :: reports, Settled es r' :=
  List.forall_mem_cons.2 ⟨h, hs⟩

/-- `seen` are the fields met so far: none of them is met again, and a field that has to be there is
among them or still to come. -/
theorem checkEntries_ofEntries {pass : Source → Except Problem Unit} {reports : List SlotReport}
    (hp : ∀ r ∈ reports, r.problem = none) {seen : List String} {es : Entries}
    (hpass : ∀ e ∈ es, pass (ofJson e.2) = .ok ())
    (hn : (Entries.keys es).Nodup) (hs : ∀ key ∈ Entries.keys es, key ∉ seen)
    (hr : ∀ r ∈ reports, r.required = true → r.name ∈ seen ∨ r.name ∈ Entries.keys es) :
    checkEntries pass reports none seen (ofEntries es) = .ok () := by
  induction es generalizing seen with
  | nil =>
    have hfind : (reports.find? fun r => r.required && !seen.contains r.name) = none := by
      rw [List.find?_eq_none]
      intro r hmem hreq
      rw [Bool.and_eq_true, Bool.not_eq_true', ← Bool.not_eq_true, List.contains_iff_mem] at hreq
      rcases hr r hmem hreq.1 with h | h
      · exact hreq.2 h
      · cases h
    rw [ofEntries, checkEntries, hfind]
  | cons e es ih =>
    obtain ⟨key, x⟩ := e
    rw [Entries.keys_cons, List.nodup_cons] at hn
    rw [List.forall_mem_cons] at hpass
    rw [ofEntries, checkEntries]
    cases hfind : reports.find? fun r => r.name == key with
    | none =>
      have hkey : ∀ r ∈ reports, r.name ≠ key := fun r hmem heq =>
        List.find?_eq_none.1 hfind r hmem (beq_iff_eq.2 heq)
      simp only [hpass.1]
      refine ih hpass.2 hn.2 (fun k hk => hs k (List.mem_cons_of_mem _ hk)) fun r hmem hreq => ?_
      refine (hr r hmem hreq).imp_right fun h => ?_
      exact (List.mem_cons.1 h).resolve_left (hkey r hmem)
    | some r =>
      have hseen : seen.contains key = false := by
        rw [← Bool.not_eq_true, List.contains_iff_mem]
        exact hs key List.mem_cons_self
      simp only [hseen, hp r (List.mem_of_find?_eq_some hfind), Bool.false_eq_true, if_false]
      refine ih hpass.2 hn.2 (fun k hk => ?_) fun r' hmem hreq => ?_
      · rw [List.mem_cons, not_or]
        refine ⟨?_, hs k (List.mem_cons_of_mem _ hk)⟩
        rintro rfl
        exact hn.1 hk
      · rcases hr r' hmem hreq with h | h
        · exact Or.inl (List.mem_cons_of_mem _ h)
        · rcases List.mem_cons.1 h with h | h
          · exact Or.inl (List.mem_cons.2 (Or.inl h))
          · exact Or.inr h

/-- A record written as an object without repeated keys can be read once all its fields can. -/
theorem checkRecord_object (origin : Origin) (expected : String) {es : Entries}
    {reports : List SlotReport} (hn : (Entries.keys es).Nodup)
    (hr : ∀ r ∈ reports, Settled es r) :
    checkRecord origin expected (ofJson (.object es)) reports = .ok () := by
  rw [ofJson, checkRecord]
  exact checkEntries_ofEntries (fun r h => (hr r h).1) (fun e _ => skip_ofJson e.2) hn
    (fun _ _ => List.not_mem_nil) fun r h hreq => Or.inr ((hr r h).2 hreq)

/-! ## Variant records -/

/-- The entries of a variant record without the one that names the variant. -/
def bodyEntries (es : Entries) : Entries := es.filter fun e => !(e.1 == "type")

theorem filter_isBodyEntry_ofEntries (es : Entries) :
    (ofEntries es).filter isBodyEntry = ofEntries (bodyEntries es) := by
  rw [ofEntries_eq_map, ofEntries_eq_map, List.filter_map]
  rfl

theorem bodyEntries_eq_self {es : Entries} (h : "type" ∉ Entries.keys es) :
    bodyEntries es = es := by
  rw [bodyEntries, List.filter_eq_self]
  intro e he
  rw [Bool.not_eq_true', beq_eq_false_iff_ne]
  rintro heq
  exact h (heq ▸ Entries.mem_keys he)

theorem wellFormed_bodyEntries {es : Entries} (h : (Json.object es).WellFormed) :
    (Json.object (bodyEntries es)).WellFormed := by
  obtain ⟨hn, hw⟩ := Json.wellFormed_object.1 h
  refine Json.wellFormed_object.2 ⟨?_, fun e he => hw e ((List.mem_filter.1 he).1)⟩
  exact hn.sublist (List.filter_sublist.map Prod.fst)

theorem findVariant_ofEntries {origin : Origin} {variants : Variants} {es : Entries}
    (hw : ∀ e ∈ es, e.2.WellFormed) (h : "type" ∉ Entries.keys es) (variant : Option String) :
    findVariant origin variants none (some variant) (ofEntries es) = .ok variant := by
  induction es with
  | nil => rw [ofEntries, findVariant]
  | cons e es ih =>
    obtain ⟨key, x⟩ := e
    rw [Entries.keys_cons, List.mem_cons, not_or] at h
    rw [List.forall_mem_cons] at hw
    rw [ofEntries, findVariant, if_neg (Ne.symm h.1), setAside_ofJson hw.1]
    exact ih hw.2 h.2

theorem readVariant_of_mem {variants : Variants} {name : String} (h : name ∈ variants.names)
    (origin : Origin) : readVariant origin variants (.string name) = .ok (some name) := by
  rw [readVariant, if_pos (List.contains_iff_mem.2 h)]

/-- A variant record is split into the variant that its name stands for and its other entries. -/
theorem readTagged_object (origin : Origin) (expected : String) {variants : Variants}
    {name : String} {es : Entries} {variant : Option String}
    (hw : (Json.object es).WellFormed) (h : "type" ∉ Entries.keys es)
    (hv : readVariant origin variants (.string name) = .ok variant) :
    ∃ hle, readTagged origin expected variants (ofJson (.object (("type", .string name) :: es))) =
      .ok ⟨variant, ofJson (.object es), hle⟩ := by
  have hbody : (ofEntries (("type", .string name) :: es)).filter isBodyEntry = ofEntries es := by
    rw [filter_isBodyEntry_ofEntries]
    exact congrArg ofEntries (bodyEntries_eq_self h)
  have hfind : findVariant origin variants none none (ofEntries (("type", .string name) :: es)) =
      .ok variant := by
    rw [ofEntries, ofJson, findVariant, if_pos rfl]
    simp only [hv]
    exact findVariant_ofEntries (Json.wellFormed_object.1 hw).2 h variant
  rw [ofJson, ofJson]
  refine ⟨?_, ?_⟩
  · rw [← hbody, depth_object, depth_object]
    exact Nat.succ_le_succ (depthOfEntries_filter_le isBodyEntry _)
  · simp only [readTagged, hfind, Outcome.ok_bind, hbody]
    rfl

/-- Without a name there is no variant. -/
theorem readTagged_of_notMem (origin : Origin) (expected : String) (variants : Variants)
    {es : Entries} (hw : (Json.object es).WellFormed) (h : "type" ∉ Entries.keys es) :
    readTagged origin expected variants (ofJson (.object es)) =
      .error (.mismatch (.missingField "type")) := by
  have hfind : ∀ {es : Entries}, (∀ e ∈ es, e.2.WellFormed) → "type" ∉ Entries.keys es →
      findVariant origin variants none none (ofEntries es) =
        .error (.mismatch (.missingField "type")) := by
    intro es hw h
    induction es with
    | nil => rw [ofEntries, findVariant]
    | cons e es ih =>
      obtain ⟨key, x⟩ := e
      rw [Entries.keys_cons, List.mem_cons, not_or] at h
      rw [List.forall_mem_cons] at hw
      rw [ofEntries, findVariant, if_neg (Ne.symm h.1), setAside_ofJson hw.1]
      exact ih hw.2 h.2
  rw [ofJson]
  simp only [readTagged, hfind (Json.wellFormed_object.1 hw).2 h, Outcome.error_bind]

/-- The body of a variant record is what is left of an object or of an array without the name. -/
theorem body_of_readTagged {origin : Origin} {expected : String} {variants : Variants} {s : Source}
    {tagged : Tagged s} (h : readTagged origin expected variants s = .ok tagged) :
    (∃ entries ending, s = .object entries ending ∧
      tagged.body = .object (entries.filter isBodyEntry) none) ∨
    ∃ tag items ending, s = .array (tag :: items) ending ∧ tagged.body = .array items none := by
  unfold readTagged at h
  split at h
  next entries ending =>
    obtain ⟨variant, -, h⟩ := Outcome.bind_eq_ok h
    cases h
    exact Or.inl ⟨entries, ending, rfl, rfl⟩
  next ending => split at h <;> cases h
  next tag items ending =>
    obtain ⟨variant, -, h⟩ := Outcome.bind_eq_ok h
    obtain ⟨-, -, h⟩ := Outcome.bind_eq_ok h
    cases h
    exact Or.inr ⟨tag, items, ending, rfl, rfl⟩
  next => cases h

theorem Plain.tagged {s : Source} (hs : s.Plain) {origin : Origin} {expected : String}
    {variants : Variants} {tagged : Tagged s}
    (h : readTagged origin expected variants s = .ok tagged) : tagged.body.Plain := by
  obtain ⟨j, hj, hs⟩ := hs
  rcases body_of_readTagged h with ⟨entries, ending, heq, hbody⟩ | ⟨tag, items, ending, heq, hbody⟩
  · rw [hbody]
    cases j with
    | object es =>
      rw [hs, ofJson] at heq
      cases heq
      refine ⟨.object (bodyEntries es), wellFormed_bodyEntries hj, ?_⟩
      rw [ofJson, filter_isBodyEntry_ofEntries]
    | null | bool _ | number _ | string _ | array _ => rw [hs, ofJson] at heq; cases heq
  · rw [hbody]
    cases j with
    | array xs =>
      rw [hs, ofJson] at heq
      cases xs with
      | nil => rw [ofItems] at heq; cases heq
      | cons x xs =>
        rw [ofItems] at heq
        cases heq
        refine ⟨.array xs, Json.wellFormed_array.2 fun y hy => ?_, by rw [ofJson]⟩
        exact Json.wellFormed_array.1 hj y (List.mem_cons_of_mem _ hy)
    | null | bool _ | number _ | string _ | object _ => rw [hs, ofJson] at heq; cases heq

theorem depth_pos_of_readTagged {s : Source} {origin : Origin} {expected : String}
    {variants : Variants} {tagged : Tagged s}
    (h : readTagged origin expected variants s = .ok tagged) : 0 < s.depth := by
  rcases body_of_readTagged h with ⟨entries, ending, heq, -⟩ | ⟨tag, items, ending, heq, -⟩
  · calc 0 < depthOfEntries entries + 1 := Nat.succ_pos _
      _ = s.depth := by rw [heq, depth_object]
  · calc 0 < depthOfItems (tag :: items) + 1 := Nat.succ_pos _
      _ = s.depth := by rw [heq, depth_array]

end Source
end CalendarRules
