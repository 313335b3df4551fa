import CalendarRules.Proofs.Event.Payload

/-!
# Paths go down step by step

A path into a document leads somewhere exactly if each of its segments does: a key to the value
under it, a position to an item, and `count` on an array to the length, from which nothing leads any
further (`Json.walk?_eq_some_iff`).  So a path may be cut in two anywhere, and its second part be
walked from where the first one ends.

The payload of an event is such a document, and the head `extra` stands for it.  A path whose head
is not reserved starts in the payload by itself, so that it leads to the same with `extra` in front
(`Event.paths_compose`).
-/

namespace CalendarRules

namespace Json

/-- Where a path leads from a document. -/
inductive Leads : Json → List String → Json → Prop where
  | here (j : Json) : Leads j [] j
  | key {entries : Entries} {segment : String} {path : List String} {j k : Json}
      (entry : Entries.get? segment entries = some j) (rest : Leads j path k) :
      Leads (.object entries) (segment :: path) k
  | item {items : List Json} {segment : String} {path : List String} {i : Nat} {j k : Json}
      (isPosition : position? segment = some i) (entry : items[i]? = some j)
      (rest : Leads j path k) : Leads (.array items) (segment :: path) k
  | count (items : List Json) : Leads (.array items) ["count"] (.ofNat items.length)

theorem ne_count_of_position? {segment : String} {i : Nat} (h : position? segment = some i) :
    segment ≠ "count" := by
  rintro rfl
  cases h

/-- A length has no parts. -/
theorem child?_ofNat (n : Nat) (segment : String) : (ofNat n).child? segment = none := by
  rw [ofNat, ofInt]
  split
  next => rfl
  next => rfl

theorem walk?_ofNat_eq_some_iff {n : Nat} {path : List String} {k : Json} :
    (ofNat n).walk? path = some k ↔ path = [] ∧ k = .ofNat n := by
  cases path with
  | nil => simp [walk?, eq_comm]
  | cons segment path => simp [walk?, child?_ofNat]

/-- A path leads somewhere exactly if its segments do, one after the other. -/
theorem walk?_eq_some_iff {j k : Json} {path : List String} :
    j.walk? path = some k ↔ Leads j path k := by
  constructor
  · intro h
    induction path generalizing j with
    | nil =>
      cases h
      exact .here _
    | cons segment path ih =>
      obtain ⟨c, hc, hrest⟩ := Option.bind_eq_some_iff.1 h
      unfold child? at hc
      split at hc
      next items =>
        split at hc
        next hcount =>
          -- the length ends the path, so nothing is asked of the rest
          rw [← Option.some.inj hc] at hrest
          obtain ⟨hnil, hk⟩ := walk?_ofNat_eq_some_iff.1 hrest
          rw [hcount, hnil, hk]
          exact .count items
        next hcount =>
          obtain ⟨i, hi, hc⟩ := Option.bind_eq_some_iff.1 hc
          exact .item hi hc (ih hrest)
      next => exact .key hc (ih hrest)
      next => cases hc
  · intro h
    induction h with
    | here j => rfl
    | key entry _ ih => rw [walk?, child?, entry, Option.bind_some, ih]
    | item isPosition entry _ ih =>
      rw [walk?, child?, if_neg (ne_count_of_position? isPosition), isPosition, Option.bind_some,
        entry, Option.bind_some, ih]
    | count items => rfl

/-- The value at the end of a path is that of its second part, taken where the first one ends. -/
theorem ofJson?_walk?_append (root : Json) (p q : List String) :
    Value.ofJson? (root.walk? (p ++ q)) =
      match root.walk? p with
      | some j => .ofJson? (j.walk? q)
      | none => .undefined := by
  rw [walk?_append]
  cases root.walk? p with
  | none => rfl
  | some j => rfl

end Json

namespace Event

variable {e : Event} {scope : Scope} {head : String} {rest : List String}

/-- The head of a path is reserved: for the start, the finish or the payload, for the user if there
is one, or, where nothing follows it, for a field of the event itself. -/
def IsReserved (scope : Scope) (head : String) (rest : List String) : Prop :=
  head ∈ ["startTime", "endTime", "extra"] ∨ (head = "user" ∧ scope.user.isSome = true) ∨
    (rest = [] ∧ head ∈ ["title", "type", "id", "duration", "now", "created"])

instance (scope : Scope) (head : String) (rest : List String) :
    Decidable (IsReserved scope head rest) := inferInstanceAs (Decidable (_ ∨ _))

/-- The head `extra` stands for the payload. -/
theorem field_extra_cons (e : Event) (scope : Scope) (path : List String) :
    e.field scope ⟨"extra" :: path⟩ = e.payloadField path := by
  rw [field_eq_ownField (by simp)]
  cases path with
  | nil => rfl
  | cons segment path => rfl

theorem reserved?_eq_none (e : Event) (scope : Scope) {name : String}
    (h : name ∉ ["title", "type", "id", "duration", "now", "created"]) :
    e.reserved? scope name = none := by
  unfold reserved?
  split
  case h_7 => rfl
  all_goals exact absurd (by decide) h

/-- A path whose head is not reserved starts in the payload. -/
theorem field_of_not_isReserved (h : ¬ IsReserved scope head rest) :
    e.field scope ⟨head :: rest⟩ = e.payloadField (head :: rest) := by
  rw [IsReserved, not_or, not_or] at h
  obtain ⟨hhead, huser, hsingle⟩ := h
  simp only [List.mem_cons, List.not_mem_nil, or_false, not_or] at hhead
  rw [field_eq_ownField fun h => h.elim hhead.1 fun h => h.elim hhead.2.1 huser]
  cases rest with
  | nil =>
    have hreserved := reserved?_eq_none e scope fun hmem => hsingle ⟨rfl, hmem⟩
    rw [ownField, hreserved, Option.getD_none, if_neg hhead.2.2]
  | cons next rest => rw [ownField_of_head_ne hhead.2.2]

/-- A path is walked part by part, wherever it is cut, from any document: where its first part leads
to a value, its second part goes on from there, and where the first part leads nowhere, so does the
whole.  It leads somewhere exactly if every segment does, the length of an array being the end of a
path.  A path of an event whose head is not reserved leads to the same with `extra` in front. -/
theorem paths_compose :
    (∀ (root : Json) (p q : List String), Value.ofJson? (root.walk? (p ++ q)) =
      match root.walk? p with
      | some j => .ofJson? (j.walk? q)
      | none => .undefined) ∧
    (∀ (root j : Json) (p : List String), root.walk? p = some j ↔ root.Leads p j) ∧
    (∀ (e : Event) (scope : Scope) (head : String) (rest : List String),
      ¬ IsReserved scope head rest →
        e.field scope ⟨"extra" :: head :: rest⟩ = e.field scope ⟨head :: rest⟩) := by
  refine ⟨Json.ofJson?_walk?_append, fun root j p => Json.walk?_eq_some_iff, ?_⟩
  intro e scope head rest h
  rw [field_extra_cons, field_of_not_isReserved h]

/-- A workshop with the people who come to it. -/
def workshop : Event where
  id := "1"
  type := "workshop"
  start := ⟨20465, 32400, 0, by decide⟩
  finish := ⟨20465, 36000, 0, by decide⟩
  extra := [("user", .object [("groups", .array [.array [.null, .null], .bool true])])]

/-- Without an acting user, the head `user` is a key of the payload like any other. -/
theorem paths_compose_workshop :
    ¬ IsReserved { clock := workshop.start } "user" ["groups", "0", "count"] ∧
    workshop.field { clock := workshop.start } ⟨["extra", "user", "groups", "0", "count"]⟩ =
      workshop.field { clock := workshop.start } ⟨["user", "groups", "0", "count"]⟩ ∧
    workshop.field { clock := workshop.start } ⟨["user", "groups", "0", "count"]⟩ =
      .json (.ofNat 2) := by
  have hfree : ¬ IsReserved { clock := workshop.start } "user" ["groups", "0", "count"] := by
    decide
  obtain ⟨-, -, hextra⟩ := paths_compose
  exact ⟨hfree, hextra workshop _ _ _ hfree, rfl⟩

end Event
end CalendarRules
