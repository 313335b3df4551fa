import CalendarRules.Json.Source
import CalendarRules.Proofs.Json.Entries
import CalendarRules.Proofs.Outcome

/-!
# Documents that repeat no key

What a source denotes repeats no key in any of its objects (`wellFormed_of_json`), and a document
that repeats none is denoted by its own source (`json_ofJson`).
-/

namespace CalendarRules

namespace Json

mutual

/-- No object of a document repeats a key. -/
def WellFormed : Json → Prop
  | .null | .bool _ | .number _ | .string _ => True
  | .array items => WellFormedItems items
  | .object entries => (Entries.keys entries).Nodup ∧ WellFormedEntries entries

def WellFormedItems : List Json → Prop
  | [] => True
  | x :: xs => x.WellFormed ∧ WellFormedItems xs

def WellFormedEntries : List (String × Json) → Prop
  | [] => True
  | (_, x) :: xs => x.WellFormed ∧ WellFormedEntries xs

end

attribute [local simp] WellFormed WellFormedItems WellFormedEntries

theorem wellFormed_array {items : List Json} :
    (array items).WellFormed ↔ ∀ x ∈ items, x.WellFormed := by
  rw [WellFormed]
  induction items with
  | nil => simp
  | cons y ys ih => rw [WellFormedItems, ih, List.forall_mem_cons]

theorem wellFormedEntries_iff {entries : Entries} :
    WellFormedEntries entries ↔ ∀ entry ∈ entries, entry.2.WellFormed := by
  induction entries with
  | nil => simp
  | cons entry rest ih =>
    obtain ⟨k, x⟩ := entry
    rw [WellFormedEntries, ih, List.forall_mem_cons]

theorem wellFormed_object {entries : Entries} :
    (object entries).WellFormed ↔
      (Entries.keys entries).Nodup ∧ ∀ entry ∈ entries, entry.2.WellFormed := by
  rw [WellFormed, wellFormedEntries_iff]

theorem wellFormed_of_get? {key : String} {entries : Entries} {value : Json}
    (hw : (object entries).WellFormed) (h : Entries.get? key entries = some value) :
    value.WellFormed :=
  (wellFormed_object.1 hw).2 _ (Entries.mem_of_get? h)

theorem wellFormed_null : null.WellFormed := by
  rw [WellFormed]
  trivial

theorem wellFormed_bool (b : Bool) : (bool b).WellFormed := by
  rw [WellFormed]
  trivial

theorem wellFormed_number (n : Number) : (number n).WellFormed := by
  rw [WellFormed]
  trivial

theorem wellFormed_string (s : String) : (string s).WellFormed := by
  rw [WellFormed]
  trivial

end Json

namespace Source

/-! ## What arrays and objects denote -/

theorem exists_of_json_array {items : List Source} {ending : Option Fault} {j : Json}
    (h : (array items ending).json = .ok j) :
    ∃ xs, jsonOfItems items = .ok xs ∧ j = .array xs := by
  rw [json] at h
  obtain ⟨xs, hxs, h⟩ := Outcome.bind_eq_ok h
  cases ending with
  | some fault => cases h
  | none => exact ⟨xs, hxs, (Except.ok.inj h).symm⟩

theorem exists_of_json_object {entries : List Entry} {ending : Option Fault} {j : Json}
    (h : (object entries ending).json = .ok j) :
    ∃ settings, jsonOfEntries entries = .ok settings ∧
      j = .object (Entries.ofSettings settings) := by
  rw [json] at h
  obtain ⟨settings, hs, h⟩ := Outcome.bind_eq_ok h
  cases ending with
  | some fault => cases h
  | none => exact ⟨settings, hs, (Except.ok.inj h).symm⟩

theorem exists_of_jsonOfItems_cons {x : Source} {xs : List Source} {js : List Json}
    (h : jsonOfItems (x :: xs) = .ok js) :
    ∃ j js', x.json = .ok j ∧ jsonOfItems xs = .ok js' ∧ js = j :: js' := by
  rw [jsonOfItems] at h
  obtain ⟨j, hj, h⟩ := Outcome.bind_eq_ok h
  obtain ⟨js', hjs, h⟩ := Outcome.bind_eq_ok h
  exact ⟨j, js', hj, hjs, (Except.ok.inj h).symm⟩

theorem exists_of_jsonOfEntries_cons {key : Except Break String} {x : Source} {xs : List Entry}
    {settings : List (String × Json)} (h : jsonOfEntries ((key, x) :: xs) = .ok settings) :
    ∃ name j rest, key = .ok name ∧ x.json = .ok j ∧ jsonOfEntries xs = .ok rest ∧
      settings = (name, j) :: rest := by
  cases key with
  | error place => rw [jsonOfEntries] at h; cases h
  | ok name =>
    rw [jsonOfEntries] at h
    obtain ⟨j, hj, h⟩ := Outcome.bind_eq_ok h
    obtain ⟨rest, hr, h⟩ := Outcome.bind_eq_ok h
    exact ⟨name, j, rest, rfl, hj, hr, (Except.ok.inj h).symm⟩

/-! ## A document and its source -/

mutual

/-- The source of a document that repeats no key denotes it. -/
theorem json_ofJson : ∀ {j : Json}, j.WellFormed → (ofJson j).json = .ok j
  | .null, _ | .bool _, _ | .number _, _ | .string _, _ => by rw [ofJson, json]
  | .array items, h => by
    rw [Json.WellFormed] at h
    rw [ofJson, json, jsonOfItems_ofItems h]
    rfl
  | .object entries, h => by
    rw [Json.WellFormed] at h
    rw [ofJson, json, jsonOfEntries_ofEntries h.2, Outcome.ok_bind,
      Entries.ofSettings_eq_self h.1]

theorem jsonOfItems_ofItems : ∀ {xs : List Json}, Json.WellFormedItems xs →
    jsonOfItems (ofItems xs) = .ok xs
  | [], _ => by rw [ofItems, jsonOfItems]
  | x :: xs, h => by
    rw [Json.WellFormedItems] at h
    rw [ofItems, jsonOfItems, json_ofJson h.1, jsonOfItems_ofItems h.2]
    rfl

theorem jsonOfEntries_ofEntries : ∀ {xs : List (String × Json)}, Json.WellFormedEntries xs →
    jsonOfEntries (ofEntries xs) = .ok xs
  | [], _ => by rw [ofEntries, jsonOfEntries]
  | (key, x) :: xs, h => by
    rw [Json.WellFormedEntries] at h
    rw [ofEntries, jsonOfEntries, json_ofJson h.1, jsonOfEntries_ofEntries h.2]
    rfl

end

mutual

/-- What a source denotes repeats no key. -/
theorem wellFormed_of_json : ∀ {s : Source} {j : Json}, s.json = .ok j → j.WellFormed
  | .null, _, h | .bool _, _, h | .number _, _, h | .string _, _, h => by
    rw [json] at h
    cases h
    rw [Json.WellFormed]
    trivial
  | .broken _, _, h => by
    rw [json] at h
    cases h
  | .array items ending, j, h => by
    obtain ⟨xs, hxs, rfl⟩ := exists_of_json_array h
    rw [Json.WellFormed]
    exact wellFormedItems_of_json hxs
  | .object entries ending, j, h => by
    obtain ⟨settings, hs, rfl⟩ := exists_of_json_object h
    have hvalues := Json.wellFormedEntries_iff.1 (wellFormedEntries_of_json hs)
    refine Json.wellFormed_object.2 ⟨Entries.nodup_keys_ofSettings settings, ?_⟩
    exact fun entry he => hvalues entry (Entries.mem_of_mem_ofSettings he)

theorem wellFormedItems_of_json : ∀ {xs : List Source} {js : List Json},
    jsonOfItems xs = .ok js → Json.WellFormedItems js
  | [], _, h => by
    rw [jsonOfItems] at h
    cases h
    rw [Json.WellFormedItems]
    trivial
  | x :: xs, _, h => by
    obtain ⟨j, js, hj, hjs, rfl⟩ := exists_of_jsonOfItems_cons h
    rw [Json.WellFormedItems]
    exact ⟨wellFormed_of_json hj, wellFormedItems_of_json hjs⟩

theorem wellFormedEntries_of_json : ∀ {xs : List (Except Break String × Source)}
    {settings : List (String × Json)}, jsonOfEntries xs = .ok settings →
      Json.WellFormedEntries settings
  | [], _, h => by
    rw [jsonOfEntries] at h
    cases h
    rw [Json.WellFormedEntries]
    trivial
  | (key, x) :: xs, _, h => by
    obtain ⟨name, j, rest, -, hj, hr, rfl⟩ := exists_of_jsonOfEntries_cons h
    rw [Json.WellFormedEntries]
    exact ⟨wellFormed_of_json hj, wellFormedEntries_of_json hr⟩

end

end Source

attribute [irreducible] Json.WellFormed

end CalendarRules
