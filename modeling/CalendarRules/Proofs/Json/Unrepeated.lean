import CalendarRules.Proofs.Json.Record

/-!
# Texts that repeat no key

A text may repeat a key in an object; the document that it denotes does not, and keeps the last
value.  This is all that a document loses of its source: a source that denotes a document and
repeats no key is the source of that document (`Source.eq_ofJson`), so that there is nothing left to
choose for a reader that goes through the text itself.
-/

namespace CalendarRules
namespace Source

/-- The keys of an object, so far as they can be read. -/
def names (entries : List Entry) : List String := entries.filterMap fun entry => entry.1.toOption

mutual

/-- No object of a source repeats a key. -/
def KeysDistinct : Source → Prop
  | .null | .bool _ | .number _ | .string _ | .broken _ => True
  | .array items _ => KeysDistinctItems items
  | .object entries _ => (names entries).Nodup ∧ KeysDistinctEntries entries

def KeysDistinctItems : List Source → Prop
  | [] => True
  | x :: xs => x.KeysDistinct ∧ KeysDistinctItems xs

def KeysDistinctEntries : List (Except Break String × Source) → Prop
  | [] => True
  | (_, x) :: xs => x.KeysDistinct ∧ KeysDistinctEntries xs

end

theorem names_ofEntries (es : Entries) : names (ofEntries es) = Entries.keys es := by
  rw [names, ofEntries_eq_map, List.filterMap_map, Entries.keys, ← List.filterMap_eq_map]
  rfl

mutual

/-- A source that repeats no key is the source of what it denotes. -/
theorem eq_ofJson : ∀ {s : Source} {j : Json}, s.json = .ok j → s.KeysDistinct → s = ofJson j
  | .null, _, h, _ | .bool _, _, h, _ | .number _, _, h, _ | .string _, _, h, _ => by
    rw [json] at h
    cases h
    rw [ofJson]
  | .broken _, _, h, _ => by
    rw [json] at h
    cases h
  | .array items ending, j, h, hd => by
    rw [json] at h
    rw [KeysDistinct] at hd
    obtain ⟨xs, hxs, h⟩ := Outcome.bind_eq_ok h
    cases ending with
    | some fault => cases h
    | none =>
      cases h
      rw [ofJson, eq_ofItems hxs hd]
  | .object entries ending, j, h, hd => by
    rw [json] at h
    rw [KeysDistinct] at hd
    obtain ⟨settings, hs, h⟩ := Outcome.bind_eq_ok h
    cases ending with
    | some fault => cases h
    | none =>
      cases h
      obtain rfl := eq_ofEntries hs hd.2
      rw [names_ofEntries] at hd
      rw [ofJson, Entries.ofSettings_eq_self hd.1]

theorem eq_ofItems : ∀ {xs : List Source} {js : List Json},
    jsonOfItems xs = .ok js → KeysDistinctItems xs → xs = ofItems js
  | [], _, h, _ => by
    rw [jsonOfItems] at h
    cases h
    rw [ofItems]
  | x :: xs, _, h, hd => by
    obtain ⟨j, js, hj, hjs, rfl⟩ := exists_of_jsonOfItems_cons h
    rw [KeysDistinctItems] at hd
    rw [ofItems, ← eq_ofJson hj hd.1, ← eq_ofItems hjs hd.2]

theorem eq_ofEntries : ∀ {xs : List (Except Break String × Source)}
    {settings : List (String × Json)}, jsonOfEntries xs = .ok settings →
      KeysDistinctEntries xs → xs = ofEntries settings
  | [], _, h, _ => by
    rw [jsonOfEntries] at h
    cases h
    rw [ofEntries]
  | (key, x) :: xs, _, h, hd => by
    obtain ⟨name, j, rest, rfl, hj, hr, rfl⟩ := exists_of_jsonOfEntries_cons h
    rw [KeysDistinctEntries] at hd
    rw [ofEntries, ← eq_ofJson hj hd.1, ← eq_ofEntries hr hd.2]

end

end Source

/-- A text that repeats no key and denotes a document is that document, with nothing after it. -/
theorem Document.eq_of_ofText {text : String} {j : Json} (h : Json.ofText text = .ok j)
    (hd : (Document.ofText text).root.KeysDistinct) :
    Document.ofText text = ⟨Source.ofJson j, none⟩ := by
  unfold Json.ofText Document.json at h
  obtain ⟨k, hk, h⟩ := Outcome.bind_eq_ok h
  have hroot := Source.eq_ofJson hk hd
  generalize Document.ofText text = document at *
  obtain ⟨root, trailing⟩ := document
  cases trailing with
  | some fault => cases h
  | none =>
    cases h
    exact congrArg (Document.mk · none) hroot

end CalendarRules
