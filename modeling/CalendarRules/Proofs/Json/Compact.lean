import CalendarRules.Proofs.Json.Number
import CalendarRules.Proofs.Json.Quoted
import CalendarRules.Proofs.Json.WellFormed

/-!
# Compact text read back

The compact text of a document is scanned as the source of that document, entry by entry and with
repeated keys as they stand, provided that it is not nested too deep and that its doubles read back
(`Document.ofText_text`).  Nothing of the text is left over.
-/

namespace CalendarRules

/-! ## The doubles of a document -/

namespace Json

mutual

/-- The doubles of a document from left to right. -/
def doubles : Json → List Finite64
  | .number (.float x) => [x]
  | .array items => doublesOfItems items
  | .object entries => doublesOfEntries entries
  | _ => []

def doublesOfItems : List Json → List Finite64
  | [] => []
  | x :: xs => x.doubles ++ doublesOfItems xs

def doublesOfEntries : List (String × Json) → List Finite64
  | [] => []
  | (_, x) :: xs => x.doubles ++ doublesOfEntries xs

end

/-- Every double of a document reads back. -/
def DoublesReadBack (j : Json) : Prop := ∀ x ∈ j.doubles, (Number.float x).ReadsBack

theorem doublesReadBack_of_doubles_eq_nil {j : Json} (h : j.doubles = []) : j.DoublesReadBack := by
  rw [DoublesReadBack, h]
  exact List.forall_mem_nil _

theorem doublesReadBack_of_mem_items {items : List Json} (h : (array items).DoublesReadBack) :
    ∀ x ∈ items, x.DoublesReadBack := by
  intro x hx
  refine fun y hy => h y ?_
  rw [doubles]
  clear h
  induction items with
  | nil => cases hx
  | cons z zs ih =>
    rw [doublesOfItems, List.mem_append]
    rcases List.mem_cons.1 hx with rfl | hx
    · exact Or.inl hy
    · exact Or.inr (ih hx)

theorem doublesReadBack_of_mem_entries {entries : Entries}
    (h : (object entries).DoublesReadBack) : ∀ entry ∈ entries, entry.2.DoublesReadBack := by
  intro entry he
  refine fun y hy => h y ?_
  rw [doubles]
  clear h
  induction entries with
  | nil => cases he
  | cons e es ih =>
    rw [doublesOfEntries, List.mem_append]
    rcases List.mem_cons.1 he with rfl | he
    · exact Or.inl hy
    · exact Or.inr (ih he)

theorem readsBack_of_number {n : Number} (h : (number n).DoublesReadBack) : n.ReadsBack := by
  cases n with
  | int i hi => exact Number.readsBack_int i hi
  | float x => exact h x (.head _)

end Json

namespace Source

open Json (DoublesReadBack)

/-! ## One step of a scan -/

variable {fuel level : Nat} {cs rest : List Char} {x : Source}

theorem scanItems_last (h : scanValue fuel level cs = (x, .ok (']' :: rest))) :
    scanItems (fuel + 1) level cs = (([x], none), .ok rest) := by
  have hgap : skipGap (']' :: rest) = ']' :: rest := skipGap_cons rfl rest
  simp only [scanItems, h, hgap]

theorem scanItems_more {c : Char} (hgap : isGap c = false) (hc : c ≠ ']')
    (h : scanValue fuel level cs = (x, .ok (',' :: c :: rest))) {xs : List Source}
    {ending : Option Fault} {left : Except Fault (List Char)}
    (hs : scanItems fuel level (c :: rest) = ((xs, ending), left)) :
    scanItems (fuel + 1) level cs = ((x :: xs, ending), left) := by
  have hcomma : skipGap (',' :: c :: rest) = ',' :: c :: rest := skipGap_cons rfl _
  simp only [scanItems, h, hcomma, skipGap_cons hgap]
  split
  next heq => exact absurd (List.cons.inj heq).1 hc
  next => rw [hs]

theorem scanEntries_last {key : String}
    (h : scanValue fuel level cs = (x, .ok ('\x7d' :: rest))) :
    scanEntries (fuel + 1) level (Json.quoted key ++ ':' :: cs) =
      (([(.ok key, x)], none), .ok rest) := by
  have hcolon : skipGap (':' :: cs) = ':' :: cs := skipGap_cons rfl _
  have hbrace : skipGap ('\x7d' :: rest) = '\x7d' :: rest := skipGap_cons rfl _
  rw [Json.quoted, List.cons_append, List.cons_append, List.append_assoc, List.singleton_append]
  simp only [scanEntries, scanString_quoted, hcolon, h, hbrace]

theorem scanEntries_more {key : String}
    (h : scanValue fuel level cs = (x, .ok (',' :: '"' :: rest))) {xs : List Entry}
    {ending : Option Fault} {left : Except Fault (List Char)}
    (hs : scanEntries fuel level ('"' :: rest) = ((xs, ending), left)) :
    scanEntries (fuel + 1) level (Json.quoted key ++ ':' :: cs) =
      (((.ok key, x) :: xs, ending), left) := by
  have hcolon : skipGap (':' :: cs) = ':' :: cs := skipGap_cons rfl _
  have hcomma : skipGap (',' :: '"' :: rest) = ',' :: '"' :: rest := skipGap_cons rfl _
  have hquote : skipGap ('"' :: rest) = '"' :: rest := skipGap_cons rfl _
  rw [Json.quoted, List.cons_append, List.cons_append, List.append_assoc, List.singleton_append]
  simp only [scanEntries, scanString_quoted, hcolon, h, hcomma, hquote, hs]

theorem scanValue_string (s : String) (fuel level : Nat) (rest : List Char) :
    scanValue (fuel + 1) level (Json.quoted s ++ rest) = (.string s, .ok rest) := by
  rw [Json.quoted, List.cons_append, List.cons_append, List.append_assoc, List.singleton_append,
    scanValue, skipGap_cons rfl]
  simp only [scanString_quoted]
  rfl

theorem scanValue_array {c : Char} (hgap : isGap c = false) (hc : c ≠ ']') {xs : List Source}
    {ending : Option Fault} {left : Except Fault (List Char)}
    (hs : scanItems fuel level (c :: rest) = ((xs, ending), left)) :
    scanValue (fuel + 1) (level + 1) ('[' :: c :: rest) = (.array xs ending, left) := by
  have hdigit : ('[' : Char).isDigit = false := rfl
  rw [scanValue, skipGap_cons rfl]
  simp only [Char.reduceEq, hdigit, decide_false, Bool.or_false, Bool.false_eq_true, if_false,
    if_true, skipGap_cons hgap]
  split
  next heq => exact absurd (List.cons.inj heq).1 hc
  next heq => cases heq
  next => rw [hs]

theorem scanValue_object {xs : List Entry} {ending : Option Fault}
    {left : Except Fault (List Char)}
    (hs : scanEntries fuel level ('"' :: rest) = ((xs, ending), left)) :
    scanValue (fuel + 1) (level + 1) ('\x7b' :: '"' :: rest) = (.object xs ending, left) := by
  have hquote : skipGap ('"' :: rest) = '"' :: rest := skipGap_cons rfl _
  have hdigit : ('\x7b' : Char).isDigit = false := rfl
  rw [scanValue, skipGap_cons rfl]
  simp only [Char.reduceEq, hdigit, decide_false, Bool.or_false, Bool.false_eq_true, if_false,
    if_true, hquote]
  split
  next heq => exact absurd (List.cons.inj heq).1 (by decide)
  next => rw [hs]

/-! ## How texts begin -/

/-- The text of a document begins with a character that is neither blank nor the end of an array. -/
theorem compact_eq_cons {j : Json} (h : j.DoublesReadBack) :
    ∃ c cs, j.compact = c :: cs ∧ isGap c = false ∧ c ≠ ']' := by
  cases j with
  | null => exact ⟨_, _, rfl, rfl, by decide⟩
  | bool b => cases b <;> exact ⟨_, _, rfl, rfl, by decide⟩
  | number n =>
    obtain ⟨c, cs, _, hcs, hc, -, -⟩ := (Json.readsBack_of_number h).exists_numeral
    have hend : c ≠ ']' := by
      rcases hc with rfl | hc
      · decide
      · exact ne_of_isDigit hc rfl
    have hmark : Numeral.IsMark c := Numeral.isMark_of_mem_json n c (hcs ▸ List.mem_cons_self)
    exact ⟨c, cs, hcs, Numeral.isGap_eq_false_of_isMark hmark, hend⟩
  | string s => exact ⟨_, _, rfl, rfl, by decide⟩
  | array items => exact ⟨_, _, by rw [Json.compact, List.cons_append], rfl, by decide⟩
  | object entries => exact ⟨_, _, by rw [Json.compact, List.cons_append], rfl, by decide⟩

theorem compactItems_eq_cons {x : Json} (h : x.DoublesReadBack) (xs : List Json) :
    ∃ c cs, Json.compactItems (x :: xs) = c :: cs ∧ isGap c = false ∧ c ≠ ']' := by
  obtain ⟨c, cs, hcs, hgap, hc⟩ := compact_eq_cons h
  cases xs with
  | nil => exact ⟨c, cs, by rw [Json.compactItems, hcs], hgap, hc⟩
  | cons y ys => exact ⟨c, _, by rw [Json.compactItems, hcs, List.cons_append], hgap, hc⟩

theorem compactEntries_eq_cons (key : String) (x : Json) (xs : List (String × Json)) :
    ∃ cs, Json.compactEntries ((key, x) :: xs) = '"' :: cs := by
  cases xs with
  | nil => exact ⟨_, by rw [Json.compactEntries, Json.quoted, List.cons_append, List.cons_append]⟩
  | cons y ys =>
    exact ⟨_, by rw [Json.compactEntries, Json.quoted, List.cons_append, List.cons_append,
      List.cons_append]⟩

theorem ends_of_punctuation {c : Char} (h : c ∈ [',', ']', '\x7d']) (cs : List Char) :
    Numeral.Ends (c :: cs) := by
  simp only [List.mem_cons, List.not_mem_nil, or_false] at h
  rcases h with rfl | rfl | rfl <;> exact Numeral.ends_cons (by decide)

/-! ## Documents

The induction is on the fuel, of which twice the length of the text is enough.  The text behind a
document matters only in that it does not continue a number. -/

mutual

theorem scanValue_compact (fuel level : Nat) (j : Json) (rest : List Char)
    (hf : 2 * j.compact.length ≤ fuel + 1) (hl : j.depth ≤ level) (hd : j.DoublesReadBack)
    (hr : Numeral.Ends rest) : scanValue fuel level (j.compact ++ rest) = (ofJson j, .ok rest) := by
  obtain ⟨c, cs, hcs, -, -⟩ := compact_eq_cons hd
  obtain ⟨fuel, rfl⟩ : ∃ k, fuel = k + 1 := ⟨fuel - 1, by rw [hcs, List.length_cons] at hf; omega⟩
  match j with
  | .null => rfl
  | .bool true => rfl
  | .bool false => rfl
  | .number n =>
    have hn := Json.readsBack_of_number hd
    obtain ⟨c, cs, _, hcs, hc, -, -⟩ := hn.exists_numeral
    have hscan := hn.scanNumber hr
    rw [Json.compact, ofJson]
    rw [hcs, List.cons_append] at hscan ⊢
    rw [scanValue_numeral hc, hscan]
  | .string s =>
    rw [Json.compact, ofJson]
    exact scanValue_string s fuel level rest
  | .array items =>
    rw [Json.depth] at hl
    obtain ⟨level, rfl⟩ : ∃ k, level = k + 1 := ⟨level - 1, by omega⟩
    match items with
    | [] => rfl
    | x :: xs =>
      have hdx : ∀ y ∈ x :: xs, y.DoublesReadBack := Json.doublesReadBack_of_mem_items hd
      obtain ⟨c, cs, hcs, hgap, hc⟩ := compactItems_eq_cons (hdx x (.head _)) xs
      rw [Json.compact, List.length_append, List.length_cons] at hf
      have hs := scanItems_compact fuel level x xs rest (by omega) (by omega) hdx
      rw [Json.compact, ofJson, List.cons_append, List.cons_append, List.append_assoc,
        List.singleton_append]
      rw [hcs, List.cons_append] at hs ⊢
      exact scanValue_array hgap hc hs
  | .object entries =>
    rw [Json.depth] at hl
    obtain ⟨level, rfl⟩ : ∃ k, level = k + 1 := ⟨level - 1, by omega⟩
    match entries with
    | [] => rfl
    | (key, x) :: xs =>
      have hdx : ∀ y ∈ (key, x) :: xs, y.2.DoublesReadBack := Json.doublesReadBack_of_mem_entries hd
      obtain ⟨cs, hcs⟩ := compactEntries_eq_cons key x xs
      rw [Json.compact, List.length_append, List.length_cons] at hf
      have hs := scanEntries_compact fuel level key x xs rest (by omega) (by omega) hdx
      rw [Json.compact, ofJson, List.cons_append, List.cons_append, List.append_assoc,
        List.singleton_append]
      rw [hcs, List.cons_append] at hs ⊢
      exact scanValue_object hs
termination_by fuel

theorem scanItems_compact (fuel level : Nat) (x : Json) (xs : List Json) (rest : List Char)
    (hf : 2 * (Json.compactItems (x :: xs)).length ≤ fuel)
    (hl : Json.depthOfItems (x :: xs) ≤ level) (hd : ∀ y ∈ x :: xs, y.DoublesReadBack) :
    scanItems fuel level (Json.compactItems (x :: xs) ++ ']' :: rest) =
      ((ofItems (x :: xs), none), .ok rest) := by
  have hdx := hd x (.head _)
  obtain ⟨c, cs, hcs, -, -⟩ := compactItems_eq_cons hdx xs
  obtain ⟨fuel, rfl⟩ : ∃ k, fuel = k + 1 := ⟨fuel - 1, by rw [hcs, List.length_cons] at hf; omega⟩
  rw [Json.depthOfItems] at hl
  match xs with
  | [] =>
    rw [Json.compactItems] at hf ⊢
    exact scanItems_last (scanValue_compact _ _ x _ (by omega) (by omega) hdx
      (ends_of_punctuation (by decide) rest))
  | y :: ys =>
    have hdy : ∀ z ∈ y :: ys, z.DoublesReadBack := fun z hz => hd z (.tail _ hz)
    rw [Json.compactItems, List.length_append, List.length_cons] at hf
    have hx := scanValue_compact fuel level x (',' :: (Json.compactItems (y :: ys) ++ ']' :: rest))
      (by omega) (by omega) hdx (ends_of_punctuation (by decide) _)
    have hs := scanItems_compact fuel level y ys rest (by omega) (by omega) hdy
    obtain ⟨d, ds, hds, hgap, hc⟩ := compactItems_eq_cons (hdy y (.head _)) ys
    rw [Json.compactItems, ofItems, List.append_assoc, List.cons_append]
    rw [hds, List.cons_append] at hx hs ⊢
    exact scanItems_more hgap hc hx hs
termination_by fuel

theorem scanEntries_compact (fuel level : Nat) (key : String) (x : Json)
    (xs : List (String × Json)) (rest : List Char)
    (hf : 2 * (Json.compactEntries ((key, x) :: xs)).length ≤ fuel)
    (hl : Json.depthOfEntries ((key, x) :: xs) ≤ level)
    (hd : ∀ y ∈ (key, x) :: xs, y.2.DoublesReadBack) :
    scanEntries fuel level (Json.compactEntries ((key, x) :: xs) ++ '\x7d' :: rest) =
      ((ofEntries ((key, x) :: xs), none), .ok rest) := by
  have hdx := hd (key, x) (.head _)
  obtain ⟨cs, hcs⟩ := compactEntries_eq_cons key x xs
  obtain ⟨fuel, rfl⟩ : ∃ k, fuel = k + 1 := ⟨fuel - 1, by rw [hcs, List.length_cons] at hf; omega⟩
  rw [Json.depthOfEntries] at hl
  match xs with
  | [] =>
    rw [Json.compactEntries, List.length_append, List.length_cons] at hf
    rw [Json.compactEntries, List.append_assoc, List.cons_append]
    exact scanEntries_last (scanValue_compact _ _ x _ (by omega) (by omega) hdx
      (ends_of_punctuation (by decide) rest))
  | (key', y) :: ys =>
    have hdy : ∀ z ∈ (key', y) :: ys, z.2.DoublesReadBack := fun z hz => hd z (.tail _ hz)
    rw [Json.compactEntries, List.length_append, List.length_append, List.length_cons,
      List.length_cons] at hf
    have hx := scanValue_compact fuel level x
      (',' :: (Json.compactEntries ((key', y) :: ys) ++ '\x7d' :: rest)) (by omega) (by omega) hdx
      (ends_of_punctuation (by decide) _)
    have hs := scanEntries_compact fuel level key' y ys rest (by omega) (by omega) hdy
    obtain ⟨ds, hds⟩ := compactEntries_eq_cons key' y ys
    rw [Json.compactEntries, ofEntries, List.append_assoc, List.append_assoc, List.cons_append,
      List.cons_append]
    rw [hds, List.cons_append] at hx hs ⊢
    exact scanEntries_more hx hs
termination_by fuel

end

end Source

/-- The compact text of a document is a text of that document and nothing else. -/
theorem Document.ofText_text {j : Json} (hl : j.depth ≤ Source.maxDepth)
    (hd : j.DoublesReadBack) : Document.ofText j.text = ⟨Source.ofJson j, none⟩ := by
  have htext : j.text.toList = j.compact := by rw [Json.text, String.toList_ofList]
  have hscan :=
    Source.scanValue_compact (2 * j.compact.length + 2) Source.maxDepth j [] (by omega) hl
    hd Numeral.ends_nil
  rw [List.append_nil] at hscan
  rw [Document.ofText, Document.within_of_ok (by rw [htext]; exact hscan)]
  rfl

/-- A document that repeats no key is read back from its compact text. -/
theorem Json.ofText_text {j : Json} (hw : j.WellFormed) (hl : j.depth ≤ Source.maxDepth)
    (hd : j.DoublesReadBack) : Json.ofText j.text = .ok j := by
  rw [Json.ofText, Document.ofText_text hl hd, Document.json, Source.json_ofJson hw]
  rfl

end CalendarRules
