import CalendarRules.Proofs.Declaration.FieldType
import Mathlib.Logic.Function.Iterate

/-!
# The forms of a type

A document has the form of a type if it is one of five names, a list of what another document stands
for, or an enumeration of names (`FieldType.Recognised`).  Every document is read as a type all the
same: one that is not recognised is kept as it is, and so is one that stands inside of lists, however
many there are.

A type that was read is written as the document that it was read from, so that no two documents are
read as one type (`FieldType.document_recovered`).  The types that are read are those that keep no
recognised document as it is (`FieldType.IsNormal`), and they are also those that stay the same when
they are written and read again.
-/

namespace CalendarRules

namespace FieldType

variable {j raw : Json} {t : FieldType}

/-! ## Documents that are recognised -/

/-- The names that stand for a type. -/
def typeNames : List String := ["string", "number", "boolean", "email", "text"]

/-- The document that stands for the lists of what another one stands for. -/
def listed (item : Json) : Json := .object [("list", item)]

/-- A document has the form of a type.  An object with a second key has none, nor has an enumeration
one of whose members is not a string; of what is listed, nothing is asked. -/
inductive Recognised : Json → Prop where
  | name {name : String} (known : name ∈ typeNames) : Recognised (.string name)
  | list (item : Json) : Recognised (listed item)
  | enumeration (names : List String) : Recognised (.object [("enum", .array (names.map .string))])

theorem ofName?_eq_none {name : String} (h : name ∉ typeNames) : ofName? name = none := by
  simp only [typeNames, List.mem_cons, List.not_mem_nil, or_false, not_or] at h
  obtain ⟨hstring, hnumber, hboolean, hemail, htext⟩ := h
  rw [ofName?, if_neg hstring, if_neg hnumber, if_neg hboolean, if_neg hemail, if_neg htext]

theorem strings?_map (names : List String) : strings? (names.map .string) = some names := by
  induction names with
  | nil => rfl
  | cons name names ih => rw [List.map_cons, strings?, ih, Option.map_some]

theorem ofJson_listed (item : Json) : ofJson (listed item) = .list (ofJson item) := rfl

theorem ofJson_enumeration (names : List String) :
    ofJson (.object [("enum", .array (names.map .string))]) = .enumeration names := by
  have hnames := strings?_map names
  simp [ofJson, hnames]

/-- A document that is recognised is not kept as it is. -/
theorem Recognised.ofJson_ne_other (h : Recognised j) (raw : Json) : ofJson j ≠ .other raw := by
  intro hraw
  cases h with
  | name known =>
    simp only [typeNames, List.mem_cons, List.not_mem_nil, or_false] at known
    rcases known with rfl | rfl | rfl | rfl | rfl <;> cases hraw
  | list item => cases (ofJson_listed item).symm.trans hraw
  | enumeration names => cases (ofJson_enumeration names).symm.trans hraw

theorem ofJson_of_not_recognised (h : ¬ Recognised j) : ofJson j = .other j := by
  fun_induction ofJson j with
  | case1 name => rw [ofName?_eq_none fun known => h (.name known), Option.getD_none]
  | case2 item => exact absurd (.list item) h
  | case3 items names hnames =>
    rw [← map_string_of_strings? hnames] at h
    exact absurd (.enumeration names) h
  | case4 | case5 | case6 | case7 => rfl

theorem ofJson_eq_other_iff : ofJson raw = .other raw ↔ ¬ Recognised raw :=
  ⟨fun h recognised => recognised.ofJson_ne_other raw h, ofJson_of_not_recognised⟩

/-! ## Types that are read -/

/-- No document that is recognised is kept in the type as it is. -/
def IsNormal : FieldType → Prop
  | .list item => item.IsNormal
  | .other raw => ¬ Recognised raw
  | _ => True

theorem isNormal_ofJson (j : Json) : (ofJson j).IsNormal := by
  generalize ht : ofJson j = t
  have hj : t.json = j := by rw [← ht, json_ofJson]
  -- By induction on the type: the document is the one that is written for it.
  induction t generalizing j with
  | list item ih =>
    have hitem : ofJson (listed item.json) = .list item := by
      rw [← ht, ← hj]
      rfl
    rw [ofJson_listed] at hitem
    exact ih item.json (list.inj hitem) rfl
  | other raw =>
    obtain rfl : raw = j := hj
    exact ofJson_eq_other_iff.1 ht
  | string | number | boolean | email | text | enumeration names => trivial

theorem ofJson_json (h : t.IsNormal) : ofJson t.json = t := by
  induction t with
  | string | number | boolean | email | text => rfl
  | list item ih => exact (ofJson_listed item.json).trans (congrArg list (ih h))
  | enumeration names => exact ofJson_enumeration names
  | other raw => exact ofJson_of_not_recognised h

/-- Reading finds the one normal type that is written as the document. -/
theorem ofJson_eq_iff : ofJson j = t ↔ t.json = j ∧ t.IsNormal := by
  constructor
  · rintro rfl
    exact ⟨json_ofJson j, isNormal_ofJson j⟩
  · rintro ⟨rfl, h⟩
    exact ofJson_json h

/-! ## Lists of lists -/

/-- A document inside of lists is read as by itself, and as many lists are put around its type. -/
theorem ofJson_iterate_listed (n : Nat) (j : Json) :
    ofJson (listed^[n] j) = list^[n] (ofJson j) :=
  Function.Semiconj.iterate_right ofJson_listed n j

theorem ofJson_iterate_listed_iff {n : Nat} :
    ofJson (listed^[n] j) = list^[n] t ↔ ofJson j = t := by
  have hinjective : Function.Injective list := fun _ _ => list.inj
  rw [ofJson_iterate_listed, (hinjective.iterate n).eq_iff]

/-- Types are read without loss.  What was read from a document is written as that document, so that
different documents are read as different types, and reading what was written gives the type again.
From a document the one type is read that is written so and keeps no recognised document; the types
without such a document are the ones that writing and reading give back.  Inside of lists, however
many there are, a document is read as it is by itself: it is kept as it is exactly if it is not
recognised. -/
theorem document_recovered :
    (∀ j, (ofJson j).json = j) ∧
    Function.Injective ofJson ∧
    (∀ j, ofJson (ofJson j).json = ofJson j) ∧
    (∀ j t, ofJson j = t ↔ t.json = j ∧ t.IsNormal) ∧
    (∀ t : FieldType, ofJson t.json = t ↔ t.IsNormal) ∧
    (∀ n j, ofJson (listed^[n] j) = list^[n] (ofJson j)) ∧
    (∀ n raw, ofJson (listed^[n] raw) = list^[n] (.other raw) ↔ ¬ Recognised raw) := by
  have hinjective : Function.Injective ofJson := Function.LeftInverse.injective json_ofJson
  refine ⟨json_ofJson, hinjective, ?_, fun j t => ofJson_eq_iff, ?_, ofJson_iterate_listed, ?_⟩
  · intro j
    rw [json_ofJson]
  · intro t
    rw [ofJson_eq_iff, and_iff_right rfl]
  · intro n raw
    rw [ofJson_iterate_listed_iff, ofJson_eq_other_iff]

/-- Two kinds of seats, the second of which need not have a name. -/
def seats (second : Json) : Json := .object [("enum", .array [.string "stalls", second])]

/-- Where a number stands among the names, the document is kept, three lists deep as by itself, and
is not taken for the one with its numeral. -/
theorem document_recovered_seats :
    seats (.ofNat 7) ≠ seats (.string "7") ∧
    ofJson (listed^[3] (seats (.ofNat 7))) = list^[3] (.other (seats (.ofNat 7))) ∧
    (ofJson (listed^[3] (seats (.ofNat 7)))).json = listed^[3] (seats (.ofNat 7)) ∧
    ofJson (seats (.ofNat 7)) ≠ ofJson (seats (.string "7")) := by
  obtain ⟨hwritten, hinjective, -, -, -, -, hkept⟩ := document_recovered
  have hdifferent : seats (.ofNat 7) ≠ seats (.string "7") := by
    intro h
    cases h
  have hseats : ¬ Recognised (seats (.ofNat 7)) := (hkept 0 _).1 rfl
  exact ⟨hdifferent, (hkept 3 _).2 hseats, hwritten _, hinjective.ne hdifferent⟩

/-- A list with a second key is kept whole, although its first key alone would be recognised. -/
example : ofJson (listed (.object [("list", .string "email"), ("max", .null)])) =
    .list (.other (.object [("list", .string "email"), ("max", .null)])) := rfl

end FieldType
end CalendarRules
