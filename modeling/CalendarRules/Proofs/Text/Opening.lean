import Mathlib.Data.List.Infix

/-!
# Openings

Messages have no other mark than their words, but their first words tell what they are about.  A
list of openings stands for every text that begins with one of them.  If none of the openings of two
lists begins one of the other, then no text belongs to both (`Text.Apart.not_opensWith`).
-/

namespace CalendarRules
namespace Text

variable {openings others : List String} {text : String}

/-- The text begins with one of the openings. -/
def OpensWith (openings : List String) (text : String) : Prop :=
  ∃ opening ∈ openings, ∃ rest, text = opening ++ rest

/-- No opening of one list is the beginning of one of the other. -/
def Apart (openings others : List String) : Prop :=
  ∀ opening ∈ openings, ∀ other ∈ others,
    ¬ opening.toList <+: other.toList ∧ ¬ other.toList <+: opening.toList

instance (openings others : List String) : Decidable (Apart openings others) :=
  inferInstanceAs (Decidable (∀ opening ∈ openings, ∀ other ∈ others, _))

theorem opensWith_singleton_iff {opening : String} :
    OpensWith [opening] text ↔ opening.toList <+: text.toList := by
  constructor
  · rintro ⟨opening', hmem, rest, rfl⟩
    rw [List.mem_singleton.1 hmem, String.toList_append]
    exact List.prefix_append _ _
  · rintro ⟨rest, h⟩
    refine ⟨opening, .head _, String.ofList rest, String.toList_inj.1 ?_⟩
    rw [String.toList_append, String.toList_ofList, h]

theorem OpensWith.append (h : OpensWith openings text) (rest : String) :
    OpensWith openings (text ++ rest) := by
  obtain ⟨opening, hmem, more, rfl⟩ := h
  exact ⟨opening, hmem, more ++ rest, String.append_assoc⟩

theorem Apart.not_opensWith (h : Apart openings others) (htext : OpensWith openings text) :
    ¬ OpensWith others text := by
  rintro ⟨other, hother, rest', heq'⟩
  obtain ⟨opening, hopening, rest, heq⟩ := htext
  have hbegin : opening.toList <+: text.toList := by
    rw [heq, String.toList_append]
    exact List.prefix_append _ _
  have hbegin' : other.toList <+: text.toList := by
    rw [heq', String.toList_append]
    exact List.prefix_append _ _
  obtain ⟨hnot, hnot'⟩ := h opening hopening other hother
  rcases List.prefix_or_prefix_of_prefix hbegin hbegin' with hle | hle
  · exact hnot hle
  · exact hnot' hle

end Text
end CalendarRules
