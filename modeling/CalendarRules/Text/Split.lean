/-!
# Splitting and joining text

A text is split at every occurrence of a separator, and pieces are joined with the separator between
them.  Splitting has always at least one piece, and joining puts the pieces together again.  It
undoes joining as long as no piece has the separator in it.
-/

namespace CalendarRules
namespace Text

/-- The pieces of a text between separators. -/
def split (separator : Char) : List Char → List (List Char)
  | [] => [[]]
  | c :: cs =>
    if c = separator then [] :: split separator cs
    else match split separator cs with
      | [] => [[c]]
      | piece :: pieces => (c :: piece) :: pieces

/-- Pieces with a separator between each two. -/
def joined (separator : Char) : List (List Char) → List Char
  | [] => []
  | [piece] => piece
  | piece :: next :: pieces => piece ++ separator :: joined separator (next :: pieces)

theorem split_ne_nil (separator : Char) (cs : List Char) : split separator cs ≠ [] := by
  cases cs with
  | nil => exact List.cons_ne_nil _ _
  | cons c cs =>
    rw [split]
    split
    · exact List.cons_ne_nil _ _
    · split <;> exact List.cons_ne_nil _ _

/-- Joining undoes splitting. -/
theorem joined_split (separator : Char) (cs : List Char) :
    joined separator (split separator cs) = cs := by
  induction cs with
  | nil => rfl
  | cons c cs ih =>
    rw [split]
    cases hpieces : split separator cs with
    | nil => exact absurd hpieces (split_ne_nil separator cs)
    | cons piece pieces =>
      rw [hpieces] at ih
      split
      next hc => rw [joined, ih, hc, List.nil_append]
      next =>
        cases pieces with
        | nil => exact congrArg (c :: ·) ih
        | cons next pieces =>
          rw [joined] at ih ⊢
          rw [List.cons_append, ih]

theorem split_append {separator : Char} {piece : List Char} (h : separator ∉ piece)
    (rest : List Char) :
    split separator (piece ++ separator :: rest) = piece :: split separator rest := by
  induction piece with
  | nil => simp [split]
  | cons c cs ih =>
    simp only [List.mem_cons, not_or] at h
    simp [split, Ne.symm h.1, ih h.2]

theorem split_eq_singleton {separator : Char} {piece : List Char} (h : separator ∉ piece) :
    split separator piece = [piece] := by
  induction piece with
  | nil => rfl
  | cons c cs ih =>
    simp only [List.mem_cons, not_or] at h
    simp [split, Ne.symm h.1, ih h.2]

theorem split_joined {separator : Char} {pieces : List (List Char)}
    (hne : pieces ≠ []) (h : ∀ piece ∈ pieces, separator ∉ piece) :
    split separator (joined separator pieces) = pieces := by
  induction pieces with
  | nil => exact absurd rfl hne
  | cons piece rest ih =>
    cases rest with
    | nil => exact split_eq_singleton (h piece (.head _))
    | cons next pieces =>
      rw [joined, split_append (h piece (.head _)),
        ih (List.cons_ne_nil _ _) fun p hp => h p (.tail _ hp)]

end Text
end CalendarRules
