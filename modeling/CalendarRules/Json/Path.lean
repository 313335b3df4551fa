import CalendarRules.Json
import CalendarRules.Text.Digits

/-!
# Paths into documents

A path goes down a document segment by segment: a key of an object, or a position in an array
counted from zero.  On an array the segment `count` is its length, and leads no further.
-/

namespace CalendarRules
namespace Json

/-- The position that a segment spells; a plus sign may stand in front. -/
def position? (segment : String) : Option Nat :=
  let digits := match segment.toList with
    | '+' :: cs => cs
    | cs => cs
  if Text.isNumeral digits then some (Text.decimalValue digits) else none

/-- What one segment leads to. -/
def child? (segment : String) : Json → Option Json
  | .array items =>
    if segment = "count" then some (.ofNat items.length)
    else (position? segment).bind fun i => items[i]?
  | .object entries => Entries.get? segment entries
  | _ => none

/-- What a path leads to. -/
def walk? (j : Json) : List String → Option Json
  | [] => some j
  | segment :: path => (j.child? segment).bind fun k => k.walk? path

theorem walk?_append (j : Json) (p q : List String) :
    j.walk? (p ++ q) = (j.walk? p).bind fun k => k.walk? q := by
  induction p generalizing j with
  | nil => rfl
  | cons segment p ih =>
    simp only [List.cons_append, walk?]
    cases j.child? segment with
    | none => rfl
    | some k => exact ih k

end Json
end CalendarRules
