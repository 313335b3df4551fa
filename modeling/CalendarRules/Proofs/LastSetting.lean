import Mathlib.Data.List.Basic

/-!
# What was set last

Several parts of a declaration are lists of settings, gone through from the beginning: a rule sets
something or leaves it as it is.  What one sees in the end is the last setting, or what was there
before the first (`observe_foldl`).  What one sees may be a part of the state only, such as one of
several properties, and the other settings then count as none.
-/

namespace CalendarRules

variable {α β γ σ : Type} {step : σ → α → σ} {setting? : α → Option β} {shown : β → γ}

/-- If one step shows its setting, or what was seen before where it has none, then the whole list
shows the last setting. -/
theorem observe_foldl (observe : σ → γ)
    (h : ∀ s x, observe (step s x) = ((setting? x).map shown).getD (observe s))
    (xs : List α) (s : σ) :
    observe (xs.foldl step s) = ((xs.filterMap setting?).getLast?.map shown).getD (observe s) := by
  induction xs generalizing s with
  | nil => rfl
  | cons x xs ih =>
    rw [List.foldl_cons, ih, h, List.filterMap_cons]
    cases setting? x with
    | none => rfl
    | some b =>
      rw [List.getLast?_cons]
      cases (xs.filterMap setting?).getLast? with
      | none => rfl
      | some c => rfl

end CalendarRules
