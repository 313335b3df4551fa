import CalendarRules.Proofs.Binary64.Order
import CalendarRules.Proofs.Value.Order
import CalendarRules.Validation.Rules

/-!
# Bounds as two comparisons

That the value of a field lies between two literals can be asked by a rule, or by two comparisons of
the field, one with each literal.  The two bring a value to a number in different ways.  The rule
takes its measure: the minutes of what has the form of a duration, and else the number that the value
stands for.  A comparison looks at both of its sides first, and compares two dates as dates and two
clock times as clock times.

For all other values both come down to the number that the value stands for, whatever the bounds are
(`Rule.violations_between_eq_nil_iff_holds`).  A date or a clock time stands for none, so that the
rule refuses it even between two dates (`Rule.violations_between_ne_nil_of_scale`).
-/

namespace CalendarRules

namespace Value

variable {v : Value}

/-- An object with a number for its value and a string for its unit. -/
def HasDurationForm (v : Value) : Prop :=
  ∃ entries n unit, v = json (.object entries) ∧
    Entries.get? "value" entries = some (.number n) ∧
    Entries.get? "unit" entries = some (.string unit)

/-- A string that is a date. -/
def IsDateText (v : Value) : Prop := ∃ s d, v = json (.string s) ∧ Date.ofText? s = some d

/-- A string that is a clock time. -/
def IsClockText (v : Value) : Prop := ∃ s t, v = json (.string s) ∧ ClockTime.ofText? s = some t

theorem scale_eq_plain (hdate : ¬ v.IsDateText) (hclock : ¬ v.IsClockText) : v.scale = .plain := by
  obtain ⟨a, -, ha, -⟩ | ⟨a, -, -, ha, -⟩ | ⟨hscale, -⟩ := scale_cases v
  · exact absurd (exists_of_date? ha) hdate
  · exact absurd (exists_of_clock? ha) hclock
  · exact hscale

theorem hasDurationForm_of_durationMinutes? {m : Binary64} (h : v.durationMinutes? = some m) :
    v.HasDurationForm := by
  unfold durationMinutes? at h
  split at h
  next entries =>
    obtain ⟨j, hj, h⟩ := Option.bind_eq_some_iff.1 h
    obtain ⟨x, hx, h⟩ := Option.bind_eq_some_iff.1 h
    obtain ⟨k, hk, h⟩ := Option.bind_eq_some_iff.1 h
    obtain ⟨unit, hunit, -⟩ := Option.bind_eq_some_iff.1 h
    cases j <;> cases hx
    cases k <;> cases hunit
    exact ⟨entries, _, _, rfl, hj, hk⟩
  next => cases h

/-- What has not the form of a duration measures the number that it stands for. -/
theorem measure?_toInt (h : ¬ v.HasDurationForm) : v.measure?.map Binary64.toInt = v.units? := by
  have hnone : v.durationMinutes? = none :=
    Option.eq_none_iff_forall_ne_some.2 fun m hm => h (hasDurationForm_of_durationMinutes? hm)
  rw [measure?, hnone, Option.none_or, Option.map_map, units?]
  rfl

theorem isUndefined_of_measure? {x : Binary64} (h : v.measure? = some x) :
    v.isUndefined = false := by
  cases v with
  | undefined => cases h
  | json _ | instant _ => rfl

theorem measure?_of_scale_ne_plain (h : v.scale ≠ .plain) : v.measure? = none := by
  obtain ⟨s, rfl, hs⟩ := exists_of_scale_ne h
  rw [measure?, toNumber?, hs]
  rfl

end Value

namespace Rule

variable {e : Event} {scope : Scope} {path : FieldPath} {lo hi : Literal}

/-- The field can be measured, both bounds stand for numbers, and its measure lies between them. -/
theorem violations_between_eq_nil_iff :
    (between path lo hi).violations e scope = [] ↔
      ∃ m low high, (e.field scope path).measure?.map Binary64.toInt = some m ∧
        lo.toValue.units? = some low ∧ hi.toValue.units? = some high ∧ low ≤ m ∧ m ≤ high := by
  rw [violations, betweenViolations, Value.units?, Value.units?]
  cases hmeasure : (e.field scope path).measure? with
  | none => split <;> simp
  | some x =>
    rw [Value.isUndefined_of_measure? hmeasure, if_neg Bool.false_ne_true]
    cases lo.toValue.toNumber? with
    | none => simp
    | some low =>
      cases hi.toValue.toNumber? with
      | none => simp
      | some high => simp [Binary64.lt_eq_false_iff]

/-- A date or a clock time lies between no bounds. -/
theorem violations_between_ne_nil_of_scale (h : (e.field scope path).scale ≠ .plain) :
    (between path lo hi).violations e scope ≠ [] := by
  rw [Ne, violations_between_eq_nil_iff, Value.measure?_of_scale_ne_plain h]
  rintro ⟨m, -, -, hm, -⟩
  cases hm

/-- For a field that has not the form of a duration and is neither a date nor a clock time, the rule
that asks for a value between two bounds accepts exactly if the field is at least the one and at most
the other. -/
theorem violations_between_eq_nil_iff_holds (e : Event) (scope : Scope) (path : FieldPath)
    (lo hi : Literal) (hduration : ¬ (e.field scope path).HasDurationForm)
    (hdate : ¬ (e.field scope path).IsDateText) (hclock : ¬ (e.field scope path).IsClockText) :
    (between path lo hi).violations e scope = [] ↔
      (Expression.comparison .atLeast (.expression (.field path)) lo).holds e scope = true ∧
      (Expression.comparison .atMost (.expression (.field path)) hi).holds e scope = true := by
  have hscale := Value.scale_eq_plain hdate hclock
  rw [violations_between_eq_nil_iff, Value.measure?_toInt hduration, Expression.holds,
    Expression.holds, Operand.value, Operator.atLeast_iff, Operator.atMost_iff,
    Value.exists_place?_iff_of_plain hscale (fun m n => n ≤ m),
    Value.exists_place?_iff_of_plain hscale (fun m n => m ≤ n)]
  constructor
  · rintro ⟨m, low, high, hm, hlow, hhigh, hle, hge⟩
    exact ⟨⟨m, low, hm, hlow, hle⟩, ⟨m, high, hm, hhigh, hge⟩⟩
  · rintro ⟨⟨m, low, hm, hlow, hle⟩, ⟨m', high, hm', hhigh, hge⟩⟩
    obtain rfl := Option.some.inj (hm.symm.trans hm')
    exact ⟨m, low, high, hm, hlow, hhigh, hle, hge⟩

/-- A concert whose payload spells its length in minutes. -/
def concert : Event where
  id := "1"
  type := "concert"
  start := ⟨20468, 68400, 0, by decide⟩
  finish := ⟨20468, 75600, 0, by decide⟩
  extra := [("music", .string " 95.5 ")]

/-- A length that is spelled as a number, between a flag and two hours. -/
theorem violations_between_eq_nil_iff_holds_concert :
    (between ⟨["music"]⟩ (.value (.bool true)) (.duration ⟨.ofInt 2 (by decide), "hours"⟩)).violations
        concert { clock := concert.start } = [] ∧
      (Expression.comparison .atLeast (.expression (.field ⟨["music"]⟩))
        (.value (.bool true))).holds concert { clock := concert.start } = true ∧
      (Expression.comparison .atMost (.expression (.field ⟨["music"]⟩))
        (.duration ⟨.ofInt 2 (by decide), "hours"⟩)).holds concert { clock := concert.start } =
        true := by
  have hfield : concert.field { clock := concert.start } ⟨["music"]⟩ =
      .json (.string " 95.5 ") := rfl
  have hiff := violations_between_eq_nil_iff_holds concert { clock := concert.start } ⟨["music"]⟩
    (.value (.bool true)) (.duration ⟨.ofInt 2 (by decide), "hours"⟩)
    (by rw [hfield]; rintro ⟨_, _, _, h, -⟩; cases h)
    (by rw [hfield]; rintro ⟨_, _, h, hd⟩; cases h; cases hd)
    (by rw [hfield]; rintro ⟨_, _, h, ht⟩; cases h; cases ht)
  have haccepts : (between ⟨["music"]⟩ (.value (.bool true))
      (.duration ⟨.ofInt 2 (by decide), "hours"⟩)).violations concert { clock := concert.start } =
      [] := by
    decide +kernel
  exact ⟨haccepts, hiff.1 haccepts⟩

end Rule
end CalendarRules
