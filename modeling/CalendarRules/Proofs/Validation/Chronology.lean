import CalendarRules.Proofs.Time.Plain
import CalendarRules.Proofs.Value.Integer
import CalendarRules.Proofs.Value.Scale
import CalendarRules.Validation.Condition

/-!
# Comparing dates

An event shows the dates of its start and its finish as texts, and a condition compares such a text
with another one.  Two texts of dates are not compared as texts, but as the milliseconds of their
first instants.  These are exact doubles, so every operator gives what it stands for among dates
(`Operator.compare_dates`).

The text that an event shows is that of a date as long as four digits are enough for its year, and
then a condition on it is one about the calendar (`Expression.holds_date_iff`).  Past these years
the text is no date, and nothing that is a date compares with it (`Operator.compare_date_of_out`).
-/

namespace CalendarRules

namespace Date

variable {d d' : Date} {s : String}

theorem exists_millis_eq_finite (hfirst : 0 ≤ d.year) (hlast : d.year ≤ 9999) :
    ∃ x : Finite64, d.millis = .finite x ∧ x.toInt = 86400000 * d.toDay * unitsPerOne := by
  have hdays := natAbs_toDay_le hfirst hlast
  have hfew : (d.toDay * 86400000).natAbs < twoPow 128 := by
    have hpow : 3000000 * 86400000 < twoPow 128 := by decide
    omega
  refine ⟨.ofInt _ hfew, (Finite64.finite_ofInt hfew).symm, ?_⟩
  rw [← toInt_millis hfirst hlast, millis, ← Finite64.finite_ofInt hfew, Binary64.toInt_finite]

end Date

namespace Operator

variable {d d' : Date} {s s' : String}

/-- The relation of two dates that an operator stands for. -/
def ofDates : Operator → Date → Date → Prop
  | .is, d, d' | .equals, d, d' => d = d'
  | .isNot, d, d' | .notEquals, d, d' => d ≠ d'
  | .greater, d, d' => d'.Precedes d
  | .atLeast, d, d' => d = d' ∨ d'.Precedes d
  | .less, d, d' => d.Precedes d'
  | .atMost, d, d' => d = d' ∨ d.Precedes d'
  | .unknown _, _, _ => False

theorem ofIntegers_toDay_iff (op : Operator) :
    op.ofIntegers d.toDay d'.toDay = true ↔ op.ofDates d d' := by
  cases op with
  | is | equals => exact beq_iff_eq.trans Date.toDay_inj
  | isNot | notEquals => exact bne_iff_ne.trans (not_congr Date.toDay_inj)
  | greater => exact decide_eq_true_iff.trans Date.toDay_lt_iff_precedes
  | atLeast =>
    refine decide_eq_true_iff.trans ?_
    rw [Date.toDay_le_iff, eq_comm, ofDates]
  | less => exact decide_eq_true_iff.trans Date.toDay_lt_iff_precedes
  | atMost => exact decide_eq_true_iff.trans Date.toDay_le_iff
  | unknown word => exact iff_of_false Bool.false_ne_true id

/-- Two texts of dates are compared as dates. -/
theorem compare_dates (op : Operator) (h : Date.ofText? s = some d)
    (h' : Date.ofText? s' = some d') :
    op.compare (.json (.string s)) (.json (.string s')) = true ↔ op.ofDates d d' := by
  obtain ⟨hfirst, hlast, -⟩ := Date.text_of_ofText? h
  obtain ⟨hfirst', hlast', -⟩ := Date.text_of_ofText? h'
  obtain ⟨x, hx, hunits⟩ := Date.exists_millis_eq_finite hfirst hlast
  obtain ⟨x', hx', hunits'⟩ := Date.exists_millis_eq_finite hfirst' hlast'
  have hpos : (0 : Int) < unitsPerOne := Int.natCast_pos.2 unitsPerOne_pos
  have horder : op.ofIntegers x.toInt x'.toInt = op.ofIntegers d.toDay d'.toDay := by
    rw [hunits, hunits']
    refine ofIntegers_congr ?_ ?_ <;>
    · rw [Int.mul_lt_mul_right hpos]
      omega
  have hdoubles : op.compare (.json (.string s)) (.json (.string s')) =
      op.ofIntegers x.toInt x'.toInt := by
    rw [Operator.compare, Value.aligned, Date.date?_string, Date.date?_string, h, h',
      Option.map_some, Option.map_some, hx, hx']
    exact relates_numbers op (.float x) (.float x')
  rw [hdoubles, horder, ofIntegers_toDay_iff]

/-- The text of a date with another number of digits for the year has nothing in common with a text
of a date. -/
theorem compare_date_of_out (op : Operator) (hout : ¬ (0 ≤ d.year ∧ d.year ≤ 9999))
    (h' : Date.ofText? s' = some d') :
    op.compare (.json (.string (String.ofList d.text))) (.json (.string s')) = op.apart := by
  have hscale : Value.scale (.json (.string s')) = .date := by
    rw [Value.scale, Date.date?_string, h']
    rfl
  have hother : Value.scale (.json (.string (String.ofList d.text))) ≠ .date := by
    rw [Value.scale, Date.date?_string, Date.ofText?_text_of_out hout, Option.map_none]
    show (if _ then Scale.clock else Scale.plain) ≠ .date
    split <;> decide
  rw [compare_eq, if_neg (hscale ▸ hother)]

end Operator

namespace Event

variable (e : Event) (scope : Scope)

theorem field_start_date :
    e.field scope ⟨["startTime", "date"]⟩ = .json (.string (String.ofList e.start.date.text)) :=
  rfl

theorem field_finish_date :
    e.field scope ⟨["endTime", "date"]⟩ = .json (.string (String.ofList e.finish.date.text)) :=
  rfl

end Event

namespace Expression

/-- The comparison of a field with a text. -/
def comparedWith (op : Operator) (path : FieldPath) (s : String) : Expression :=
  .comparison op (.expression (.field path)) (.value (.string s))

theorem holds_comparedWith (e : Event) (scope : Scope) (op : Operator) (path : FieldPath)
    (s : String) :
    (comparedWith op path s).holds e scope =
      op.compare (e.field scope path) (.json (.string s)) := by
  rw [comparedWith, holds, Operand.value, Literal.toValue]

/-- The date of the start or the finish of an event, if four digits are enough for its year, stands
to the text of a date in the relation of calendar dates that the operator means. -/
theorem holds_date_iff (e : Event) (scope : Scope) (op : Operator) {s : String} {d : Date}
    (h : Date.ofText? s = some d) :
    (∃ year : Nat, d.year = year ∧ Date.Spells year d.month d.day s) ∧
    (0 ≤ e.start.date.year → e.start.date.year ≤ 9999 →
      ((comparedWith op ⟨["startTime", "date"]⟩ s).holds e scope = true ↔
        op.ofDates e.start.date d)) ∧
    (0 ≤ e.finish.date.year → e.finish.date.year ≤ 9999 →
      ((comparedWith op ⟨["endTime", "date"]⟩ s).holds e scope = true ↔
        op.ofDates e.finish.date d)) := by
  refine ⟨Date.exists_spells_of_ofText? h, fun hfirst hlast => ?_, fun hfirst hlast => ?_⟩
  · rw [holds_comparedWith, Event.field_start_date]
    exact op.compare_dates (Date.ofText?_text hfirst hlast) h
  · rw [holds_comparedWith, Event.field_finish_date]
    exact op.compare_dates (Date.ofText?_text hfirst hlast) h

/-- From half past eleven in the evening of a leap day to one in the morning. -/
def leapNight : Event where
  id := "1"
  type := "show"
  start := ⟨19782, 84600, 0, by decide⟩
  finish := ⟨19783, 3600, 0, by decide⟩

/-- The night begins before the first of March, on which it ends. -/
theorem holds_date_iff_leapNight :
    (comparedWith .less ⟨["startTime", "date"]⟩ "2024-03-01").holds leapNight
        { clock := leapNight.start } = true ∧
      (comparedWith .is ⟨["endTime", "date"]⟩ "2024-03-01").holds leapNight
        { clock := leapNight.start } = true ∧
      (comparedWith .isNot ⟨["endTime", "date"]⟩ "2024-03-01").holds leapNight
        { clock := leapNight.start } = false := by
  have hread : Date.ofText? "2024-03-01" = some ⟨2024, 3, 1, by decide⟩ := by decide +kernel
  have hstart : leapNight.start.date = ⟨2024, 2, 29, by decide⟩ := by decide +kernel
  have hfinish : leapNight.finish.date = ⟨2024, 3, 1, by decide⟩ := by decide +kernel
  have hdates (op : Operator) :=
    (holds_date_iff leapNight { clock := leapNight.start } op hread).2
  rw [hstart, hfinish] at hdates
  refine ⟨((hdates .less).1 (by decide) (by decide)).2 (.inr ⟨rfl, .inl (by decide)⟩),
    ((hdates .is).2 (by decide) (by decide)).2 rfl, ?_⟩
  rw [Bool.eq_false_iff, Ne, (hdates .isNot).2 (by decide) (by decide)]
  exact fun hne => hne rfl

end Expression
end CalendarRules
