import CalendarRules.Proofs.Binary64.Shortest
import CalendarRules.Proofs.Time.Instant
import CalendarRules.Proofs.Validation.Limits
import CalendarRules.Proofs.Validation.Loosening

/-!
# Two ways to forbid a midnight

An event that may not cross midnight has to start and to finish on one date.  A limit on the number
of midnights counts the dates from the start to the finish, and holds the count against a number of
days that a duration gives by way of its minutes.  Dates do not run backwards, so that a count of at
most zero is a count of zero; and zero stays zero on the way through any unit.  So the two agree
(`Event.crossing_iff_spanning`).

The way from days to minutes and back is exact up to `2^53` minutes.  There a duration in days and
the bare number limit the midnights alike.
-/

namespace CalendarRules

open Binary64

/-! ## Limits in days -/

namespace ConstraintValue

/-- The number that is written in a literal, in units of `2^-1074`. -/
def units? : ConstraintValue → Option Int
  | .duration d => some d.value.toInt
  | .literal (.number n) => some n.units
  | _ => none

/-- No time at all is no days, whatever unit it is written in. -/
theorem exists_days?_of_zero {v : ConstraintValue} (h : v.units? = some 0) :
    ∃ x, v.days? = some x ∧ x.toInt = 0 := by
  cases v with
  | range min max => cases h
  | duration d =>
    have hminutes : d.minutes.toInt = 0 := by
      rw [Duration.minutes, Duration.minutesOf, toInt_mulNat_zero _ (Option.some.inj h)]
    exact ⟨_, rfl, toInt_divNat_zero 1440 hminutes⟩
  | literal j =>
    cases j with
    | number n =>
      have hzero : n.units = ((0 * unitsPerOne : Nat) : Int) := by
        rw [Nat.zero_mul]
        exact Option.some.inj h
      have hdouble := Number.toInt_toDouble_of_le (Nat.zero_le _) hzero
      rw [Nat.zero_mul] at hdouble
      exact ⟨.finite n.toDouble, rfl, hdouble⟩
    | _ => cases h

end ConstraintValue

/-- Whole days are exact, though they are turned into minutes and back. -/
theorem Duration.toInt_days {x : Finite64} {n : Nat} (h : n * 1440 ≤ twoPow 53)
    (hx : x.toInt = (n * unitsPerOne : Nat)) :
    ((Duration.minutes ⟨x, "days"⟩).divNat 1440).toInt = (n * unitsPerOne : Nat) := by
  have hminutes : (Duration.minutes ⟨x, "days"⟩).toInt = (n * 1440 * unitsPerOne : Nat) := by
    rw [minutes, minutesOf, show minutesPerUnit "days" = 1440 from rfl, toInt_mulNat_of_le h hx]
  exact toInt_divNat_of_le (by decide) h hminutes

namespace Event

variable {e : Event} {scope : Scope}

/-! ## One date -/

theorem mem_crossing_iff [TimeZones] (h : e.allDay ≠ some true) :
    "Event cannot span multiple days" ∈
        e.timeViolations [⟨"allowCrossDay", .literal (.bool false)⟩] scope ↔
      e.start.day ≠ e.finish.day := by
  have habout : Topic.days.IsAbout "Event cannot span multiple days" :=
    ⟨"Event cannot span multiple days", .tail _ (.head _), "", rfl⟩
  rw [← and_iff_left (a := _ ∈ _) habout, ← mem_violationsOn_iff, violationsOn,
    Constraint.named?_cons_self, dayViolations, if_neg h, mem_complaint]
  simp

theorem silent_span_iff [TimeZones] {v : ConstraintValue} {x : Binary64}
    (h : e.start.lt e.finish = true) (hv : v.days? = some x) (hx : x.toInt = 0) :
    e.Silent [⟨"maxCrossDayDuration", v⟩] scope .span ↔ e.start.day = e.finish.day := by
  have hle := Instant.day_le_of_lt h
  rw [silent_iff, violationsOn, Constraint.named?_cons_self, Option.bind_some, hv,
    spanViolations_eq_nil_iff]
  simp only [Option.mem_some_iff, forall_eq', hx, toInt_ofInt_nonpos_iff]
  omega

/-! ## One limit on midnights -/

/-- A limit on midnights is read as a number and shown as a text, and one number has one text. -/
theorem spanViolations_congr {x y : Binary64} (h : x.toInt = y.toInt) :
    e.spanViolations (some x) = e.spanViolations (some y) := by
  rw [spanViolations, spanViolations, lt, lt, h, message_congr h]

theorem timeViolations_span_congr [TimeZones] {v w : ConstraintValue} {x y : Binary64}
    (hv : v.days? = some x) (hw : w.days? = some y) (h : x.toInt = y.toInt) :
    e.timeViolations [⟨"maxCrossDayDuration", v⟩] scope =
      e.timeViolations [⟨"maxCrossDayDuration", w⟩] scope := by
  have hother (u : ConstraintValue) {name : String} (hname : "maxCrossDayDuration" ≠ name) :
      Constraint.named? name [⟨"maxCrossDayDuration", u⟩] = none :=
    Constraint.named?_cons_of_ne hname []
  rw [timeViolations_eq_flatMap, timeViolations_eq_flatMap]
  congr 1
  funext t
  cases t with
  | span =>
    simp only [violationsOn, Constraint.named?_cons_self, Option.bind_some, hv, hw]
    exact spanViolations_congr h
  | _ => simp (disch := decide) only [violationsOn, Constraint.minutes?, hother]

/-- An event that is not of whole days has two dates exactly if it crosses more midnights than none,
in whatever unit none is written.  A limit of up to a million whole days says the same with a bare
number and with a duration in days. -/
theorem crossing_iff_spanning [TimeZones] (e : Event) (scope : Scope) :
    (e.start.lt e.finish = true → e.allDay ≠ some true →
      ∀ zero : ConstraintValue, zero.units? = some 0 →
        ("Event cannot span multiple days" ∈
            e.timeViolations [⟨"allowCrossDay", .literal (.bool false)⟩] scope ↔
          ¬ e.Silent [⟨"maxCrossDayDuration", zero⟩] scope .span)) ∧
    (∀ (d : Nat) (n : Number) (x : Finite64), d ≤ 1000000 → n.units = (d * unitsPerOne : Nat) →
      x.toInt = (d * unitsPerOne : Nat) →
        e.timeViolations [⟨"maxCrossDayDuration", .literal (.number n)⟩] scope =
          e.timeViolations [⟨"maxCrossDayDuration", .duration ⟨x, "days"⟩⟩] scope) := by
  constructor
  · intro hlt hday zero hzero
    obtain ⟨x, hdays, hx⟩ := ConstraintValue.exists_days?_of_zero hzero
    rw [mem_crossing_iff hday, silent_span_iff hlt hdays hx]
  · intro d n x hd hn hx
    have hexact : d * 1440 ≤ twoPow 53 :=
      Nat.le_trans (Nat.mul_le_mul_right 1440 hd) (by decide)
    have hle : d ≤ twoPow 53 := Nat.le_trans (Nat.le_mul_of_pos_right d (by decide)) hexact
    refine timeViolations_span_congr (x := .finite n.toDouble) rfl rfl ?_
    rw [toInt_finite, Number.toInt_toDouble_of_le hle hn, Duration.toInt_days hexact hx]

/-- A screening past midnight crosses more midnights than none in weeks, and a limit of a million
days is the same in both forms. -/
theorem crossing_iff_spanning_screening :
    lateScreening.timeViolations [⟨"maxCrossDayDuration", .duration ⟨.zero, "weeks"⟩⟩]
      { clock := lateScreening.start } = ["Event spans 1 days, exceeding the maximum of 0 days"] ∧
    ("Event cannot span multiple days" ∈ lateScreening.timeViolations
        [⟨"allowCrossDay", .literal (.bool false)⟩] { clock := lateScreening.start } ↔
      ¬ lateScreening.Silent [⟨"maxCrossDayDuration", .duration ⟨.zero, "weeks"⟩⟩]
        { clock := lateScreening.start } .span) ∧
    lateScreening.timeViolations
        [⟨"maxCrossDayDuration", .literal (.number (.int 1000000 (by decide)))⟩]
        { clock := lateScreening.start } =
      lateScreening.timeViolations
        [⟨"maxCrossDayDuration", .duration ⟨.ofInt 1000000 (by decide), "days"⟩⟩]
        { clock := lateScreening.start } := by
  obtain ⟨hcrossing, hdays⟩ := crossing_iff_spanning lateScreening { clock := lateScreening.start }
  refine ⟨by decide +kernel, ?_, ?_⟩
  · exact hcrossing (by decide) (by decide) (.duration ⟨.zero, "weeks"⟩) (by decide +kernel)
  · exact hdays 1000000 (.int 1000000 (by decide)) (.ofInt 1000000 (by decide)) (by decide)
      (by decide +kernel) (by decide +kernel)

end Event
end CalendarRules
