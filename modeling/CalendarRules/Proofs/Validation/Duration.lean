import CalendarRules.Proofs.Binary64.Order
import CalendarRules.Proofs.Event.Payload
import CalendarRules.Proofs.Validation.Topic
import CalendarRules.Validation.Rules

/-!
# Two ways to limit a duration

The duration of an event can be limited by the constraints `minDuration` and `maxDuration`, or by a
rule that asks for the path `duration` to lie between two literals.  Both look at the same measure
of the same value, and both turn a literal into minutes, the constraints as a double and the rule as
a value.  A value holds no infinity: a literal whose minutes are too large for a double is `null`
there, which counts as zero (`Duration.bound`).

So the rule demands what the constraints demand with these bounds (`Rule.between_duration_iff`), and
the two agree as long as no bound overflows (`Event.limits_iff_between`).  Where one does, they part
(`Event.limits_ne_between_overflow`).

Messages about the duration are told from all others by their first two words.
-/

namespace CalendarRules

namespace Duration

/-- What a rule takes a duration for: its minutes, or zero if there is no double for them. -/
def bound (d : Duration) : Finite64 := d.minutes.finite?.getD .zero

theorem toNumber?_toValue (d : Duration) : (Literal.duration d).toValue.toNumber? = some d.bound := by
  rw [Literal.toValue, bound]
  cases d.minutes with
  | finite x => rfl
  | infinite negative => rfl

theorem minutes_eq_bound {d : Duration} (h : d.minutes.finite?.isSome = true) :
    d.minutes = .finite d.bound := by
  rw [bound]
  cases hd : d.minutes with
  | finite x => rfl
  | infinite negative =>
    rw [hd] at h
    cases h

end Duration

namespace Event

variable {e : Event} {scope : Scope}

/-! ## What the limits demand -/

/-- If the duration is limited at all, it can be measured, and its measure lies between the limits.
-/
theorem durationViolations_eq_nil_iff {min max : Option Binary64} :
    e.durationViolations min max = [] ↔ (min = none ∧ max = none) ∨
      ∃ x, e.duration.measure? = some x ∧
        (∀ m ∈ min, m.toInt ≤ x.toInt) ∧ (∀ m ∈ max, x.toInt ≤ m.toInt) := by
  unfold durationViolations
  cases min <;> cases max <;> cases e.duration.measure? <;>
    simp [complaint_eq_nil_iff, Binary64.lt_eq_false_iff]

theorem field_duration : e.field scope ⟨["duration"]⟩ = e.duration := by
  rw [field_eq_ownField (by simp)]
  rfl

theorem isUndefined_duration : e.duration.isUndefined = false := by
  unfold duration
  split
  next => split <;> rfl
  next => rfl

end Event

namespace Rule

variable {e : Event} {scope : Scope}

/-- A rule about the duration demands what the limits demand, with the bounds that it takes the
literals for. -/
theorem between_duration_iff {lo hi : Duration} :
    (Rule.between ⟨["duration"]⟩ (.duration lo) (.duration hi)).violations e scope = [] ↔
      e.durationViolations (some (.finite lo.bound)) (some (.finite hi.bound)) = [] := by
  rw [violations, betweenViolations, Event.field_duration, Event.isUndefined_duration,
    Event.durationViolations_eq_nil_iff, lo.toNumber?_toValue, hi.toNumber?_toValue]
  cases e.duration.measure? with
  | none => simp
  | some x => simp [Binary64.lt_eq_false_iff]

end Rule

namespace Event

variable {e : Event} {scope : Scope}

/-! ## Messages -/

/-- What is said about the duration of an event. -/
def IsDurationMessage (message : String) : Prop := "Event duration".toList <+: message.toList

/-- Nothing is said about the duration. -/
def NoDurationMessage (messages : List String) : Prop := ∀ m ∈ messages, ¬ IsDurationMessage m

theorem isDurationMessage_iff {message : String} :
    IsDurationMessage message ↔ Topic.duration.IsAbout message :=
  Text.opensWith_singleton_iff.symm

/-- Of everything that is said about the time of an event, only what the limits on the duration find
is about the duration. -/
theorem noDurationMessage_timeViolations_iff [TimeZones] {constraints : List Constraint} :
    NoDurationMessage (e.timeViolations constraints scope) ↔
      e.durationViolations (Constraint.minutes? "minDuration" constraints)
        (Constraint.minutes? "maxDuration" constraints) = [] := by
  have hsilent : NoDurationMessage (e.timeViolations constraints scope) ↔
      e.Silent constraints scope .duration := by
    simp only [NoDurationMessage, Silent, isDurationMessage_iff]
  rw [hsilent, silent_iff]
  rfl

/-! ## Limits against rules -/

/-- The limits on the duration say nothing exactly when the rule with the same bounds does, provided
that there are doubles for the minutes of both bounds. -/
theorem limits_iff_between [TimeZones] (e : Event) (scope : Scope) (constraints : List Constraint)
    (lo hi : Duration) (hmin : Constraint.named? "minDuration" constraints = some (.duration lo))
    (hmax : Constraint.named? "maxDuration" constraints = some (.duration hi))
    (hlo : lo.minutes.finite?.isSome = true) (hhi : hi.minutes.finite?.isSome = true) :
    NoDurationMessage (e.timeViolations constraints scope) ↔
      (Rule.between ⟨["duration"]⟩ (.duration lo) (.duration hi)).violations e scope = [] := by
  have hleast : Constraint.minutes? "minDuration" constraints = some (.finite lo.bound) := by
    rw [Constraint.minutes?, hmin, ← Duration.minutes_eq_bound hlo]
    rfl
  have hgreatest : Constraint.minutes? "maxDuration" constraints = some (.finite hi.bound) := by
    rw [Constraint.minutes?, hmax, ← Duration.minutes_eq_bound hhi]
    rfl
  rw [noDurationMessage_timeViolations_iff, Rule.between_duration_iff, hleast, hgreatest]

/-- A film of two hours, which a payload says to be a matter of three. -/
def directorsCut : Event where
  id := "1"
  type := "film"
  start := ⟨20455, 36000, 0, by decide⟩
  finish := ⟨20455, 43200, 0, by decide⟩
  extra := [("duration", .object [("value", .ofNat 3), ("unit", .string "hours")])]

/-- Two hours at most are demanded of three. -/
theorem limits_iff_between_cut :
    NoDurationMessage (directorsCut.timeViolations
      [⟨"maxDuration", .duration ⟨.ofInt 2 (by decide), "hours"⟩⟩,
        ⟨"minDuration", .duration ⟨.one, "minutes"⟩⟩] { clock := directorsCut.start }) ↔
      (Rule.between ⟨["duration"]⟩ (.duration ⟨.one, "minutes"⟩)
        (.duration ⟨.ofInt 2 (by decide), "hours"⟩)).violations directorsCut
          { clock := directorsCut.start } = [] :=
  limits_iff_between directorsCut { clock := directorsCut.start } _ _ _ rfl rfl
    (by decide +kernel) (by decide +kernel)

/-- The largest power of two among doubles. -/
def largest : Finite64 := ⟨false, twoPow 2097, by decide +kernel⟩

/-- A film of two hours. -/
def premiere : Event := { directorsCut with extra := [] }

/-- Two hours are no more than a number of weeks that has no double in minutes.  The limit says so,
but the rule takes that number for zero. -/
theorem limits_ne_between_overflow :
    NoDurationMessage (premiere.timeViolations
      [⟨"minDuration", .duration ⟨.zero, "minutes"⟩⟩, ⟨"maxDuration", .duration ⟨largest, "weeks"⟩⟩]
      { clock := premiere.start }) ∧
    (Rule.between ⟨["duration"]⟩ (.duration ⟨.zero, "minutes"⟩)
      (.duration ⟨largest, "weeks"⟩)).violations premiere { clock := premiere.start } ≠ [] := by
  constructor
  · rw [noDurationMessage_timeViolations_iff]
    decide +kernel
  · rw [Ne, Rule.between_duration_iff]
    decide +kernel

end Event
end CalendarRules
