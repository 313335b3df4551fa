import CalendarRules.Proofs.Outcome
import CalendarRules.Proofs.Recurrence.Clauses
import CalendarRules.Proofs.Time.Zone
import CalendarRules.Recurrence.Expansion
import CalendarRules.Validation

/-!
# Refused recurrences

A recurrence is looked at twice: validation lists its problems among what is wrong with the time of
an event, and expansion refuses to start if there are any.  The two agree, word for word and in
order (`Event.occurrences_refused`).  Problems come first in an expansion; only a recurrence without
any, which names no zone itself, can be refused for a zone, and that zone is the event's.

Which zones are known, and what the engine takes, does not matter for that.  Nothing that happens
later in an expansion is told as one of these two refusals: a rule that the engine refuses says so,
and an occurrence fails only by leaving the range of instants.
-/

namespace CalendarRules

namespace Recurrence

variable [TimeZones] {r : Recurrence}

/-- A recurrence without problems names a zone that exists, if it names one. -/
theorem isSome_ofName?_of_problems (h : r.problems = []) {name : String}
    (hname : r.timeZone = some name) : (Zone.ofName? name).isSome = true :=
  problems_eq_nil_iff.1 h .zone name hname

/-- A recurrence without problems steps forward. -/
theorem interval_pos_of_problems (h : r.problems = []) : 0 < r.interval :=
  problems_eq_nil_iff.1 h .interval

theorem count_pos_of_problems (h : r.problems = []) {n : Int} (hn : n ∈ r.count) : 0 < n :=
  problems_eq_nil_iff.1 h .count n hn

/-- A recurrence without problems that has a count has no end. -/
theorem endDate_eq_none_of_problems (h : r.problems = []) (hcount : r.count.isSome = true) :
    r.endDate = none := by
  have hone : r.endDate.isSome ≠ r.count.isSome := problems_eq_nil_iff.1 h .ending
  rw [hcount] at hone
  exact Option.not_isSome_iff_eq_none.1 hone

end Recurrence

namespace Event

variable {e : Event} {r : Recurrence} {limit : Nat}

/-! ## The zone -/

/-- The zone of an expansion is unknown only if it is that of the event. -/
theorem ofName?_recurrenceZone_eq_none_iff [TimeZones] (h : r.problems = []) {name : String} :
    Zone.ofName? (e.recurrenceZone r) = none ∧ e.recurrenceZone r = name ↔
      r.timeZone = none ∧ e.timeZone = some name ∧ Zone.ofName? name = none := by
  unfold recurrenceZone
  cases hr : r.timeZone with
  | some zone =>
    have hknown := Recurrence.isSome_ofName?_of_problems h hr
    refine ⟨fun hnone => ?_, fun hnone => nomatch hnone.1⟩
    rw [Option.some_or, Option.getD_some] at hnone
    rw [hnone.1] at hknown
    cases hknown
  | none =>
    cases he : e.timeZone with
    | some zone =>
      rw [Option.none_or, Option.getD_some]
      constructor
      · rintro ⟨hunknown, rfl⟩
        exact ⟨rfl, rfl, hunknown⟩
      · rintro ⟨-, hname, hunknown⟩
        cases hname
        exact ⟨hunknown, rfl⟩
    | none =>
      refine ⟨fun hnone => ?_, fun hnone => nomatch hnone.2.1⟩
      rw [Option.none_or, Option.getD_none, Zone.ofName?_utc] at hnone
      exact nomatch hnone.1

/-! ## One step after the other -/

theorem eq_outOfRange_of_occurrenceAt {start : Instant} {error : ExpansionError}
    (h : e.occurrenceAt start = .error error) : error = .outOfRange := by
  unfold occurrenceAt at h
  split at h
  next => exact (Except.error.inj h).symm
  next => cases h

variable [TimeZones] [RuleEngine]

/-- What can come of the rule of a recurrence: its problems, an unknown zone, or what the engine
makes of its text. -/
theorem instances_cases (e : Event) (r : Recurrence) :
    (r.problems ≠ [] ∧ e.instances r = .error (.invalidRecurrence r.problems)) ∨
    (r.problems = [] ∧ Zone.ofName? (e.recurrenceZone r) = none ∧
      e.instances r = .error (.invalidTimezone (e.recurrenceZone r))) ∨
    (r.problems = [] ∧ ∃ zone, Zone.ofName? (e.recurrenceZone r) = some zone ∧
      e.instances r =
        (RuleEngine.expand (r.ruleText zone e.start)).mapError .unusableRule) := by
  unfold instances
  cases hproblems : r.problems with
  | cons problem rest => exact .inl ⟨List.cons_ne_nil _ _, rfl⟩
  | nil =>
    cases hzone : Zone.ofName? (e.recurrenceZone r) with
    | none =>
      refine .inr (.inl ⟨rfl, rfl, ?_⟩)
      simp only [hzone]
      rfl
    | some zone =>
      refine .inr (.inr ⟨rfl, zone, rfl, ?_⟩)
      simp only [hzone]
      cases RuleEngine.expand (r.ruleText zone e.start) with
      | error message => rfl
      | ok all => rfl

/-- In a known zone, what comes of a recurrence without problems is what the engine makes of its
text. -/
theorem instances_eq_expand (hproblems : r.problems = []) {z : Zone}
    (hz : Zone.ofName? (e.recurrenceZone r) = some z) :
    e.instances r = (RuleEngine.expand (r.ruleText z e.start)).mapError .unusableRule := by
  rcases instances_cases e r with ⟨hne, -⟩ | ⟨-, hnone, -⟩ | ⟨-, zone, hzone, h⟩
  · exact absurd hproblems hne
  · rw [hnone] at hz
    cases hz
  · rw [hzone] at hz
    cases hz
    exact h

/-- There are instances if the recurrence has no problems, its zone is known, and the engine takes
its text. -/
theorem instances_eq_ok_iff {all : Instances} : e.instances r = .ok all ↔
    r.problems = [] ∧ ∃ zone, Zone.ofName? (e.recurrenceZone r) = some zone ∧
      RuleEngine.expand (r.ruleText zone e.start) = .ok all := by
  rcases instances_cases e r with ⟨hne, h⟩ | ⟨-, hnone, h⟩ | ⟨hproblems, zone, hzone, h⟩
  · rw [h]
    exact ⟨fun heq => (nomatch heq), fun heq => absurd heq.1 hne⟩
  · rw [h, hnone]
    exact ⟨fun heq => (nomatch heq), fun ⟨_, _, heq, _⟩ => nomatch heq⟩
  · rw [h, hzone]
    constructor
    · intro heq
      exact ⟨hproblems, zone, rfl, Outcome.mapError_eq_ok heq⟩
    · rintro ⟨-, zone', heq, hread⟩
      cases heq
      rw [hread]
      rfl

theorem occurrences_of_recurring (hr : e.recurring = some r) :
    e.occurrences limit = (do
      let all ← e.instances r
      let occurrences ← (all (drawnFor r limit)).mapM e.occurrenceAt
      return occurrences.take limit) := by
  unfold occurrences
  rw [hr]

theorem occurrences_of_instances {all : Instances} (hr : e.recurring = some r)
    (hall : e.instances r = .ok all) {ts : List Instant} (hdrawn : all (drawnFor r limit) = ts) :
    e.occurrences limit = (ts.mapM e.occurrenceAt >>= fun os => .ok (os.take limit)) := by
  rw [occurrences_of_recurring hr, hall, Outcome.ok_bind, hdrawn]
  rfl

/-- An expansion that fails has no instances, or an occurrence leaves the range of instants. -/
theorem occurrences_eq_error_iff (hr : e.recurring = some r) {error : ExpansionError}
    (hrange : error ≠ .outOfRange) :
    e.occurrences limit = .error error ↔ e.instances r = .error error := by
  rw [occurrences_of_recurring hr]
  cases e.instances r with
  | error error' =>
    rw [Outcome.error_bind]
    exact ⟨fun h => congrArg _ (Except.error.inj h), fun h => congrArg _ (Except.error.inj h)⟩
  | ok all =>
    refine ⟨fun h => ?_, fun h => nomatch h⟩
    rw [Outcome.ok_bind] at h
    cases hdrawn : (all (drawnFor r limit)).mapM e.occurrenceAt with
    | ok drawn =>
      rw [hdrawn] at h
      cases h
    | error error' =>
      rw [hdrawn] at h
      cases h
      obtain ⟨start, -, hfail⟩ := Outcome.exists_of_mapM_eq_error hdrawn
      exact absurd (eq_outOfRange_of_occurrenceAt hfail) hrange

/-! ## The refusals -/

theorem instances_eq_invalidRecurrence_iff {problems : List String} :
    e.instances r = .error (.invalidRecurrence problems) ↔
      r.problems ≠ [] ∧ problems = r.problems := by
  rcases instances_cases e r with ⟨hne, h⟩ | ⟨hnil, -, h⟩ | ⟨hnil, zone, -, h⟩
  · rw [h]
    refine ⟨fun heq => ?_, fun heq => by rw [heq.2]⟩
    cases heq
    exact ⟨hne, rfl⟩
  · rw [h]
    exact ⟨fun heq => (nomatch heq), fun heq => absurd hnil heq.1⟩
  · rw [h]
    refine ⟨fun heq => ?_, fun heq => absurd hnil heq.1⟩
    obtain ⟨message, hmessage⟩ := Outcome.exists_of_mapError_eq_error heq
    cases hmessage

theorem instances_eq_invalidTimezone_iff {name : String} :
    e.instances r = .error (.invalidTimezone name) ↔
      r.problems = [] ∧ r.timeZone = none ∧ e.timeZone = some name ∧ Zone.ofName? name = none := by
  rcases instances_cases e r with ⟨hne, h⟩ | ⟨hnil, hnone, h⟩ | ⟨hnil, zone, hzone, h⟩
  · rw [h]
    exact ⟨fun heq => (nomatch heq), fun heq => absurd heq.1 hne⟩
  · rw [h, ← ofName?_recurrenceZone_eq_none_iff hnil]
    refine ⟨fun heq => ?_, fun heq => by rw [heq.2.2]⟩
    cases heq
    exact ⟨hnil, hnone, rfl⟩
  · rw [h, ← ofName?_recurrenceZone_eq_none_iff hnil, hzone]
    refine ⟨fun heq => ?_, fun heq => nomatch heq.2.1⟩
    obtain ⟨message, hmessage⟩ := Outcome.exists_of_mapError_eq_error heq
    cases hmessage

theorem occurrences_eq_invalidRecurrence_iff {problems : List String} :
    e.occurrences limit = .error (.invalidRecurrence problems) ↔
      ∃ r, e.recurring = some r ∧ r.problems ≠ [] ∧ problems = r.problems := by
  cases hr : e.recurring with
  | none =>
    unfold occurrences
    rw [hr]
    exact ⟨fun h => (nomatch h), fun ⟨_, h, _⟩ => nomatch h⟩
  | some r =>
    rw [occurrences_eq_error_iff hr (by simp), instances_eq_invalidRecurrence_iff]
    simp

theorem occurrences_eq_invalidTimezone_iff {name : String} :
    e.occurrences limit = .error (.invalidTimezone name) ↔
      ∃ r, e.recurring = some r ∧ r.problems = [] ∧ r.timeZone = none ∧
        e.timeZone = some name ∧ Zone.ofName? name = none := by
  cases hr : e.recurring with
  | none =>
    unfold occurrences
    rw [hr]
    exact ⟨fun h => (nomatch h), fun ⟨_, h, _⟩ => nomatch h⟩
  | some r =>
    rw [occurrences_eq_error_iff hr (by simp), instances_eq_invalidTimezone_iff]
    simp

omit [RuleEngine] in
/-- What is wrong with the time of an event ends with the problems of its recurrence, and nothing
before them depends on it. -/
theorem timeViolations_of_recurring (hr : e.recurring = some r) (constraints : List Constraint)
    (scope : Scope) : e.timeViolations constraints scope =
      { e with recurring := none }.timeViolations constraints scope ++ r.problems := by
  have hproblems : e.recurrenceViolations = r.problems := by
    unfold recurrenceViolations
    rw [hr]
  have hnone : { e with recurring := none }.recurrenceViolations = [] := rfl
  rw [timeViolations, timeViolations, hproblems, hnone, List.append_nil]
  rfl

end Event

/-- An expansion refuses a recurrence for its problems exactly if it has any; its message joins
them, and validation under any declaration lists them too, after everything else that is wrong with
the time of the event and before what its rules find.  It refuses the zone of the event exactly if
the recurrence has no problems and names no zone, and that of the event is unknown.  So a valid
event is never refused for problems. -/
theorem Event.occurrences_refused [TimeZones] [RuleEngine] (d : Declaration) (e : Event)
    (scope : Scope) (limit : Nat) :
    (∀ problems, e.occurrences limit = .error (.invalidRecurrence problems) ↔
      ∃ r, e.recurring = some r ∧ r.problems ≠ [] ∧ problems = r.problems) ∧
    (∀ problems, e.occurrences limit = .error (.invalidRecurrence problems) →
      (ExpansionError.invalidRecurrence problems).message =
        "Invalid recurrence: " ++ "; ".intercalate problems ∧
      (d.validate e scope).errors =
        { e with recurring := none }.timeViolations d.constraints scope ++ problems ++
          Rule.violationsOfAll e scope d.rules) ∧
    (∀ name, e.occurrences limit = .error (.invalidTimezone name) ↔
      ∃ r, e.recurring = some r ∧ r.problems = [] ∧ r.timeZone = none ∧
        e.timeZone = some name ∧ Zone.ofName? name = none) ∧
    ((d.validate e scope).valid = true →
      ∀ problems, e.occurrences limit ≠ .error (.invalidRecurrence problems)) := by
  have herrors : ∀ problems, e.occurrences limit = .error (.invalidRecurrence problems) →
      problems ≠ [] ∧ (d.validate e scope).errors =
        { e with recurring := none }.timeViolations d.constraints scope ++ problems ++
          Rule.violationsOfAll e scope d.rules := by
    intro problems h
    obtain ⟨r, hr, hne, rfl⟩ := occurrences_eq_invalidRecurrence_iff.1 h
    refine ⟨hne, ?_⟩
    rw [← timeViolations_of_recurring hr]
    rfl
  refine ⟨fun problems => occurrences_eq_invalidRecurrence_iff, fun problems h =>
    ⟨rfl, (herrors problems h).2⟩, fun name => occurrences_eq_invalidTimezone_iff, ?_⟩
  intro hvalid problems h
  obtain ⟨hne, heq⟩ := herrors problems h
  rw [Verdict.valid, List.isEmpty_iff, heq, List.append_eq_nil_iff, List.append_eq_nil_iff]
    at hvalid
  exact hne hvalid.1.2

end CalendarRules
