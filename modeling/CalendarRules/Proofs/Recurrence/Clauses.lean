import CalendarRules.Proofs.Text.Opening
import CalendarRules.Recurrence

/-!
# The clauses of a recurrence

Six clauses say which recurrences make sense: one way to end, a positive interval, a positive count,
days of the week for weeks, a day of the month for months, and a zone that is known.  Each is stated
for itself, and each has one message, whose words may depend on how it is violated.  Which zones are
known is up to the database of zones.

The problems of a recurrence are the messages of the clauses that it violates, in the order of the
clauses (`Recurrence.problems_eq_flatMap`).  Different clauses have different messages, so that none
hides another or is told twice, and there are as many problems as violated clauses
(`Recurrence.problems_decide_clauses`).
-/

namespace CalendarRules
namespace Recurrence

variable {r : Recurrence}

/-- What is asked of a recurrence, in the order in which it is checked. -/
inductive Clause where
  | ending
  | interval
  | count
  | weekdays
  | monthday
  | zone
  deriving DecidableEq

namespace Clause

def all : List Clause := [.ending, .interval, .count, .weekdays, .monthday, .zone]

theorem mem_all (c : Clause) : c ∈ all := by
  cases c <;> decide

/-- The recurrence does what the clause asks. -/
def Holds [TimeZones] (r : Recurrence) : Clause → Prop
  | ending => r.endDate.isSome ≠ r.count.isSome
  | interval => 0 < r.interval
  | count => ∀ n ∈ r.count, 0 < n
  | weekdays => r.frequency = .weekly →
      ∃ days ∈ r.daysOfWeek, days ≠ [] ∧ ∀ d ∈ days, 0 ≤ d ∧ d ≤ 6
  | monthday => r.frequency = .monthly → ∃ d ∈ r.dayOfMonth, 1 ≤ d ∧ d ≤ 31
  | zone => ∀ name ∈ r.timeZone, (Zone.ofName? name).isSome = true

instance [TimeZones] (r : Recurrence) : DecidablePred (Holds r)
  | ending => inferInstanceAs (Decidable (_ ≠ _))
  | interval => inferInstanceAs (Decidable (_ < _))
  | count => inferInstanceAs (Decidable (∀ n ∈ r.count, 0 < n))
  | weekdays => inferInstanceAs (Decidable (_ → ∃ days ∈ r.daysOfWeek, _))
  | monthday => inferInstanceAs (Decidable (_ → ∃ d ∈ r.dayOfMonth, _))
  | zone => inferInstanceAs (Decidable (∀ name ∈ r.timeZone, _))

/-- What is said of a recurrence that violates the clause. -/
def message (r : Recurrence) : Clause → String
  | ending =>
    if r.count.isSome then
      "Recurring events must specify either an end date or a count, not both"
    else "Recurring events must specify an end date or a count"
  | interval => "Recurrence interval must be greater than 0"
  | count => "Recurrence count must be greater than 0"
  | weekdays =>
    if r.daysOfWeek.getD [] = [] then "Weekly recurrence requires at least one day of the week"
    else "Days of week must be between 0 (Sunday) and 6 (Saturday)"
  | monthday => "Monthly recurrence requires a day of month between 1 and 31"
  | zone => "Unknown recurrence time zone: " ++ r.timeZone.getD ""

/-! ## Messages of different clauses -/

/-- How the messages of the clause begin. -/
def openings : Clause → List String
  | ending => ["Recurring events must specify"]
  | interval => ["Recurrence interval"]
  | count => ["Recurrence count"]
  | weekdays => ["Weekly recurrence", "Days of week"]
  | monthday => ["Monthly recurrence"]
  | zone => ["Unknown recurrence time zone"]

theorem opensWith_message (r : Recurrence) (c : Clause) :
    Text.OpensWith c.openings (c.message r) := by
  cases c with
  | ending =>
    refine ⟨"Recurring events must specify", .head _, ?_⟩
    by_cases h : r.count.isSome
    · exact ⟨" either an end date or a count, not both", if_pos h⟩
    · exact ⟨" an end date or a count", if_neg h⟩
  | interval => exact ⟨"Recurrence interval", .head _, " must be greater than 0", rfl⟩
  | count => exact ⟨"Recurrence count", .head _, " must be greater than 0", rfl⟩
  | weekdays =>
    by_cases h : r.daysOfWeek.getD [] = []
    · exact ⟨"Weekly recurrence", .head _, " requires at least one day of the week", if_pos h⟩
    · exact ⟨"Days of week", .tail _ (.head _), " must be between 0 (Sunday) and 6 (Saturday)",
        if_neg h⟩
  | monthday =>
    exact ⟨"Monthly recurrence", .head _, " requires a day of month between 1 and 31", rfl⟩
  | zone => exact .append ⟨"Unknown recurrence time zone", .head _, ": ", rfl⟩ _

theorem apart_openings : ∀ c ∈ all, ∀ c' ∈ all, c ≠ c' → Text.Apart c.openings c'.openings := by
  decide +kernel

theorem message_injective (r : Recurrence) : Function.Injective (message r) := by
  intro c c' h
  by_contra hne
  have happart := apart_openings c (mem_all c) c' (mem_all c') hne
  refine happart.not_opensWith (opensWith_message r c) ?_
  rw [h]
  exact opensWith_message r c'

/-! ## What is said about a clause -/

variable [TimeZones]

/-- The report on a clause: its message if it is violated. -/
def report (r : Recurrence) (c : Clause) : List String := if c.Holds r then [] else [c.message r]

theorem report_of_holds (c : Clause) (h : c.Holds r) : report r c = [] := if_pos h

theorem report_of_violated (c : Clause) (h : ¬ c.Holds r) : report r c = [c.message r] := if_neg h

theorem flatMap_report (r : Recurrence) (cs : List Clause) :
    cs.flatMap (report r) = (cs.filter fun c => ¬ c.Holds r).map (message r) := by
  induction cs with
  | nil => rfl
  | cons c cs ih =>
    rw [List.flatMap_cons, ih]
    by_cases h : c.Holds r
    · rw [report_of_holds c h, List.filter_cons_of_neg (by simpa using h), List.nil_append]
    · rw [report_of_violated c h, List.filter_cons_of_pos (by simpa using h), List.map_cons,
        List.singleton_append]

theorem endProblems_eq_report : r.endProblems = report r ending := by
  show _ = if r.endDate.isSome ≠ r.count.isSome then [] else [if r.count.isSome then _ else _]
  unfold endProblems
  cases r.endDate <;> cases r.count <;> rfl

theorem intervalProblems_eq_report : r.intervalProblems = report r interval := by
  by_cases h : 0 < r.interval
  · rw [report_of_holds interval h]
    exact if_neg (Int.not_le.2 h)
  · rw [report_of_violated interval h]
    exact if_pos (Int.not_lt.1 h)

theorem countProblems_eq_report : r.countProblems = report r count := by
  unfold countProblems
  cases hcount : r.count with
  | none => exact (report_of_holds count (by simp [Holds, hcount])).symm
  | some n =>
    have hholds : count.Holds r ↔ 0 < n := by simp [Holds, hcount]
    by_cases h : 0 < n
    · rw [report_of_holds count (hholds.2 h)]
      exact if_neg (Int.not_le.2 h)
    · rw [report_of_violated count (mt hholds.1 h)]
      exact if_pos (Int.not_lt.1 h)

/-- A week without days and one with a day that does not exist are told apart. -/
theorem dayProblems_of_weekly (hf : r.frequency = .weekly) :
    r.dayProblems = report r weekdays := by
  unfold dayProblems
  rw [hf]
  cases hdays : r.daysOfWeek with
  | none =>
    have hviolated : ¬ weekdays.Holds r := by simp [Holds, hf, hdays]
    rw [report_of_violated weekdays hviolated]
    exact congrArg (fun m => [m]) (if_pos (by rw [hdays]; rfl)).symm
  | some days =>
    have hholds : weekdays.Holds r ↔ days ≠ [] ∧ ∀ d ∈ days, 0 ≤ d ∧ d ≤ 6 := by
      simp [Holds, hf, hdays]
    cases days with
    | nil =>
      rw [report_of_violated weekdays fun h => (hholds.1 h).1 rfl]
      exact congrArg (fun m => [m]) (if_pos (by rw [hdays]; rfl)).symm
    | cons day days =>
      by_cases h : ∀ d ∈ day :: days, 0 ≤ d ∧ d ≤ 6
      · rw [report_of_holds weekdays (hholds.2 ⟨List.cons_ne_nil _ _, h⟩)]
        exact if_pos (by simpa [List.all_eq_true] using h)
      · rw [report_of_violated weekdays fun hh => h (hholds.1 hh).2]
        refine (if_neg (by simpa [List.all_eq_true] using h)).trans ?_
        exact congrArg (fun m => [m]) (if_neg (by rw [hdays]; exact List.cons_ne_nil _ _)).symm

theorem dayProblems_of_monthly (hf : r.frequency = .monthly) :
    r.dayProblems = report r monthday := by
  unfold dayProblems
  rw [hf]
  cases hday : r.dayOfMonth with
  | none => exact (report_of_violated monthday (by simp [Holds, hf, hday])).symm
  | some d =>
    have hholds : monthday.Holds r ↔ 1 ≤ d ∧ d ≤ 31 := by simp [Holds, hf, hday]
    by_cases h : 1 ≤ d ∧ d ≤ 31
    · rw [report_of_holds monthday (hholds.2 h)]
      exact if_pos (by simpa using h)
    · rw [report_of_violated monthday (mt hholds.1 h)]
      exact if_neg (by simpa using h)

theorem dayProblems_eq_report : r.dayProblems = report r weekdays ++ report r monthday := by
  have hweekdays : r.frequency ≠ .weekly → report r weekdays = [] := fun h =>
    report_of_holds weekdays fun hf => absurd hf h
  have hmonthday : r.frequency ≠ .monthly → report r monthday = [] := fun h =>
    report_of_holds monthday fun hf => absurd hf h
  cases hf : r.frequency with
  | daily =>
    rw [hweekdays (by rw [hf]; decide), hmonthday (by rw [hf]; decide), dayProblems, hf]
    rfl
  | weekly =>
    rw [hmonthday (by rw [hf]; decide), List.append_nil]
    exact dayProblems_of_weekly hf
  | monthly =>
    rw [hweekdays (by rw [hf]; decide), List.nil_append]
    exact dayProblems_of_monthly hf
  | yearly =>
    rw [hweekdays (by rw [hf]; decide), hmonthday (by rw [hf]; decide), dayProblems, hf]
    rfl

theorem zoneProblems_eq_report : r.zoneProblems = report r zone := by
  unfold zoneProblems
  cases hzone : r.timeZone with
  | none => exact (report_of_holds zone (by simp [Holds, hzone])).symm
  | some name =>
    have hholds : zone.Holds r ↔ (Zone.ofName? name).isSome = true := by
      simp [Holds, hzone]
    by_cases h : (Zone.ofName? name).isSome = true
    · rw [report_of_holds zone (hholds.2 h)]
      exact if_pos h
    · have hmessage : zone.message r = "Unknown recurrence time zone: " ++ name :=
        congrArg (fun z => "Unknown recurrence time zone: " ++ Option.getD z "") hzone
      rw [report_of_violated zone (mt hholds.1 h), hmessage]
      exact if_neg h

end Clause

variable [TimeZones]

/-- The problems of a recurrence are what is said about its clauses, one after the other. -/
theorem problems_eq_flatMap (r : Recurrence) :
    r.problems = Clause.all.flatMap (Clause.report r) := by
  rw [problems, Clause.endProblems_eq_report, Clause.intervalProblems_eq_report,
    Clause.countProblems_eq_report, Clause.dayProblems_eq_report, Clause.zoneProblems_eq_report]
  simp only [Clause.all, List.flatMap_cons, List.flatMap_nil, List.append_assoc, List.append_nil]

theorem problems_eq_nil_iff : r.problems = [] ↔ ∀ c : Clause, c.Holds r := by
  rw [problems_eq_flatMap, Clause.flatMap_report, List.map_eq_nil_iff, List.filter_eq_nil_iff]
  simp [Clause.mem_all]

/-- The problems of a recurrence decide its clauses: they are the messages of those clauses that it
violates, in the order of the clauses and each with a message of its own, so that they are as many
as the violated clauses, and none if it satisfies all. -/
theorem problems_decide_clauses (r : Recurrence) :
    r.problems = (Clause.all.filter fun c => ¬ c.Holds r).map (Clause.message r) ∧
    Function.Injective (Clause.message r) ∧
    r.problems.length = Clause.all.countP (fun c => ¬ c.Holds r) ∧
    (r.problems = [] ↔ ∀ c : Clause, c.Holds r) := by
  have hmap : r.problems = (Clause.all.filter fun c => ¬ c.Holds r).map (Clause.message r) := by
    rw [problems_eq_flatMap, Clause.flatMap_report]
  refine ⟨hmap, Clause.message_injective r, ?_, problems_eq_nil_iff⟩
  rw [hmap, List.length_map, List.countP_eq_length_filter]

end Recurrence
end CalendarRules
