import CalendarRules.Time.YearlyZone
import CalendarRules.Validation.Limits
import Mathlib.Data.List.Nodup

/-!
# Constraints are a map

The limits on the time of an event are written as a list of constraints, but each limit is looked up
by its name, and the first constraint of the name counts.  All that is said about the time of an
event is therefore settled by nine look-ups (`Event.timeViolations_congr_named`).

A look-up does not see the order of constraints whose names are distinct, nor a constraint of another
name, nor one that comes behind a constraint of the same name.  So neither does the check
(`Event.timeViolations_invariant`).
-/

namespace CalendarRules

namespace Constraint

/-- The names of the limits. -/
def limitNames : List String :=
  ["minDuration", "maxDuration", "timePrecision", "minAdvanceTime", "maxAdvanceTime", "timeZone",
    "allowedTimeZones", "allowCrossDay", "maxCrossDayDuration"]

variable {name : String} {value : ConstraintValue} {c : Constraint}
  {constraints others before after : List Constraint}

/-! ## Look-up by name -/

theorem named?_eq_none_iff : named? name constraints = none ↔ ∀ c ∈ constraints, c.name ≠ name := by
  rw [named?, Option.map_eq_none_iff, List.find?_eq_none]
  simp only [beq_iff_eq, ne_eq]

/-- A limit that no constraint sets is none. -/
theorem minutes?_eq_none (h : ∀ c ∈ constraints, c.name ≠ name) :
    minutes? name constraints = none := by
  rw [minutes?, named?_eq_none_iff.2 h, Option.bind_none]

theorem exists_of_named? (h : named? name constraints = some value) :
    ∃ c ∈ constraints, c.name = name ∧ c.value = value := by
  obtain ⟨c, hfind, hvalue⟩ := Option.map_eq_some_iff.1 h
  have hname := List.find?_some hfind
  exact ⟨c, List.mem_of_find?_eq_some hfind, beq_iff_eq.1 hname, hvalue⟩

theorem named?_append (name : String) (constraints others : List Constraint) :
    named? name (constraints ++ others) = (named? name constraints).or (named? name others) := by
  rw [named?, named?, named?, List.find?_append, Option.map_or]

theorem named?_cons_of_ne (h : c.name ≠ name) (constraints : List Constraint) :
    named? name (c :: constraints) = named? name constraints := by
  rw [named?, List.find?_cons_of_neg (by rw [beq_iff_eq]; exact h), named?]

theorem named?_cons_self (name : String) (value : ConstraintValue) (constraints : List Constraint) :
    named? name (⟨name, value⟩ :: constraints) = some value := by
  rw [named?, List.find?_cons_of_pos (by exact beq_self_eq_true name), Option.map_some]

/-- Where no two constraints share a name, each is what is found under its name. -/
theorem named?_of_mem (hn : (constraints.map Constraint.name).Nodup) (h : c ∈ constraints) :
    named? c.name constraints = some c.value := by
  cases hfound : named? c.name constraints with
  | none => exact absurd rfl (named?_eq_none_iff.1 hfound c h)
  | some value =>
    obtain ⟨c', hmem, hname, hvalue⟩ := exists_of_named? hfound
    rw [← hvalue, List.inj_on_of_nodup_map hn hmem h hname]

theorem named?_perm (hn : (constraints.map Constraint.name).Nodup) (h : constraints.Perm others)
    (name : String) : named? name constraints = named? name others := by
  have hn' : (others.map Constraint.name).Nodup := (h.map Constraint.name).nodup_iff.1 hn
  cases hfound : named? name constraints with
  | none =>
    refine (named?_eq_none_iff.2 fun c hc => ?_).symm
    exact named?_eq_none_iff.1 hfound c (h.mem_iff.2 hc)
  | some value =>
    obtain ⟨c, hc, rfl, rfl⟩ := exists_of_named? hfound
    exact (named?_of_mem hn' (h.mem_iff.1 hc)).symm

/-- A constraint of another name is passed over. -/
theorem named?_insert_of_ne (h : c.name ≠ name) :
    named? name (before ++ c :: after) = named? name (before ++ after) := by
  rw [named?_append, named?_append, named?_cons_of_ne h]

/-- A constraint behind one of the same name is never reached. -/
theorem named?_insert_of_mem (h : ∃ c' ∈ before, c'.name = c.name) :
    named? name (before ++ c :: after) = named? name (before ++ after) := by
  by_cases hname : c.name = name
  · obtain ⟨c', hmem, hsame⟩ := h
    cases hfound : named? name before with
    | none => exact absurd (hsame.trans hname) (named?_eq_none_iff.1 hfound c' hmem)
    | some value => rw [named?_append, named?_append, hfound, Option.some_or, Option.some_or]
  · exact named?_insert_of_ne hname

end Constraint

namespace Event

variable {e : Event} {scope : Scope} {constraints others : List Constraint}

/-! ## The check of the limits -/

/-- Of the constraints only what stands under the names of the limits is looked at. -/
theorem timeViolations_congr_named [TimeZones]
    (h : ∀ name ∈ Constraint.limitNames,
      Constraint.named? name constraints = Constraint.named? name others) :
    e.timeViolations constraints scope = e.timeViolations others scope := by
  simp only [Constraint.limitNames, List.forall_mem_cons] at h
  obtain ⟨hmin, hmax, hprecision, hearliest, hlatest, hzone, hallowed, hcrossing, hspan, -⟩ := h
  simp only [timeViolations, Constraint.minutes?, hmin, hmax, hprecision, hearliest, hlatest, hzone,
    hallowed, hcrossing, hspan]

/-- What is said about the time of an event does not change when constraints with distinct names are
put into another order, when a constraint is inserted whose name is that of no limit, or when one is
inserted behind another of its name. -/
theorem timeViolations_invariant [TimeZones] (e : Event) (scope : Scope) :
    (∀ constraints others : List Constraint, (constraints.map Constraint.name).Nodup →
      constraints.Perm others →
        e.timeViolations constraints scope = e.timeViolations others scope) ∧
    (∀ (before after : List Constraint) (c : Constraint), c.name ∉ Constraint.limitNames →
      e.timeViolations (before ++ c :: after) scope = e.timeViolations (before ++ after) scope) ∧
    (∀ (before after : List Constraint) (c : Constraint), (∃ c' ∈ before, c'.name = c.name) →
      e.timeViolations (before ++ c :: after) scope =
        e.timeViolations (before ++ after) scope) := by
  refine ⟨fun constraints others hn h => ?_, fun before after c hc => ?_,
    fun before after c hc => ?_⟩
  · exact timeViolations_congr_named fun name _ => Constraint.named?_perm hn h name
  · refine timeViolations_congr_named fun name hname => Constraint.named?_insert_of_ne ?_
    rintro rfl
    exact hc hname
  · exact timeViolations_congr_named fun name _ => Constraint.named?_insert_of_mem hc

/-- A screening of two hours that goes on after midnight, in Vienna. -/
def lateScreening : Event where
  id := "1"
  type := "screening"
  start := ⟨20456, 82800, 0, by decide⟩
  finish := ⟨20457, 3600, 0, by decide⟩
  timeZone := some "Europe/Vienna"

/-- At most an hour, and no midnight in between. -/
def houseRules : List Constraint :=
  [⟨"maxDuration", .duration ⟨.one, "hours"⟩⟩, ⟨"allowCrossDay", .literal (.bool false)⟩]

/-- The screening breaks two limits, in whatever order they are given, with a remark between them or
with a midnight allowed too late. -/
theorem timeViolations_invariant_screening :
    lateScreening.timeViolations houseRules { clock := lateScreening.start } =
      ["Event duration (120 minutes) exceeds the maximum of 60 minutes",
        "Event cannot span multiple days"] ∧
    lateScreening.timeViolations houseRules { clock := lateScreening.start } =
      lateScreening.timeViolations houseRules.reverse { clock := lateScreening.start } ∧
    lateScreening.timeViolations
      [houseRules[0], ⟨"remark", .literal (.string "by the house")⟩, houseRules[1]]
      { clock := lateScreening.start } =
        lateScreening.timeViolations houseRules { clock := lateScreening.start } ∧
    lateScreening.timeViolations (houseRules ++ [⟨"allowCrossDay", .literal (.bool true)⟩])
      { clock := lateScreening.start } =
        lateScreening.timeViolations houseRules { clock := lateScreening.start } := by
  obtain ⟨hperm, hother, hrepeated⟩ :=
    timeViolations_invariant lateScreening { clock := lateScreening.start }
  refine ⟨by decide +kernel, ?_, ?_, ?_⟩
  · exact hperm houseRules houseRules.reverse (by decide) (List.reverse_perm houseRules).symm
  · exact hother [houseRules[0]] [houseRules[1]] _ (by decide)
  · exact hrepeated houseRules [] ⟨"allowCrossDay", .literal (.bool true)⟩
      ⟨houseRules[1], .tail _ (.head _), rfl⟩

end Event
end CalendarRules
