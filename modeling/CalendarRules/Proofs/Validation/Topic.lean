import CalendarRules.Proofs.Recurrence.Clauses
import CalendarRules.Validation.Limits

/-!
# What messages about time are about

The time of an event is checked in ten parts, one topic each: order, duration, precision, least and
greatest notice, required and allowed time zones, days, span and recurrence.  Everything that is
found is one list of messages in the order of these topics (`Event.timeViolations_eq_flatMap`).

The first words of a message tell its topic, and no message has two (`Event.mem_violationsOn_iff`).
So what the list says about one topic is what the check of that topic has found, and if it says
nothing, then that check has passed (`Event.silent_iff`).
-/

namespace CalendarRules
namespace Event

variable {e : Event} {scope : Scope} {constraints : List Constraint}

/-! ## Complaints -/

theorem mem_complaint {wrong : Bool} {message m : String} :
    m ∈ complaint wrong message ↔ wrong = true ∧ m = message := by
  cases wrong with
  | true => simp [complaint]
  | false => simp [complaint]

theorem complaint_eq_nil_iff {wrong : Bool} {message : String} :
    complaint wrong message = [] ↔ wrong = false := by
  cases wrong with
  | true => simp [complaint]
  | false => simp [complaint]

/-! ## Topics -/

/-- What something that is wrong with the time of an event is about. -/
inductive Topic where
  | order
  | duration
  | precision
  | leastNotice
  | greatestNotice
  | zone
  | allowedZones
  | days
  | span
  | recurrence
  deriving DecidableEq

namespace Topic

def all : List Topic :=
  [.order, .duration, .precision, .leastNotice, .greatestNotice, .zone, .allowedZones, .days, .span,
    .recurrence]

theorem mem_all (t : Topic) : t ∈ all := by
  cases t <;> decide

/-- How messages about the topic begin. -/
def openings : Topic → List String
  | order => ["Start time must be"]
  | duration => ["Event duration"]
  | precision => ["Time precision", "Start time must align", "End time must align"]
  | leastNotice => ["Event must be scheduled at least"]
  | greatestNotice => ["Event cannot be scheduled more than"]
  | zone => ["Event time zone"]
  | allowedZones => ["Time zone"]
  | days => ["All-day events must", "Event cannot span multiple days"]
  | span => ["Event spans"]
  | recurrence => Recurrence.Clause.all.flatMap Recurrence.Clause.openings

/-- The message is about the topic. -/
def IsAbout (t : Topic) (message : String) : Prop := Text.OpensWith t.openings message

theorem apart_openings : ∀ t ∈ all, ∀ t' ∈ all, t ≠ t' → Text.Apart t.openings t'.openings := by
  decide +kernel

/-- No message is about two topics. -/
theorem IsAbout.unique {t t' : Topic} {message : String} (h : t.IsAbout message)
    (h' : t'.IsAbout message) : t = t' := by
  by_contra hne
  exact (apart_openings t (mem_all t) t' (mem_all t') hne).not_opensWith h h'

end Topic

/-- What is found under a topic. -/
def violationsOn [TimeZones] (constraints : List Constraint) (scope : Scope) (e : Event) :
    Topic → List String
  | .order => e.orderViolations
  | .duration => e.durationViolations (Constraint.minutes? "minDuration" constraints)
      (Constraint.minutes? "maxDuration" constraints)
  | .precision => e.precisionViolations (Constraint.minutes? "timePrecision" constraints)
  | .leastNotice =>
      e.noticeViolations (Constraint.minutes? "minAdvanceTime" constraints) none scope.now
  | .greatestNotice =>
      e.noticeViolations none (Constraint.minutes? "maxAdvanceTime" constraints) scope.now
  | .zone => e.zoneViolations (Constraint.named? "timeZone" constraints)
  | .allowedZones => e.allowedZoneViolations (Constraint.named? "allowedTimeZones" constraints)
  | .days => e.dayViolations (Constraint.named? "allowCrossDay" constraints)
  | .span => e.spanViolations
      ((Constraint.named? "maxCrossDayDuration" constraints).bind ConstraintValue.days?)
  | .recurrence => e.recurrenceViolations

theorem noticeViolations_eq_append (min max : Option Binary64) (now : Option Instant) :
    e.noticeViolations min max now =
      e.noticeViolations min none now ++ e.noticeViolations none max now := by
  unfold noticeViolations
  cases now with
  | none => rfl
  | some now => simp

theorem timeViolations_eq_flatMap [TimeZones] : e.timeViolations constraints scope =
    Topic.all.flatMap (e.violationsOn constraints scope) := by
  rw [timeViolations, noticeViolations_eq_append]
  simp only [Topic.all, List.flatMap_cons, List.flatMap_nil, violationsOn, List.append_assoc,
    List.append_nil]

/-! ## Messages of each topic -/

/-- All the messages are about the topic. -/
def Topic.Covers (t : Topic) (messages : List String) : Prop := ∀ m ∈ messages, t.IsAbout m

namespace Topic.Covers

variable {t : Topic} {message : String} {ms ns : List String}

theorem nil : t.Covers [] := fun _ h => absurd h List.not_mem_nil

theorem append (hm : t.Covers ms) (hn : t.Covers ns) : t.Covers (ms ++ ns) := by
  intro m h
  rcases List.mem_append.1 h with h | h
  · exact hm m h
  · exact hn m h

theorem singleton (h : t.IsAbout message) : t.Covers [message] := by
  intro m hm
  rw [List.mem_singleton.1 hm]
  exact h

theorem complaint {wrong : Bool} (h : t.IsAbout message) : t.Covers (complaint wrong message) := by
  intro m hm
  rw [(mem_complaint.1 hm).2]
  exact h

end Topic.Covers

open Topic.Covers

theorem covers_order : Topic.order.Covers e.orderViolations :=
  .complaint ⟨"Start time must be", .head _, " before end time", rfl⟩

theorem covers_duration (min max : Option Binary64) :
    Topic.duration.Covers (e.durationViolations min max) := by
  have hhead : Topic.duration.IsAbout "Event duration (" := ⟨"Event duration", .head _, " (", rfl⟩
  unfold durationViolations
  split
  next => exact nil
  next =>
    split
    next => exact .singleton ⟨"Event duration", .head _, " cannot be compared numerically", rfl⟩
    next =>
      refine append ?_ ?_
      · split
        next => exact .complaint ((((hhead.append _).append _).append _).append _)
        next => exact nil
      · split
        next => exact .complaint ((((hhead.append _).append _).append _).append _)
        next => exact nil

theorem covers_precision (precision : Option Binary64) :
    Topic.precision.Covers (e.precisionViolations precision) := by
  unfold precisionViolations
  split
  next => exact nil
  next =>
    split
    next =>
      exact .singleton (.append ⟨"Time precision", .head _,
        " must be a positive number of minutes, got ", rfl⟩ _)
    next =>
      refine append (.complaint ?_) (.complaint ?_)
      · exact .append (.append ⟨"Start time must align", .tail _ (.head _), " to ", rfl⟩ _) _
      · exact .append
          (.append ⟨"End time must align", .tail _ (.tail _ (.head _)), " to ", rfl⟩ _) _

theorem covers_leastNotice (min : Option Binary64) (now : Option Instant) :
    Topic.leastNotice.Covers (e.noticeViolations min none now) := by
  unfold noticeViolations
  cases now with
  | none => exact nil
  | some now =>
    refine append ?_ nil
    split
    next =>
      exact .complaint
        (.append (.append ⟨"Event must be scheduled at least", .head _, " ", rfl⟩ _) _)
    next => exact nil

theorem covers_greatestNotice (max : Option Binary64) (now : Option Instant) :
    Topic.greatestNotice.Covers (e.noticeViolations none max now) := by
  unfold noticeViolations
  cases now with
  | none => exact nil
  | some now =>
    refine append nil ?_
    split
    next =>
      exact .complaint
        (.append (.append ⟨"Event cannot be scheduled more than", .head _, " ", rfl⟩ _) _)
    next => exact nil

theorem covers_zone (required : Option ConstraintValue) :
    Topic.zone.Covers (e.zoneViolations required) := by
  unfold zoneViolations
  split
  next =>
    exact .complaint
      (.append (.append (.append ⟨"Event time zone", .head _, " ", rfl⟩ _) _) _)
  next => exact nil

theorem covers_allowedZones (allowed : Option ConstraintValue) :
    Topic.allowedZones.Covers (e.allowedZoneViolations allowed) := by
  unfold allowedZoneViolations
  split
  next => exact .complaint (.append (.append ⟨"Time zone", .head _, " ", rfl⟩ _) _)
  next => exact nil

theorem covers_days (crossing : Option ConstraintValue) :
    Topic.days.Covers (e.dayViolations crossing) := by
  unfold dayViolations
  split
  next =>
    exact append
      (.complaint ⟨"All-day events must", .head _, " start at 00:00:00.000 UTC", rfl⟩)
      (.complaint ⟨"All-day events must", .head _,
        " end at 23:59:59 UTC the same day or 00:00:00.000 UTC the next day", rfl⟩)
  next =>
    split
    next =>
      exact .complaint ⟨"Event cannot span multiple days", .tail _ (.head _), "", rfl⟩
    next => exact nil

theorem covers_span (max : Option Binary64) : Topic.span.Covers (e.spanViolations max) := by
  unfold spanViolations
  split
  next => exact nil
  next =>
    exact .complaint
      (.append (.append (.append (.append ⟨"Event spans", .head _, " ", rfl⟩ _) _) _) _)

theorem covers_recurrence [TimeZones] : Topic.recurrence.Covers e.recurrenceViolations := by
  unfold recurrenceViolations
  split
  next r _ =>
    intro m hm
    rw [Recurrence.problems_eq_flatMap, Recurrence.Clause.flatMap_report, List.mem_map] at hm
    obtain ⟨c, -, rfl⟩ := hm
    obtain ⟨opening, hopening, hmessage⟩ := c.opensWith_message r
    exact ⟨opening, List.mem_flatMap.2 ⟨c, c.mem_all, hopening⟩, hmessage⟩
  next => exact nil

theorem covers_violationsOn [TimeZones] (t : Topic) :
    t.Covers (e.violationsOn constraints scope t) := by
  cases t with
  | order => exact covers_order
  | duration => exact covers_duration _ _
  | precision => exact covers_precision _
  | leastNotice => exact covers_leastNotice _ _
  | greatestNotice => exact covers_greatestNotice _ _
  | zone => exact covers_zone _
  | allowedZones => exact covers_allowedZones _
  | days => exact covers_days _
  | span => exact covers_span _
  | recurrence => exact covers_recurrence

/-- Of everything that is found, what is about a topic is what its check has found. -/
theorem mem_violationsOn_iff [TimeZones] {t : Topic} {m : String} :
    m ∈ e.violationsOn constraints scope t ↔
      m ∈ e.timeViolations constraints scope ∧ t.IsAbout m := by
  rw [timeViolations_eq_flatMap, List.mem_flatMap]
  constructor
  · exact fun h => ⟨⟨t, t.mem_all, h⟩, covers_violationsOn t m h⟩
  · rintro ⟨⟨t', -, h⟩, habout⟩
    rwa [habout.unique (covers_violationsOn t' m h)]

/-- Nothing that is found is about the topic. -/
def Silent [TimeZones] (constraints : List Constraint) (scope : Scope) (e : Event) (t : Topic) :
    Prop :=
  ∀ m ∈ e.timeViolations constraints scope, ¬ t.IsAbout m

theorem silent_iff [TimeZones] {t : Topic} :
    e.Silent constraints scope t ↔ e.violationsOn constraints scope t = [] := by
  rw [List.eq_nil_iff_forall_not_mem]
  simp only [mem_violationsOn_iff, Silent, not_and]

end Event
end CalendarRules
