import CalendarRules.Event

/-!
# Conflicts

Two events conflict when they overlap in time.  An event that finishes just when another starts does
not overlap it, and an event is not in conflict with a version of itself, which has the same
identifier.
-/

namespace CalendarRules
namespace Event

/-- Both events are going on at some moment. -/
def overlaps (a b : Event) : Bool := a.start.lt b.finish && b.start.lt a.finish

/-- The overlap of two events in whole minutes. -/
def overlapMinutes (a b : Event) : Int :=
  Instant.wholeMinutes ((a.finish.earlier b.finish).minus (a.start.later b.start))

end Event

/-- An event that another one overlaps. -/
structure Conflict where
  other : Event
  minutes : Int

/-- The conflicts of an event with others, in their order. -/
def Event.conflicts (e : Event) (others : List Event) : List Conflict :=
  (others.filter fun other => other.id != e.id && e.overlaps other).map fun other =>
    ⟨other, e.overlapMinutes other⟩

end CalendarRules
