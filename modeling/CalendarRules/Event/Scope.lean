import CalendarRules.Event

/-!
# What an event is looked at with

Rules may ask for other events, for the present moment and for the acting user.  A scope holds them;
each may be missing.  Without a moment, the path `now` reads the clock, and rules about advance
notice do not apply.
-/

namespace CalendarRules

structure Scope where
  /-- The clock, which is read where no moment is given. -/
  clock : Instant
  now : Option Instant := none
  others : List Event := []
  user : Option Json := none

namespace Scope

/-- A scope with nothing but a user. -/
def ofUser (clock : Instant) (user : Option Json) : Scope := { clock, user }

/-- The present moment. -/
def moment (scope : Scope) : Instant := scope.now.getD scope.clock

end Scope
end CalendarRules
