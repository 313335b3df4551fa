import CalendarRules.Time.Instant

/-!
# Time zones

A zone has a name and an offset, which is how far its clocks are ahead of universal time at each
instant.  Which names are known, and what offsets they have had since when, is kept by a database
of its own (`TimeZones`).  This library looks names up in it and asks for offsets, and knows of it
only what every such database keeps to.
-/

namespace CalendarRules

structure Zone where
  name : String
  /-- Seconds by which the clocks are ahead of universal time, at an instant given in seconds. -/
  offset : Int → Int

/-- A database of zones. -/
class TimeZones where
  /-- The offset of the zone of a name, if the name is known. -/
  offset? : String → Option (Int → Int)
  /-- Universal time is known by its name. -/
  utc : offset? "UTC" = some fun _ => 0
  /-- No name has a mark in it that divides lines. -/
  plain : ∀ name, (offset? name).isSome = true → ∀ mark ∈ ['\n', ':', ';'], mark ∉ name.toList

namespace Zone

/-- The local time of an instant in seconds. -/
def localTime (z : Zone) (seconds : Int) : Int := seconds + z.offset seconds

/-- What the clocks show at an instant, to the second.  Inside a leap second that is one more. -/
def clock (z : Zone) (t : Instant) : Int := z.localTime t.seconds + if t.isLeap then 1 else 0

def universal : Zone := ⟨"UTC", fun _ => 0⟩

/-- The zone of a name. -/
def ofName? [TimeZones] (name : String) : Option Zone := (TimeZones.offset? name).map (Zone.mk name)

end Zone
end CalendarRules
