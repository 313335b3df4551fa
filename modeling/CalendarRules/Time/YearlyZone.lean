import CalendarRules.Time.Zone

/-!
# Zones with yearly rules

Most zones are ahead of universal time by a standard offset, and perhaps have a rule for daylight
saving: each year the clocks go forward on one Sunday and back on another, at a time that the clocks
themselves show just before.  South of the equator the second switch of a year comes before the
first.

The rules are those of the present, which hold for all years here.  The table of such zones is the
database of a program that has no other; names are case sensitive.

## Local times

A local time belongs to one instant, to none (the clocks skipped it) or to two (they showed it
twice).  `YearlyZone.instantsAt` lists them, the earlier one first, which is the one before the
switch.
-/

namespace CalendarRules

/-- A Sunday of a month. -/
inductive Sunday where
  /-- Counted from the start of the month, the first being zero. -/
  | fromStart (index : Nat)
  | last

/-- When the clocks are changed each year: in a month, on a Sunday, at a time of that day that they
show just before. -/
structure Switch where
  month : Nat
  sunday : Sunday
  /-- Seconds after the beginning of the day; a negative number is a time of the day before. -/
  time : Int

/-- Daylight saving. -/
structure Daylight where
  /-- Seconds by which the clocks go forward. -/
  saving : Nat
  forward : Switch
  back : Switch

structure YearlyZone where
  name : String
  /-- Seconds by which standard time is ahead of universal time. -/
  standard : Int
  daylight : Option Daylight

namespace Switch

/-- The day of a switch in a year. -/
def day (s : Switch) (year : Int) : Int :=
  let leap := Calendar.isLeap year
  let start := Calendar.daysBeforeYear year + Calendar.daysBeforeMonth leap s.month - Calendar.epoch
  match s.sunday with
  | .fromStart index => start + (7 - Date.weekday start) % 7 + 7 * index
  | .last =>
    let final := start + Calendar.monthLength leap s.month - 1
    final - Date.weekday final

/-- The instant of a switch in a year, in seconds, when the clocks before it are ahead by
`offset`. -/
def seconds (s : Switch) (year : Int) (offset : Int) : Int := s.day year * 86400 + s.time - offset

end Switch

namespace YearlyZone

/-- Daylight saving is in force at an instant given in seconds. -/
def isDaylight (standard : Int) (d : Daylight) (seconds : Int) : Bool :=
  let year := (Date.ofDay (seconds / 86400)).year
  let forward := d.forward.seconds year standard
  let back := d.back.seconds year (standard + d.saving)
  if forward < back then forward ≤ seconds && seconds < back
  else !(back ≤ seconds && seconds < forward)

/-- Seconds by which the zone is ahead at an instant given in seconds. -/
def offset (z : YearlyZone) (seconds : Int) : Int :=
  match z.daylight with
  | none => z.standard
  | some d => if isDaylight z.standard d seconds then z.standard + d.saving else z.standard

/-- The offsets that a zone ever has, the larger one first. -/
def offsets (z : YearlyZone) : List Int :=
  match z.daylight with
  | none => [z.standard]
  | some d => [z.standard + d.saving, z.standard]

/-- The instants, in seconds, at which clocks show a local time in seconds. -/
def instantsAt (z : YearlyZone) (localTime : Int) : List Int :=
  (z.offsets.map fun offset => localTime - offset).filter fun t => t + z.offset t = localTime

/-- The zone that a rule describes. -/
def zone (z : YearlyZone) : Zone := ⟨z.name, z.offset⟩

theorem mem_instantsAt {z : YearlyZone} {localTime t : Int} (h : t ∈ z.instantsAt localTime) :
    z.zone.localTime t = localTime := by
  simp only [instantsAt, List.mem_filter, decide_eq_true_eq] at h
  exact h.2

/-! ## The table -/

/-- From the second Sunday of March to the first one of November, at two o'clock. -/
def northAmerican : Daylight :=
  ⟨3600, ⟨3, .fromStart 1, 7200⟩, ⟨11, .fromStart 0, 7200⟩⟩

/-- From the last Sunday of March to the last one of October, everywhere at one o'clock universal
time. -/
def european (standard : Int) : Daylight :=
  ⟨3600, ⟨3, .last, 3600 + standard⟩, ⟨10, .last, 7200 + standard⟩⟩

/-- From the first Sunday of October to the first one of April. -/
def australian (saving : Nat) (back : Int) : Daylight :=
  ⟨saving, ⟨10, .fromStart 0, 7200⟩, ⟨4, .fromStart 0, back⟩⟩

def table : List YearlyZone := [
  ⟨"UTC", 0, none⟩,
  ⟨"Etc/UTC", 0, none⟩,
  ⟨"GMT", 0, none⟩,
  ⟨"EST", -18000, none⟩,
  ⟨"Etc/GMT+5", -18000, none⟩,
  ⟨"America/New_York", -18000, some northAmerican⟩,
  ⟨"America/Nuuk", -7200, some (european (-7200))⟩,
  ⟨"Europe/Berlin", 3600, some (european 3600)⟩,
  ⟨"Europe/Oslo", 3600, some (european 3600)⟩,
  ⟨"Europe/Paris", 3600, some (european 3600)⟩,
  ⟨"Europe/London", 0, some (european 0)⟩,
  ⟨"Asia/Tokyo", 32400, none⟩,
  ⟨"Asia/Kolkata", 19800, none⟩,
  ⟨"Asia/Kathmandu", 20700, none⟩,
  ⟨"Australia/Lord_Howe", 37800, some (australian 1800 7200)⟩,
  ⟨"Australia/Sydney", 36000, some (australian 3600 10800)⟩]

/-- The zone of a name. -/
def ofName? (name : String) : Option YearlyZone := table.find? fun z => z.name == name

theorem mem_table_of_ofName? {name : String} {z : YearlyZone} (h : ofName? name = some z) :
    z ∈ table :=
  List.mem_of_find?_eq_some h

theorem name_of_ofName? {name : String} {z : YearlyZone} (h : ofName? name = some z) :
    z.name = name := by
  have hname := List.find?_some h
  exact eq_of_beq hname

theorem all_name_table :
    (table.all fun z => z.name.toList.all fun c => !(['\n', ':', ';', '='].contains c)) = true := by
  decide +kernel

theorem notMem_name {z : YearlyZone} (hz : z ∈ table) {mark : Char}
    (hmark : mark ∈ ['\n', ':', ';', '=']) : mark ∉ z.name.toList := by
  intro hmem
  have hname := List.all_eq_true.1 (List.all_eq_true.1 all_name_table z hz) mark hmem
  rw [List.contains_iff_mem.2 hmark] at hname
  contradiction

end YearlyZone

/-- The table as a database. -/
instance YearlyZone.database : TimeZones where
  offset? name := (YearlyZone.ofName? name).map YearlyZone.offset
  utc := rfl
  plain name hname mark hmark := by
    rw [Option.isSome_map, Option.isSome_iff_exists] at hname
    obtain ⟨z, hz⟩ := hname
    rw [← YearlyZone.name_of_ofName? hz]
    exact YearlyZone.notMem_name (YearlyZone.mem_table_of_ofName? hz) (List.mem_append_left _ hmark)

end CalendarRules
