import CalendarRules.Recurrence.Engine
import CalendarRules.Recurrence.RuleSet

/-!
# The series of a rule

A rule goes through periods of time: days, weeks from Monday on, months or years, every so many of
them, beginning with the one that holds the start.  In each period it takes the days that it asks
for, and on each day the instant at which the clocks show the time of day of the start.

## Local times that are not unique

Where the clocks skip or repeat that time of day, the instant is the local midnight plus the time of
day as elapsed time.  A day whose midnight is not unique either has no instance.

## The end of a series

A series ends with its count, with its end, after the year 10000, or when too many periods in a row
have nothing to offer.  Months are counted in sixteen bits from the beginning of the year of a
period, so a series also ends where the next period would be too many of them away.
-/

namespace CalendarRules

/-- The first day of a month; months are counted from the beginning of the year zero. -/
def firstDayOfMonth (month : Int) : Int :=
  let year := month / 12
  Calendar.daysBeforeYear year +
    Calendar.daysBeforeMonth (Calendar.isLeap year) ((month % 12).toNat + 1) - Calendar.epoch

/-- The first day of a year. -/
def firstDayOfYear (year : Int) : Int := Calendar.daysBeforeYear year - Calendar.epoch

namespace Frequency

/-- The first days of the period that lies `steps` periods after that of a day, and of the next
one. -/
def period (f : Frequency) (day : Int) (steps : Nat) : Int × Int :=
  match f with
  | .daily => (day + steps, day + steps + 1)
  | .weekly =>
    let monday := day - (Date.weekday day + 6) % 7 + 7 * steps
    (monday, monday + 7)
  | .monthly =>
    let date := Date.ofDay day
    let month := 12 * date.year + (date.month - 1 : Nat) + steps
    (firstDayOfMonth month, firstDayOfMonth (month + 1))
  | .yearly =>
    let year := (Date.ofDay day).year + steps
    (firstDayOfYear year, firstDayOfYear (year + 1))

/-- The largest number of a month to step to, counted from the beginning of the year of the period
before it. -/
def lastMonth : Nat := 65535

/-- Whether a step of `interval` periods can be taken from the period that holds a day. -/
def canStep (f : Frequency) (day : Int) (interval : Nat) : Bool :=
  match f with
  | .monthly => (Date.ofDay day).month + interval ≤ lastMonth
  | .daily | .weekly | .yearly => true

end Frequency

namespace RuleSet

/-- The day of the start. -/
def startDay (s : RuleSet) : Int := s.localStart / 86400

/-- The time of day of the start in seconds. -/
def timeOfDay (s : RuleSet) : Int := s.localStart % 86400

/-- The last day on which a period may begin. -/
def lastPeriodDay : Int := firstDayOfYear 10001 - 1

/-- The number of periods in a row that may be empty. -/
def patience : Nat := 99999

/-! ## Days -/

/-- A date falls on a day of the month, which is counted from the end if negative. -/
def isMonthDay (date : Date) (d : Int) : Bool :=
  if d < 0 then
    (date.day : Int) = Calendar.monthLength (Calendar.isLeap date.year) date.month + 1 + d
  else (date.day : Int) = d

/-- What a rule asks for that names no day: the day of the start within its period. -/
def isLikeStart (s : RuleSet) (day : Int) : Bool :=
  match s.repetition.frequency with
  | .daily => true
  | .weekly => Date.weekday day = Date.weekday s.startDay
  | .monthly => (Date.ofDay day).day = (Date.ofDay s.startDay).day
  | .yearly =>
    let date := Date.ofDay day
    let first := Date.ofDay s.startDay
    date.month = first.month && date.day = first.day

/-- The first day of the `k`-th period of a rule, counted from zero, and of the one after it. -/
def period (s : RuleSet) (k : Nat) : Int × Int :=
  s.repetition.frequency.period s.startDay (k * s.repetition.interval)

/-- Whether the `k`-th period of a rule belongs to its series, if all before it do. -/
def hasPeriod (s : RuleSet) (k : Nat) : Bool :=
  (s.period k).1 ≤ lastPeriodDay &&
    (k == 0 || s.repetition.frequency.canStep (s.period (k - 1)).1 s.repetition.interval)

/-- A rule asks for a day. -/
def asksFor (s : RuleSet) (day : Int) : Bool :=
  match s.repetition.days, s.repetition.monthDay with
  | [], none => s.isLikeStart day
  | days, monthDay =>
    (days.isEmpty || days.contains (Date.weekday day)) &&
      match monthDay with
      | some d => isMonthDay (Date.ofDay day) d
      | none => true

/-! ## Instances -/

/-- The instant on a day at which the clocks show the time of day of the start. -/
def instanceOn? (s : RuleSet) (day : Int) : Option Int :=
  match s.zone.instantsAt (day * 86400 + s.timeOfDay) with
  | [t] => some t
  | _ =>
    match s.zone.instantsAt (day * 86400) with
    | [midnight] => some (midnight + s.timeOfDay)
    | _ => none

/-- The instances in the `k`-th period of a rule, counted from zero, none of them before the start.
-/
def instancesIn (s : RuleSet) (k : Nat) : List Int :=
  let (first, next) := s.period k
  let days := (List.range (next - first).toNat).map fun i => first + (i : Nat)
  ((days.filter s.asksFor).filterMap s.instanceOn?).filter fun t => s.start ≤ t

/-- Not after the end of the rule. -/
def isInTime (s : RuleSet) (t : Int) : Bool :=
  match s.repetition.finish with
  | some (finish, _) => t ≤ finish
  | none => true

/-- Up to `wanted` instances from the `k`-th period on, when `idle` more periods in a row may be
empty. -/
def instancesFrom (s : RuleSet) (wanted idle k : Nat) : List Int :=
  if wanted = 0 ∨ idle = 0 then []
  else if !s.hasPeriod k then []
  else
    match s.instancesIn k with
    | [] => instancesFrom s wanted (idle - 1) (k + 1)
    | t :: ts =>
      let found := t :: ts
      let kept := found.takeWhile s.isInTime
      if kept.length < found.length then kept.take wanted
      else kept.take wanted ++ instancesFrom s (wanted - found.length) patience (k + 1)
termination_by (wanted, idle)
decreasing_by
  · exact Prod.Lex.right _ (by omega)
  · exact Prod.Lex.left _ _ (by simp only [List.length_cons]; omega)

/-- The first instances of a rule, `wanted` of them if there are so many.  Excluded ones count. -/
def instances (s : RuleSet) (wanted : Nat) : List Int :=
  let wanted := match s.repetition.count with
    | some count => min wanted count
    | none => wanted
  s.instancesFrom wanted patience 0

/-- The first instances that are not excluded, `wanted` of them if there are so many.  An exclusion
takes away one instance at most, so as many more are drawn as there are exclusions. -/
def admitted (s : RuleSet) (wanted : Nat) : List Int :=
  ((s.instances (wanted + s.excluded.length)).filter fun t => !s.excluded.contains t).take wanted

/-- The instants of what is admitted. -/
def admittedInstants (s : RuleSet) (wanted : Nat) : List Instant :=
  (s.admitted wanted).filterMap fun t => Instant.ofSeconds? t 0

/-- Reads the text of a rule and gives its instances. -/
def expand (text : List Char) : Except String Instances :=
  ((ofText text).mapError RuleFault.message).map admittedInstants

end RuleSet

/-- The engine for rules in zones of the table. -/
instance RuleSet.engine : RuleEngine where
  expand := expand
  whole {text instances} h cap t ht := by
    unfold expand at h
    cases hset : ofText text with
    | error fault =>
      rw [hset] at h
      cases h
    | ok set =>
      rw [hset] at h
      cases h
      obtain ⟨seconds, -, hseconds⟩ := List.mem_filterMap.1 ht
      exact Instant.nano_of_ofSeconds? hseconds

end CalendarRules
