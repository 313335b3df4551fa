import CalendarRules.Proofs.Time.Date
import CalendarRules.Proofs.Time.Instant
import CalendarRules.Proofs.Validation.Duration
import CalendarRules.Validation

/-!
# Whole days

An event of whole days covers one day of universal time: it starts with the first nanosecond of a
date, and finishes in the last second of that date or with the first nanosecond of the next one
(`Event.CoversDay`).  The check looks at numbers of days and seconds instead, which comes to the same
because no two dates share a number and the next date has the next one (`Event.closesDay_iff`).

Where nothing else is asked, this is all that validation asks of an event of whole days that does not
recur.  Such an event starts before it finishes, and its length is that of a day up to a second
(`Declaration.valid_validate_iff_coversDay`): the last second of a day need not be over, and it may be
a leap second.
-/

namespace CalendarRules

namespace Instant

variable {t start finish : Instant}

/-! ## Clocks -/

/-- A clock in universal time shows an instant like this.  It shows a leap second as the second
before. -/
structure Shows (t : Instant) (hour minute second : Nat) : Prop where
  hour : t.hour = hour
  minute : t.minute = minute
  second : t.secondOfMinute = second

theorem shows_iff {hour minute second : Nat} (hminute : minute < 60) (hsecond : second < 60) :
    t.Shows hour minute second ↔ t.second = hour * 3600 + minute * 60 + second := by
  constructor
  · rintro ⟨hh, hm, hs⟩
    rw [Instant.hour] at hh
    rw [Instant.minute] at hm
    rw [secondOfMinute] at hs
    omega
  · intro h
    refine ⟨?_, ?_, ?_⟩
    · rw [Instant.hour]
      omega
    · rw [Instant.minute]
      omega
    · rw [secondOfMinute]
      omega

/-- The first nanosecond of a date. -/
structure BeginsDate (t : Instant) : Prop where
  clock : t.Shows 0 0 0
  nano : t.nano = 0

theorem BeginsDate.second_eq (h : t.BeginsDate) : t.second = 0 :=
  (shows_iff (by decide) (by decide)).1 h.clock

theorem isMidnight_iff : t.isMidnight = true ↔ t.BeginsDate := by
  have hshows : t.Shows 0 0 0 ↔ t.second = 0 := shows_iff (by decide) (by decide)
  rw [isMidnight, Bool.and_eq_true, beq_iff_eq, beq_iff_eq, ← hshows]
  exact ⟨fun h => ⟨h.1, h.2⟩, fun h => ⟨h.clock, h.nano⟩⟩

/-! ## From the beginning of a date -/

/-- No leap second lies on the way from the beginning of a date to the same time of day or a later
one. -/
theorem minus_of_beginsDate (h : start.BeginsDate) :
    finish.minus start =
      ((finish.day - start.day) * 86400 + finish.second) * 1000000000 + finish.nano := by
  have hsecond := h.second_eq
  have hnano := h.nano
  have hleap : start.isLeap = false := by
    rw [isLeap, hnano]
    rfl
  have hbetween : leapBetween finish start = 0 := by
    rw [leapBetween, hleap, hsecond]
    simp
  rw [minus, hbetween, seconds, seconds, hsecond, hnano]
  omega

theorem lt_of_beginsDate (h : start.BeginsDate)
    (hlater : 86399 ≤ (finish.day - start.day) * 86400 + finish.second) :
    start.lt finish = true := by
  have hsecond := h.second_eq
  have hnano := h.nano
  rw [lt_iff, rank, rank, seconds, seconds, hsecond, hnano]
  omega

end Instant

namespace Event

variable {e : Event} {scope : Scope}

/-! ## Events of a whole day -/

/-- The event covers a date up to its last second or to the next date. -/
structure CoversDay (e : Event) : Prop where
  start : e.start.BeginsDate
  finish : e.finish.date = e.start.date ∧ e.finish.Shows 23 59 59 ∨
    e.finish.date = e.start.date.next ∧ e.finish.BeginsDate

/-- A finish in the last second of the date of the start, or with the first nanosecond of the next
date. -/
theorem closesDay_iff {start finish : Instant} : closesDay start finish = true ↔
    finish.date = start.date ∧ finish.Shows 23 59 59 ∨
      finish.date = start.date.next ∧ finish.BeginsDate := by
  have hshows : finish.Shows 23 59 59 ↔ finish.second = 86399 :=
    Instant.shows_iff (by decide) (by decide)
  rw [closesDay, Bool.or_eq_true, Bool.and_eq_true, Bool.and_eq_true, beq_iff_eq, beq_iff_eq,
    beq_iff_eq, Instant.isMidnight_iff, Instant.date_eq_iff, Instant.date_eq_next_iff, hshows]

theorem orderViolations_eq_nil_iff : e.orderViolations = [] ↔ e.start.lt e.finish = true := by
  rw [orderViolations, complaint_eq_nil_iff, Bool.not_eq_false']

theorem allDayViolations_eq_nil_iff : e.allDayViolations = [] ↔ e.CoversDay := by
  rw [allDayViolations, List.append_eq_nil_iff, complaint_eq_nil_iff, complaint_eq_nil_iff,
    Bool.not_eq_false', Bool.not_eq_false', Instant.isMidnight_iff, closesDay_iff]
  exact ⟨fun h => ⟨h.1, h.2⟩, fun h => ⟨h.start, h.finish⟩⟩

namespace CoversDay

/-- The finish by its number of days and seconds. -/
theorem finish_cases (h : e.CoversDay) :
    e.finish.day = e.start.day ∧ e.finish.second = 86399 ∨
      e.finish.day = e.start.day + 1 ∧ e.finish.second = 0 ∧ e.finish.nano = 0 := by
  obtain ⟨hdate, hclock⟩ | ⟨hdate, hbegin⟩ := h.finish
  · exact .inl ⟨Instant.date_eq_iff.1 hdate, (Instant.shows_iff (by decide) (by decide)).1 hclock⟩
  · exact .inr ⟨Instant.date_eq_next_iff.1 hdate, hbegin.second_eq, hbegin.nano⟩

theorem start_lt_finish (h : e.CoversDay) : e.start.lt e.finish = true := by
  refine Instant.lt_of_beginsDate h.start ?_
  obtain ⟨hday, hsecond⟩ | ⟨hday, hsecond, -⟩ := h.finish_cases
  · omega
  · omega

/-- A day of 86399 seconds at least, and of less than 86401 seconds. -/
theorem length_bounds (h : e.CoversDay) :
    86399 * 1000000000 ≤ e.length ∧ e.length < 86401 * 1000000000 := by
  obtain ⟨-, -, -, hnano, -⟩ := e.finish.isInstant
  rw [length, Instant.minus_of_beginsDate h.start]
  obtain ⟨hday, hsecond⟩ | ⟨hday, hsecond, hzero⟩ := h.finish_cases
  · omega
  · omega

end CoversDay

/-- Without constraints only the order, the whole days and the recurrence are looked at. -/
theorem timeViolations_nil [TimeZones] : e.timeViolations [] scope =
    e.orderViolations ++ e.dayViolations none ++ e.recurrenceViolations := by
  have hnotice : e.noticeViolations none none scope.now = [] := by
    unfold noticeViolations
    split <;> rfl
  show e.orderViolations ++ [] ++ [] ++ e.noticeViolations none none scope.now ++ [] ++ [] ++
    e.dayViolations none ++ [] ++ e.recurrenceViolations = _
  rw [hnotice]
  simp only [List.append_nil]

end Event

namespace Declaration

/-- For a type without constraints and rules, an event of whole days that does not recur is valid
exactly if it covers a day.  It starts before it finishes then, and is as long as a day, up to a
second. -/
theorem valid_validate_iff_coversDay [TimeZones] (d : Declaration) (e : Event) (scope : Scope)
    (hconstraints : d.constraints = []) (hrules : d.rules = []) (hallDay : e.allDay = some true)
    (honce : e.recurring = none) :
    ((d.validate e scope).valid = true ↔ e.CoversDay) ∧
    ((d.validate e scope).valid = true →
      e.start.lt e.finish = true ∧
        86399 * 1000000000 ≤ e.length ∧ e.length < 86401 * 1000000000) := by
  have hrecurrence : e.recurrenceViolations = [] := by
    rw [Event.recurrenceViolations, honce]
  have hdays : e.dayViolations none = e.allDayViolations := if_pos hallDay
  have hvalid : (d.validate e scope).valid = true ↔ e.CoversDay := by
    rw [Verdict.valid, validate, hconstraints, hrules, List.isEmpty_iff, Event.timeViolations_nil,
      hdays, hrecurrence, Rule.violationsOfAll, List.append_nil, List.append_nil,
      List.append_eq_nil_iff, Event.orderViolations_eq_nil_iff, Event.allDayViolations_eq_nil_iff]
    exact ⟨fun h => h.2, fun h => ⟨h.start_lt_finish, h⟩⟩
  exact ⟨hvalid, fun h => ⟨(hvalid.1 h).start_lt_finish, (hvalid.1 h).length_bounds⟩⟩

/-- A type that asks for nothing. -/
def holiday : Declaration where
  id := "holiday"
  name := "Holiday"

/-- The last day of 2016, up to the end of its leap second. -/
def newYearsEve : Event where
  id := "1"
  type := "holiday"
  start := ⟨17166, 0, 0, by decide⟩
  finish := ⟨17166, 86399, 1999999999, by decide⟩
  allDay := some true

/-- The day before the leap day of 2024. -/
def leapDayEve : Event where
  id := "2"
  type := "holiday"
  start := ⟨19781, 0, 0, by decide⟩
  finish := ⟨19782, 0, 0, by decide⟩
  allDay := some true

/-- A day may end with a leap second and before a leap day, but it does not leave a leap day out. -/
theorem valid_validate_iff_coversDay_leap :
    ((holiday.validate newYearsEve { clock := newYearsEve.start }).valid = true ∧
      newYearsEve.length < 86401 * 1000000000) ∧
    (holiday.validate leapDayEve { clock := leapDayEve.start }).valid = true ∧
    (holiday.validate { leapDayEve with finish := ⟨19783, 0, 0, by decide⟩ }
      { clock := leapDayEve.start }).valid = false := by
  have heve := valid_validate_iff_coversDay holiday newYearsEve { clock := newYearsEve.start }
    rfl rfl rfl rfl
  have hvalid := heve.1.2 ⟨⟨⟨rfl, rfl, rfl⟩, rfl⟩, .inl ⟨rfl, ⟨rfl, rfl, rfl⟩⟩⟩
  refine ⟨⟨hvalid, (heve.2 hvalid).2.2⟩, ?_, ?_⟩
  · exact (valid_validate_iff_coversDay holiday leapDayEve { clock := leapDayEve.start }
      rfl rfl rfl rfl).1.2
      ⟨⟨⟨rfl, rfl, rfl⟩, rfl⟩, .inr ⟨by decide +kernel, ⟨rfl, rfl, rfl⟩, rfl⟩⟩
  · rw [Bool.eq_false_iff, Ne, (valid_validate_iff_coversDay holiday _ _ rfl rfl rfl rfl).1]
    rintro ⟨-, ⟨hsame, -⟩ | ⟨hnext, -⟩⟩
    · exact absurd hsame (by decide +kernel)
    · exact absurd hnext (by decide +kernel)

end Declaration
end CalendarRules
