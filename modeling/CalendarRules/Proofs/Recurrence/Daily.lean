import CalendarRules.Proofs.Recurrence.Exclusions
import CalendarRules.Proofs.Recurrence.Range
import Mathlib.Data.List.TakeWhile
import Mathlib.Tactic.Positivity
import Mathlib.Tactic.Ring

/-!
# Days at one distance

A recurrence that repeats days in universal time and asks for nothing else is written down as a
start, a distance in days and a number.  An engine that knows days gives for such a text the
instants at that distance from the start, until there are as many as the text says or as it is asked
for, or until its calendar ends (`RuleEngine.ExpandsDays`).

The start of the event is written down to the second and read again on the way.  If it is a whole
second, the occurrences start that many days after it (`Event.occurrences_daily`).

The engine of the table goes from period to period.  Each period of days has one instance, at the
time of day of the start, so instances are as far apart as periods, whatever months and years lie
between (`RuleSet.IsDaily.instancesIn_eq`).  They go on to the end of the year 10000.
-/

namespace CalendarRules

/-- So many seconds at one distance. -/
def spaced (start distance : Int) (n : Nat) : List Int :=
  (List.range n).map fun k : Nat => start + k * distance

@[simp] theorem length_spaced (start distance : Int) (n : Nat) :
    (spaced start distance n).length = n := by
  rw [spaced, List.length_map, List.length_range]

@[simp] theorem getElem_spaced {start distance : Int} {n k : Nat}
    (hk : k < (spaced start distance n).length) :
    (spaced start distance n)[k] = start + k * distance := by
  simp only [spaced, List.getElem_map, List.getElem_range]

/-- If a text has a start in universal time and a rule that repeats days a number of times and says
nothing else, then the engine gives instants at the distance of so many days from the start on, as
many as the rule says and as it is asked for.  It may stop before, but not as long as the last of
them lies before the year 10000. -/
def RuleEngine.ExpandsDays [RuleEngine] (text : List Char) : Prop :=
  ∀ ⦃stamp value interval count all⦄,
    Line.all? text = some [⟨"DTSTART".toList, [Line.zoneParameter .universal], stamp⟩,
      ⟨"RRULE".toList, [], value⟩] →
    HasKeys value ["FREQ", "INTERVAL", "COUNT"] →
    Descriptor.ofValue? value = some ⟨.daily, interval, some count, [], none⟩ →
    0 < interval → 0 < count → RuleEngine.expand text = .ok all →
    ∃ start, stampSeconds? stamp = some start ∧ ∀ cap ≤ Event.mostInstances,
      ∃ m ≤ min count.toNat cap,
        (all cap).map Instant.seconds = spaced start (interval * 86400) m ∧
        ((Date.ofDay (start / 86400 + (min count.toNat cap - 1 : Nat) * interval)).year < 10000 →
          m = min count.toNat cap)

/-! ## Occurrences of days -/

namespace Recurrence

variable {r : Recurrence}

/-- What is written down of a recurrence that asks for no days. -/
theorem hasKeys_of_plain (hend : r.endDate = none) (hdays : r.daysOfWeek = none)
    (hday : r.dayOfMonth = none) (z : Zone) :
    HasKeys (Text.joined ';' (r.properties z)) ["FREQ", "INTERVAL", "COUNT"] := by
  rw [hasKeys_properties_iff]
  simp [propertyValues, dayText?, dayNames, hend, hdays, hday]

end Recurrence

namespace Event

variable [TimeZones] [RuleEngine] {e : Event} {r : Recurrence}

/-- An engine that knows days draws instants at the distance of the recurrence, counted from the
start of the event, which is in no leap second. -/
theorem exists_drawn_eq_spaced (hfrequency : r.frequency = .daily) (hproblems : r.problems = [])
    (hend : r.endDate = none) (hdays : r.daysOfWeek = none) (hday : r.dayOfMonth = none)
    (hexcluded : r.excludeDates = []) {count : Int} (hcount : r.count = some count)
    (hengine : RuleEngine.ExpandsDays (r.ruleText .universal e.start)) {all : Instances}
    (hall : RuleEngine.expand (r.ruleText .universal e.start) = .ok all) {limit : Nat}
    (hlimit : limit ≤ mostInstances) :
    e.start.isLeap = false ∧ ∃ m ≤ min count.toNat limit,
      (all (drawnFor r limit)).map Instant.seconds =
        spaced e.start.seconds (r.interval * 86400) m ∧
      ((Date.ofDay (e.start.day + (min count.toNat limit - 1 : Nat) * r.interval)).year < 10000 →
        m = min count.toNat limit) := by
  have hwritten : Descriptor.ofValue? (Text.joined ';' (r.properties .universal)) =
      some ⟨.daily, r.interval, some count, [], none⟩ := by
    rw [Recurrence.ofValue?_properties, Recurrence.written, Recurrence.descriptor, hfrequency,
      hcount, hdays, hday]
    rfl
  obtain ⟨start, hstart, hgives⟩ := hengine
    ((Line.all?_ruleText_eq_pair_iff Zone.notMem_name_universal).2 ⟨hexcluded, rfl, rfl⟩)
    (Recurrence.hasKeys_of_plain hend hdays hday _) hwritten
    (Recurrence.interval_pos_of_problems hproblems)
    (Recurrence.count_pos_of_problems hproblems hcount) hall
  have hleap := Zone.not_isLeap_of_stampSeconds? hstart rfl
  have hseconds : start = e.start.seconds := by
    rw [Zone.eq_clock_of_stampSeconds? hstart, Zone.clock_of_not_isLeap _ hleap,
      Zone.localTime_universal]
  have hdrawn : drawnFor r limit = limit := by
    rw [drawnFor, hexcluded, List.length_nil, Nat.add_zero, Nat.min_eq_right hlimit]
  have hstartDay : e.start.seconds / 86400 = e.start.day := by
    have hsecond := e.start.isInstant.2.2.1
    rw [Instant.seconds]
    omega
  refine ⟨hleap, ?_⟩
  rw [hdrawn, ← hstartDay, ← hseconds]
  exact hgives limit hlimit

end Event

/-- A daily recurrence in universal time that has a count and nothing else: the occurrences of an
expansion that succeeds start at one distance, each so many intervals of days after the start of the
event, and last as long as the event.  There are no more of them than the count and the limit say,
and exactly so many if the last of these starts before the year 10000. -/
theorem Event.occurrences_daily [TimeZones] [RuleEngine] {e : Event} {r : Recurrence}
    (hr : e.recurring = some r) (hfrequency : r.frequency = .daily)
    (hzone : e.recurrenceZone r = "UTC") (hend : r.endDate = none) (hdays : r.daysOfWeek = none)
    (hday : r.dayOfMonth = none) (hexcluded : r.excludeDates = []) {count : Int}
    (hcount : r.count = some count) (hsecond : e.start.nano % 1000000000 = 0)
    (hengine : RuleEngine.ExpandsDays (r.ruleText .universal e.start)) {limit? : Option Nat}
    (hlimit : ∀ n ∈ limit?, n ≤ Event.mostInstances) {os : List Occurrence}
    (h : e.occurrences (limit?.getD Event.defaultLimit) = .ok os) :
    (∀ (k : Nat) (hk : k < os.length),
      os[k].start.minus e.start = k * r.interval * (24 * 3600 * 1000000000) ∧
      os[k].finish.minus os[k].start = e.finish.minus e.start) ∧
    os.length ≤ min count.toNat (limit?.getD 500) ∧
    ((Date.ofDay (e.start.day +
        (min count.toNat (limit?.getD 500) - 1 : Nat) * r.interval)).year < 10000 →
      os.length = min count.toNat (limit?.getD 500)) := by
  have hmost : limit?.getD 500 ≤ Event.mostInstances := by
    cases limit? with
    | none => decide
    | some n => exact hlimit n rfl
  change e.occurrences (limit?.getD 500) = .ok os at h
  generalize limit?.getD 500 = limit at *
  obtain ⟨all, hinstances⟩ := Event.exists_instances_of_occurrences hr h
  obtain ⟨hproblems, zone, hzone', hall⟩ := Event.instances_eq_ok_iff.1 hinstances
  rw [hzone, Zone.ofName?_utc] at hzone'
  cases hzone'
  obtain ⟨hleap, m, hm, hspaced, hfull⟩ := Event.exists_drawn_eq_spaced hfrequency hproblems hend
    hdays hday hexcluded hcount hengine hall hmost
  rw [Event.occurrences_of_instances hr hinstances rfl] at h
  obtain ⟨drawn, hdrawn, h⟩ := Outcome.bind_eq_ok h
  cases h
  have hstarts : drawn.map (fun o => o.start.seconds) =
      spaced e.start.seconds (r.interval * 86400) m := by
    rw [← hspaced, ← Event.map_start_of_mapM hdrawn, List.map_map]
    rfl
  have hlength : drawn.length = m := by
    rw [← List.length_map (fun o : Occurrence => o.start.seconds), hstarts, length_spaced]
  have htake : drawn.take limit = drawn := List.take_of_length_le (by omega)
  rw [htake]
  refine ⟨fun k hk => ?_, hlength ▸ hm, fun hyear => hlength.trans (hfull hyear)⟩
  obtain ⟨t, ht, hat⟩ := Outcome.exists_of_mem_of_mapM_eq_ok hdrawn (List.getElem_mem hk)
  obtain ⟨hwhole, hkept⟩ := Event.length_of_occurrenceAt (RuleEngine.whole hall _ t ht) hat
  refine ⟨?_, hkept⟩
  have hstart : drawn[k].start.seconds = e.start.seconds + k * (r.interval * 86400) := by
    have hk' : k < (drawn.map fun o => o.start.seconds).length := by rwa [List.length_map]
    rw [← getElem_spaced (n := m) (by rwa [length_spaced, ← hlength]),
      ← List.getElem_of_eq hstarts hk', List.getElem_map]
  have hnano : e.start.nano = 0 := by
    have := Instant.nano_lt hleap
    omega
  rw [Instant.minus_eq (Instant.isLeap_of_nano_eq_zero hwhole) hleap, Instant.nanos, Instant.nanos,
    hwhole, hnano, hstart]
  ring

/-! ## The engine of the table -/

/-- The numbers in front of the first one that fails a test are those below some number. -/
theorem exists_takeWhile_range {p : Nat → Bool} (hp : ∀ j k, j ≤ k → p k = true → p j = true)
    (n : Nat) :
    ∃ m ≤ n, (List.range n).takeWhile p = List.range m ∧ (p (n - 1) = true → m = n) := by
  have hshort : ((List.range n).takeWhile p).length ≤ n := by
    have := (List.takeWhile_sublist (l := List.range n) p).length_le
    rwa [List.length_range] at this
  refine ⟨((List.range n).takeWhile p).length, hshort, ?_, fun hlast => ?_⟩
  · have hfront := List.prefix_iff_eq_take.1 (List.takeWhile_prefix (l := List.range n) p)
    rw [List.take_range, Nat.min_eq_left hshort] at hfront
    exact hfront
  · have hall : ∀ k ∈ List.range n, p k = true := by
      intro k hk
      have hk := List.mem_range.1 hk
      exact hp k (n - 1) (by omega) hlast
    rw [List.takeWhile_eq_self_iff.2 hall, List.length_range]

namespace RuleSet

variable {s : RuleSet}

/-! ## Rules of days -/

/-- The rule repeats days in universal time and asks for nothing else. -/
structure IsDaily (s : RuleSet) : Prop where
  zone : s.zone = .universal
  start : s.start = s.localStart
  frequency : s.repetition.frequency = .daily
  finish : s.repetition.finish = none
  days : s.repetition.days = []
  monthDay : s.repetition.monthDay = none

/-- The start, so many periods of days later. -/
def later (s : RuleSet) (k : Nat) : Int := s.start + k * (s.repetition.interval * 86400)

namespace IsDaily

variable (h : s.IsDaily)

include h

theorem period_eq (k : Nat) : s.period k =
    (s.startDay + (k * s.repetition.interval : Nat),
      s.startDay + (k * s.repetition.interval : Nat) + 1) := by
  rw [period, h.frequency, Frequency.period]

theorem hasPeriod_iff (k : Nat) : s.hasPeriod k = true ↔
    s.startDay + (k * s.repetition.interval : Nat) ≤ lastPeriodDay := by
  rw [hasPeriod, h.period_eq, h.frequency, Frequency.canStep, Bool.or_true, Bool.and_true,
    decide_eq_true_eq]

/-- A rule has all periods before one that it has. -/
theorem hasPeriod_of_le (j k : Nat) (hjk : j ≤ k) (hk : s.hasPeriod k = true) :
    s.hasPeriod j = true := by
  rw [h.hasPeriod_iff] at hk ⊢
  have := Nat.mul_le_mul_right s.repetition.interval hjk
  omega

theorem asksFor_eq (day : Int) : s.asksFor day = true := by
  rw [asksFor, h.days, h.monthDay]
  simp only [isLikeStart, h.frequency]

theorem instanceOn?_eq (day : Int) : s.instanceOn? day = some (day * 86400 + s.timeOfDay) := by
  rw [instanceOn?, h.zone, YearlyZone.instantsAt_universal]

/-- Each period has one instance. -/
theorem instancesIn_eq (k : Nat) : s.instancesIn k = [s.later k] := by
  have hday : (s.startDay + (k * s.repetition.interval : Nat)) * 86400 + s.timeOfDay =
      s.later k := by
    rw [later, h.start, startDay, timeOfDay, ← Int.mul_assoc, Nat.cast_mul]
    omega
  have hone : ∀ first : Int, (first + 1 - first).toNat = 1 := by
    intro first
    omega
  have hlate : decide (s.start ≤ s.later k) = true := by
    have hnonneg : 0 ≤ (k : Int) * (s.repetition.interval * 86400) := by positivity
    rw [later, decide_eq_true_eq]
    omega
  rw [instancesIn, h.period_eq]
  simp only [hone, List.range_one, List.map_cons, List.map_nil, Int.natCast_zero, Int.add_zero]
  rw [List.filter_cons_of_pos (h.asksFor_eq _), List.filter_nil,
    List.filterMap_cons_some (h.instanceOn?_eq _), List.filterMap_nil, hday, List.filter_singleton,
    hlate, cond_true]

/-- With a count and without exclusions, what is admitted are the first instances, as many as are
asked for if the calendar has them. -/
theorem exists_admitted_eq (hexcluded : s.excluded = []) {count : Nat}
    (hcount : s.repetition.count = some count) (n : Nat) :
    ∃ m ≤ min n count, s.admitted n = (List.range m).map s.later ∧
      (s.hasPeriod (min n count - 1) = true → m = min n count) := by
  obtain ⟨m, hm, hrange, hfull⟩ := exists_takeWhile_range h.hasPeriod_of_le (min n count)
  refine ⟨m, hm, ?_, hfull⟩
  have hinstances : s.instances n = (List.range m).map s.later := by
    rw [instances_eq, hcount, Option.elim, instancesFrom_eq_map h.finish _ (by decide) 0
      fun k _ _ => h.instancesIn_eq k, ← List.range_eq_range', hrange]
  have hfew : ((List.range m).map s.later).length ≤ n := by
    rw [List.length_map, List.length_range]
    omega
  rw [admitted, hexcluded, List.length_nil, Nat.add_zero, hinstances]
  simp only [List.contains_nil, Bool.not_false, List.filter_true]
  exact List.take_of_length_le hfew

end IsDaily

end RuleSet

/-- What is read of a recurrence that repeats days and asks for no others is a rule of days. -/
theorem RuleSet.IsRule.isDaily {r : Recurrence} {start : Instant} {s : RuleSet}
    (h : IsRule .universal r start s) (hfrequency : r.frequency = .daily)
    (hend : r.endDate = none) (hdays : (r.daysOfWeek.getD []).filterMap weekday? = [])
    (hday : r.dayOfMonth = none) : s.IsDaily := by
  refine ⟨h.zone, ?_, h.frequency.trans hfrequency, ?_, h.days.trans hdays, ?_⟩
  · rw [h.start, h.localStart]
    exact (Zone.localTime_universal _).symm
  · rw [h.finish, hend]
    rfl
  · rw [h.monthDay, hday]
    rfl

/-- The last of so many days is before the year 10000, so the rule has its period. -/
theorem RuleSet.IsDaily.hasPeriod_of_year {s : RuleSet} (hs : s.IsDaily) {k : Nat}
    (hyear : (Date.ofDay (s.start / 86400 + k * s.repetition.interval)).year < 10000) :
    s.hasPeriod k = true := by
  have hbefore := (year_bounds (s.start / 86400 + k * s.repetition.interval)).2
  have hend : firstDayOfYear
      ((Date.ofDay (s.start / 86400 + k * s.repetition.interval)).year + 1) ≤
        firstDayOfYear 10001 := firstDayOfYear_le (by omega)
  rw [hs.hasPeriod_iff, startDay, ← hs.start, lastPeriodDay, Nat.cast_mul]
  omega

/-- The engine of the table knows days. -/
theorem RuleSet.expandsDays (r : Recurrence) (start : Instant) :
    RuleEngine.ExpandsDays (r.ruleText .universal start) := by
  intro stamp value interval count all hlines hkeys hvalue _ _ hall
  obtain ⟨hexcluded, rfl, rfl⟩ :=
    (Line.all?_ruleText_eq_pair_iff Zone.notMem_name_universal).1 hlines
  have hend : r.endDate = none := by
    rw [Recurrence.hasKeys_properties_iff] at hkeys
    simp only [Recurrence.propertyValues, List.forall_mem_cons] at hkeys
    simpa using hkeys.2.2.2.1
  rw [Recurrence.ofValue?_properties, Option.some_inj, Recurrence.written, Recurrence.descriptor,
    Descriptor.mk.injEq] at hvalue
  obtain ⟨hfrequency, rfl, hcount, hdays, hday⟩ := hvalue
  obtain ⟨s, hs, rfl⟩ := (expand_ruleText_eq_ok_iff (z := .universal) rfl).1 hall
  have hrule := hs.isRule YearlyZone.universal_mem_table
  have hdaily := hrule.isDaily hfrequency hend (List.map_eq_nil_iff.1 hdays) hday
  have hnone : s.excluded = [] := by rw [hrule.excluded, hexcluded, List.map_nil]
  obtain ⟨n, hn, rfl⟩ := Option.map_eq_some_iff.1 (hrule.count.trans hcount)
  refine ⟨s.start, hdaily.start ▸ hs.stampSeconds?_start, fun cap _ => ?_⟩
  obtain ⟨m, hm, hadmitted, hfull⟩ := hdaily.exists_admitted_eq hnone hn cap
  rw [Nat.min_comm] at hm hfull
  refine ⟨m, hm, ?_, fun hyear => hfull (hdaily.hasPeriod_of_year ?_)⟩
  · rw [hrule.map_seconds_admittedInstants YearlyZone.universal_mem_table, hadmitted, spaced,
      ← hrule.interval]
    rfl
  · rw [hrule.interval]
    exact hyear

/-! ## Every other day, over a leap day -/

/-- Every other day, three times. -/
def pollDays : Recurrence where
  frequency := .daily
  interval := 2
  count := some 3

/-- An hour at six in the morning, from 2024-02-28 on. -/
def poll : Event where
  id := "1"
  type := "poll"
  start := ⟨19781, 21600, 0, by decide⟩
  finish := ⟨19781, 25200, 0, by decide⟩
  recurring := some pollDays

/-- What is read from the text of the rule. -/
def pollRule : RuleSet where
  zone := .universal
  localStart := 1709100000
  start := 1709100000
  repetition := ⟨.daily, 2, some 3, none, [], none⟩
  excluded := []

/-- The second is on the first of March. -/
def pollOccurrences : List Occurrence := [
  ⟨⟨19781, 21600, 0, by decide⟩, ⟨19781, 25200, 0, by decide⟩⟩,
  ⟨⟨19783, 21600, 0, by decide⟩, ⟨19783, 25200, 0, by decide⟩⟩,
  ⟨⟨19785, 21600, 0, by decide⟩, ⟨19785, 25200, 0, by decide⟩⟩]

theorem isRead_poll : RuleSet.IsRead .universal pollDays poll.start pollRule :=
  RuleSet.isRead_of_count rfl rfl (by decide) ⟨rfl, rfl, rfl⟩
    (RuleSet.readStamp_stamp_universal (by decide) (by decide) rfl _) rfl

theorem occurrences_poll : poll.occurrences Event.defaultLimit = .ok pollOccurrences := by
  have hadmitted : pollRule.admitted (Event.drawnFor pollDays Event.defaultLimit) =
      [1709100000, 1709272800, 1709445600] :=
    RuleSet.admitted_eq_of_found [1709100000, 1709272800, 1709445600] rfl rfl
      (by decide +kernel)
  rw [Event.occurrences_of_isRead rfl rfl rfl rfl isRead_poll hadmitted]
  rfl

/-- Without a limit, the three starts are forty-eight hours apart. -/
theorem Event.occurrences_daily_poll :
    RuleEngine.ExpandsDays (pollDays.ruleText .universal poll.start) ∧
    poll.occurrences Event.defaultLimit = .ok pollOccurrences ∧
    (∀ (k : Nat) (hk : k < pollOccurrences.length),
      pollOccurrences[k].start.minus poll.start = k * 2 * (24 * 3600 * 1000000000) ∧
      pollOccurrences[k].finish.minus pollOccurrences[k].start = poll.finish.minus poll.start) ∧
    pollOccurrences.length = 3 := by
  have hlimit : ∀ n ∈ (none : Option Nat), n ≤ Event.mostInstances := nofun
  have hengine := RuleSet.expandsDays pollDays poll.start
  obtain ⟨hstarts, -, hall⟩ := Event.occurrences_daily (e := poll) (r := pollDays) rfl rfl rfl rfl
    rfl rfl rfl rfl rfl hengine hlimit occurrences_poll
  exact ⟨hengine, occurrences_poll, hstarts, hall (by decide +kernel)⟩

end CalendarRules
