import CalendarRules.Proofs.Recurrence.Range
import CalendarRules.Proofs.Recurrence.Recovery

/-!
# Recurrences that a rule can express

A recurrence without problems need not be one that a rule can express.  Its interval and its count
have no upper bound, nor has its day of the month unless months are repeated.  An engine has room
for numbers up to some limits, and takes a day of the month only with certain frequencies
(`RuleLimits`): what it refuses is a rule that does not fit them (`RuleEngine.Takes`).

In universal time nothing else is refused.  A recurrence with a count and without problems can be
expanded exactly if it fits, apart from occurrences that end out of range
(`Event.occurrences_of_count`).
-/

namespace CalendarRules

/-! ## What an engine takes -/

/-- What an engine has room for.  A day of the month is one of thirty-one counted from either end.
All of these go with days, months and years, and none that is counted from the beginning goes with
weeks. -/
structure RuleLimits where
  /-- The largest interval. -/
  interval : Int
  /-- The largest count. -/
  count : Int
  /-- A day of the month goes with a frequency. -/
  monthDay : Frequency → Int → Prop
  bounds : ∀ {f d}, monthDay f d → -31 ≤ d ∧ d ≤ 31
  weekly : ∀ {d}, monthDay .weekly d → d ≤ 0
  other : ∀ {f d}, f ≠ .weekly → d ≠ 0 → -31 ≤ d → d ≤ 31 → monthDay f d

/-- The numbers of a descriptor have a place in a rule, and its day of the month goes with its
frequency. -/
structure Descriptor.Fits (limits : RuleLimits) (d : Descriptor) : Prop where
  interval : d.interval ≤ limits.interval
  count : ∀ n ∈ d.count, n ≤ limits.count
  monthDay : ∀ day ∈ d.dayOfMonth, limits.monthDay d.frequency day

/-- Of a text with a start in universal time and a rule without an end by date, positive in its
numbers, the engine refuses nothing but what does not fit its limits. -/
def RuleEngine.Takes [RuleEngine] (limits : RuleLimits) (text : List Char) : Prop :=
  ∀ ⦃stamp value localStart d⦄,
    Line.all? text = some [⟨"DTSTART".toList, [Line.zoneParameter .universal], stamp⟩,
      ⟨"RRULE".toList, [], value⟩] →
    stampSeconds? stamp = some localStart →
    HasKeys value ["FREQ", "INTERVAL", "COUNT", "BYDAY", "BYMONTHDAY"] →
    Descriptor.ofValue? value = some d → 0 < d.interval → (∀ n ∈ d.count, 0 < n) →
    ((∃ all, RuleEngine.expand text = .ok all) ↔ d.Fits limits)

/-! ## Recurrences in universal time -/

namespace Recurrence

variable {r : Recurrence} {limits : RuleLimits}

/-- Days of the week have no part in what fits. -/
theorem fits_written_iff : r.written.Fits limits ↔ r.descriptor.Fits limits :=
  ⟨fun h => ⟨h.interval, h.count, h.monthDay⟩, fun h => ⟨h.interval, h.count, h.monthDay⟩⟩

/-- Without an end by date, there is no key for it. -/
theorem hasKeys_of_endDate_eq_none (hend : r.endDate = none) (z : Zone) :
    HasKeys (Text.joined ';' (r.properties z))
      ["FREQ", "INTERVAL", "COUNT", "BYDAY", "BYMONTHDAY"] := by
  rw [hasKeys_properties_iff]
  simp [propertyValues, hend]

end Recurrence

namespace Event

variable [TimeZones] {e : Event} {r : Recurrence} {limits : RuleLimits}

theorem ofName?_recurrenceZone_of_unnamed (hzone : e.timeZone = none) (hzone' : r.timeZone = none) :
    Zone.ofName? (e.recurrenceZone r) = some Zone.universal := by
  rw [recurrenceZone, hzone, hzone']
  exact Zone.ofName?_utc

/-- The engine takes the text of a recurrence with a count exactly if it fits. -/
theorem exists_expand_iff [RuleEngine] (hlow : 0 ≤ e.start.date.year)
    (hhigh : e.start.date.year ≤ 9999) (hleap : e.start.isLeap = false)
    (hcount : r.count.isSome = true) (hexcluded : r.excludeDates = [])
    (hproblems : r.problems = [])
    (htakes : RuleEngine.Takes limits (r.ruleText .universal e.start)) :
    (∃ all, RuleEngine.expand (r.ruleText .universal e.start) = .ok all) ↔
      r.descriptor.Fits limits := by
  have hend := Recurrence.endDate_eq_none_of_problems hproblems hcount
  rw [← Recurrence.fits_written_iff]
  exact htakes ((Line.all?_ruleText_eq_pair_iff Zone.notMem_name_universal).2 ⟨hexcluded, rfl, rfl⟩)
    (Zone.stampSeconds?_universal hlow hhigh hleap) (Recurrence.hasKeys_of_endDate_eq_none hend _)
    (Recurrence.ofValue?_properties r _) (Recurrence.interval_pos_of_problems hproblems)
    fun _ hn => Recurrence.count_pos_of_problems hproblems hn

end Event

/-- In universal time, a recurrence with a count that has no problems and no exclusions is taken by
the engine exactly if it fits the limits of the engine.  Then the event can be expanded, whatever
the limit, as long as the occurrences that are drawn end in the range of instants; else the rule is
refused.  It fits as soon as its interval and its count do and it names no day of the month, or
repeats something else than weeks and names one that exists; and if it fits, a day of the month that
it names is one of thirty-one from either end, and none from the beginning if it repeats weeks. -/
theorem Event.occurrences_of_count [TimeZones] [RuleEngine] {e : Event} {r : Recurrence}
    (hr : e.recurring = some r) (hlow : 0 ≤ e.start.date.year) (hhigh : e.start.date.year ≤ 9999)
    (hleap : e.start.isLeap = false) (hzone : e.timeZone = none) (hzone' : r.timeZone = none)
    (hcount : r.count.isSome = true) (hexcluded : r.excludeDates = [])
    (hproblems : r.problems = []) {limits : RuleLimits}
    (htakes : RuleEngine.Takes limits (r.ruleText .universal e.start)) (limit : Nat) :
    (r.descriptor.Fits limits → ∃ all, e.instances r = .ok all ∧
      ((∀ t ∈ all (Event.drawnFor r limit), Instant.InRange (t.nanos + e.length)) →
        ∃ os, e.occurrences limit = .ok os)) ∧
    (¬ r.descriptor.Fits limits →
      ∃ message, e.occurrences limit = .error (.unusableRule message)) ∧
    (r.interval ≤ limits.interval → (∀ n ∈ r.count, n ≤ limits.count) →
      (∀ d ∈ r.dayOfMonth, r.frequency ≠ .weekly ∧ d ≠ 0 ∧ -31 ≤ d ∧ d ≤ 31) →
      r.descriptor.Fits limits) ∧
    (r.descriptor.Fits limits → r.interval ≤ limits.interval ∧ (∀ n ∈ r.count, n ≤ limits.count) ∧
      ∀ d ∈ r.dayOfMonth, -31 ≤ d ∧ d ≤ 31 ∧ (r.frequency = .weekly → d ≤ 0)) := by
  have huniversal := Event.ofName?_recurrenceZone_of_unnamed hzone hzone'
  have hexpand := Event.exists_expand_iff hlow hhigh hleap hcount hexcluded hproblems htakes
  refine ⟨fun hfits => ?_, fun hnot => ?_, fun hinterval hnumber hday => ?_, fun hfits => ?_⟩
  · obtain ⟨all, hall⟩ := hexpand.2 hfits
    have hinstances := Event.instances_eq_ok_iff.2 ⟨hproblems, _, huniversal, hall⟩
    exact ⟨all, hinstances, (Event.exists_occurrences_iff hr hinstances).2⟩
  · have hinstances := Event.instances_eq_expand hproblems huniversal
    cases hall : RuleEngine.expand (r.ruleText .universal e.start) with
    | ok all => exact absurd (hexpand.1 ⟨all, hall⟩) hnot
    | error message =>
      rw [hall] at hinstances
      have hrange : ExpansionError.unusableRule message ≠ .outOfRange := by
        intro h
        cases h
      exact ⟨message, (Event.occurrences_eq_error_iff hr hrange).2 hinstances⟩
  · refine ⟨hinterval, hnumber, fun d hd => ?_⟩
    obtain ⟨hweekly, hzero, hfrom, hto⟩ := hday d hd
    exact limits.other hweekly hzero hfrom hto
  · refine ⟨hfits.interval, hfits.count, fun d hd => ?_⟩
    have hday := hfits.monthDay d hd
    obtain ⟨hfrom, hto⟩ := limits.bounds hday
    refine ⟨hfrom, hto, fun hweekly => limits.weekly ?_⟩
    rwa [← hweekly]

/-! ## The engine of the table -/

namespace RuleSet

variable {z : YearlyZone} {r : Recurrence} {start : Instant} {s : RuleSet}

/-- An interval of sixteen bits, a count of thirty-two, and with weeks no day counted from the
beginning of a month. -/
def limits : RuleLimits where
  interval := 65535
  count := 4294967295
  monthDay f d := (-31 ≤ d ∧ d ≤ 31) ∧ (f = .weekly → d ≤ 0)
  bounds h := h.1
  weekly h := h.2 rfl
  other hweekly _ hfrom hto := ⟨⟨hfrom, hto⟩, fun h => absurd h hweekly⟩

theorem exists_readNumber_iff (property : String) (most : Nat) (i : Int) :
    (∃ n, readNumber property most (Text.integer i) = .ok n) ↔ 0 ≤ i ∧ i ≤ most := by
  rw [readNumber_integer]
  by_cases h : 0 ≤ i ∧ i ≤ most
  · rw [if_pos h]
    exact iff_of_true ⟨_, rfl⟩ h
  · rw [if_neg h]
    exact iff_of_false nofun h

theorem exists_readMonthDay_iff (i : Int) :
    (∃ d, readMonthDay (Text.integer i) = .ok d) ↔ -31 ≤ i ∧ i ≤ 31 := by
  rw [readMonthDay_integer]
  by_cases h : -31 ≤ i ∧ i ≤ 31
  · rw [if_pos h]
    exact iff_of_true ⟨_, rfl⟩ h
  · rw [if_neg h]
    exact iff_of_false nofun h

/-- A property that is left out can always be read. -/
theorem exists_readOptional_iff {α β : Type} (read : List Char → Except RuleFault α)
    (text : β → List Char) (b? : Option β) :
    (∃ a, readOptional read (b?.map text) = .ok a) ↔ ∀ b ∈ b?, ∃ a, read (text b) = .ok a := by
  cases b? with
  | none => exact iff_of_true ⟨none, rfl⟩ nofun
  | some b =>
    simp only [Option.mem_some_iff, forall_eq', Option.map_some, readOptional]
    constructor
    · rintro ⟨a, h⟩
      obtain ⟨a, ha, -⟩ := Outcome.map_eq_ok h
      exact ⟨a, ha⟩
    · rintro ⟨a, h⟩
      exact ⟨some a, by rw [h]; rfl⟩

theorem hasWeeklyMonthDay_eq_false_iff {n : Repetition} (hfrequency : n.frequency = r.frequency)
    (hday : n.monthDay = r.dayOfMonth.filter (· ≠ 0)) : hasWeeklyMonthDay n = false ↔
      (r.frequency = .weekly → ∀ d ∈ r.dayOfMonth, d ≤ 0) := by
  rw [hasWeeklyMonthDay, hfrequency, hday, Bool.and_eq_false_imp, decide_eq_true_eq]
  refine imp_congr_right fun _ => ?_
  cases r.dayOfMonth with
  | none => exact iff_of_true rfl fun d hd => absurd hd (Option.not_mem_none d)
  | some d =>
    by_cases hzero : d = 0
    · simp [hzero]
    · simp [hzero]

/-- What is read from the text of a recurrence fits. -/
theorem IsRead.fits (h : IsRead z r start s) : r.descriptor.Fits limits := by
  obtain ⟨day, hday, hmonthDay⟩ := h.monthDay
  obtain ⟨-, hweeks, -⟩ := of_check_eq_ok h.check
  rw [hasWeeklyMonthDay_eq_false_iff h.frequency
    (hmonthDay.trans (eq_of_readOptional_monthDay hday))] at hweeks
  have hcount := (exists_readOptional_iff _ _ _).1 ⟨_, h.count⟩
  have hmonthDays := (exists_readOptional_iff _ _ _).1 ⟨_, hday⟩
  exact ⟨((exists_readNumber_iff _ _ _).1 ⟨_, h.interval⟩).2,
    fun n hn => ((exists_readNumber_iff _ _ _).1 (hcount n hn)).2,
    fun d hd => ⟨(exists_readMonthDay_iff d).1 (hmonthDays d hd), fun hf => hweeks hf d hd⟩⟩

/-- A recurrence without an end by date and without exclusions can be read if it fits, is positive
in its numbers and has a start that can be read. -/
theorem exists_isRead (hend : r.endDate = none) (hexcluded : r.excludeDates = [])
    (hinterval : 0 < r.interval) (hcount : ∀ n ∈ r.count, 0 < n) (hfits : r.descriptor.Fits limits)
    {localStart second : Int}
    (hstart : readStamp "DTSTART" z (z.zone.stamp start) = .ok (localStart, second)) :
    ∃ s, IsRead z r start s := by
  obtain ⟨interval, hinterval⟩ := (exists_readNumber_iff "INTERVAL" 65535 r.interval).2
    ⟨hinterval.le, hfits.interval⟩
  obtain ⟨count, hcount⟩ := (exists_readOptional_iff _ Text.integer r.count).2 fun n hn =>
    (exists_readNumber_iff "COUNT" 4294967295 n).2 ⟨(hcount n hn).le, hfits.count n hn⟩
  obtain ⟨day, hday⟩ := (exists_readOptional_iff _ Text.integer r.dayOfMonth).2 fun d hd =>
    (exists_readMonthDay_iff d).2 (hfits.monthDay d hd).1
  set repetition : Repetition := ⟨r.frequency, interval, count, none,
    (r.daysOfWeek.getD []).filterMap weekday?, if day = some 0 then none else day⟩
  have hweeks : hasWeeklyMonthDay repetition = false :=
    (hasWeeklyMonthDay_eq_false_iff rfl (eq_of_readOptional_monthDay hday)).2
      fun hf d hd => (hfits.monthDay d hd).2 hf
  have hdays := readOptional_dayText? r
  refine ⟨⟨z, localStart, second, repetition, []⟩, rfl, hstart, rfl, hinterval, hcount, ?_,
    ⟨day, hday, rfl⟩, ⟨_, hdays, (eq_of_readOptional_dayText? hdays).symm⟩, ?_, ?_⟩
  · rw [hend]
    rfl
  · rw [hexcluded]
    rfl
  · simp only [check, repetition, hweeks]
    rfl

/-- Of the texts of recurrences in universal time, the engine of the table refuses nothing but what
does not fit. -/
theorem takes (r : Recurrence) (start : Instant) :
    RuleEngine.Takes limits (r.ruleText .universal start) := by
  intro stamp value localStart d hlines hstamp hkeys hvalue hinterval hcount
  obtain ⟨hexcluded, rfl, rfl⟩ :=
    (Line.all?_ruleText_eq_pair_iff Zone.notMem_name_universal).1 hlines
  have hend : r.endDate = none := by
    rw [Recurrence.hasKeys_properties_iff] at hkeys
    simpa [Recurrence.propertyValues] using hkeys
  rw [Recurrence.ofValue?_properties] at hvalue
  cases hvalue
  rw [Recurrence.fits_written_iff]
  have hexpand : ∀ all, RuleEngine.expand (r.ruleText .universal start) = .ok all ↔
      ∃ s, IsRead .universal r start s ∧ all = s.admittedInstants := fun all =>
    expand_ruleText_eq_ok_iff (z := .universal) rfl
  constructor
  · rintro ⟨all, hall⟩
    obtain ⟨s, hs, -⟩ := (hexpand all).1 hall
    exact hs.fits
  · intro hfits
    obtain ⟨s, hs⟩ := exists_isRead hend hexcluded hinterval hcount hfits
      (readStamp_universal hstamp "DTSTART")
    exact ⟨_, (hexpand _).2 ⟨s, hs, rfl⟩⟩

end RuleSet

/-! ## A rehearsal and a jubilee -/

/-- On three Tuesdays and Thursdays, and on no day counted from the beginning of a month. -/
def rehearsalDays : Recurrence where
  frequency := .weekly
  interval := 2
  count := some 3
  daysOfWeek := some [2, 4]
  dayOfMonth := some 0

def rehearsal : Event where
  id := "1"
  type := "rehearsal"
  start := ⟨20454, 63000, 500, by decide⟩
  finish := ⟨20454, 70200, 0, by decide⟩
  recurring := some rehearsalDays

theorem fits_rehearsalDays : rehearsalDays.descriptor.Fits RuleSet.limits := by
  refine ⟨by decide, by decide, fun d hd => ?_⟩
  cases hd
  exact ⟨by decide, fun _ => by decide⟩

/-- Every 65536 days. -/
def jubileeDays : Recurrence where
  frequency := .daily
  interval := 65536
  count := some 1

def jubilee : Event := { rehearsal with type := "jubilee", recurring := some jubileeDays }

theorem Event.occurrences_of_count_rehearsal : rehearsal.recurring = some rehearsalDays ∧
    0 ≤ rehearsal.start.date.year ∧ rehearsal.start.date.year ≤ 9999 ∧
    rehearsal.start.isLeap = false ∧ rehearsal.timeZone = none ∧ rehearsalDays.timeZone = none ∧
    rehearsalDays.count.isSome = true ∧ rehearsalDays.excludeDates = [] ∧
    rehearsalDays.problems = [] ∧
    RuleEngine.Takes RuleSet.limits (rehearsalDays.ruleText .universal rehearsal.start) ∧
    rehearsalDays.descriptor.Fits RuleSet.limits ∧
    ∃ all, rehearsal.instances rehearsalDays = .ok all ∧
      (∀ t ∈ all (Event.drawnFor rehearsalDays 2),
        Instant.InRange (t.nanos + rehearsal.length)) ∧
      ∃ os, rehearsal.occurrences 2 = .ok os := by
  have htakes := RuleSet.takes rehearsalDays rehearsal.start
  obtain ⟨all, hall, hexpand⟩ := (Event.occurrences_of_count (e := rehearsal) rfl (by decide)
    (by decide) rfl rfl rfl rfl rfl rfl htakes 2).1 fits_rehearsalDays
  have hrange : ∀ t ∈ all (Event.drawnFor rehearsalDays 2),
      Instant.InRange (t.nanos + rehearsal.length) := by
    intro t ht
    obtain ⟨hfrom, hto⟩ := Event.bounds_of_mem_instances hall ht
    obtain ⟨-, zone, -, hread⟩ := Event.instances_eq_ok_iff.1 hall
    exact Event.inRange_of_years (by decide) (by decide) (by decide)
      (RuleEngine.whole hread _ t ht) hfrom hto
  exact ⟨rfl, by decide, by decide, rfl, rfl, rfl, rfl, rfl, rfl, htakes, fits_rehearsalDays,
    all, hall, hrange, hexpand hrange⟩

theorem ofText_jubilee : RuleSet.ofText (jubileeDays.ruleText .universal jubilee.start) =
    .error (.value "INTERVAL" "65536" "") := by
  have hstart : RuleSet.readStamp "DTSTART" .universal
      (YearlyZone.universal.zone.stamp jubilee.start) =
        .ok (jubilee.start.seconds, jubilee.start.seconds) :=
    RuleSet.readStamp_stamp_universal (by decide) (by decide) rfl _
  have htext : Text.integer jubileeDays.interval = ['6', '5', '5', '3', '6'] := by
    decide +kernel
  have hinterval : RuleSet.readNumber "INTERVAL" 65535 (Text.integer jubileeDays.interval) =
      .error (.value "INTERVAL" "65536" "") := by
    rw [RuleSet.readNumber_integer, if_neg (by decide), htext]
  refine (RuleSet.ofText_ruleText (z := .universal) rfl jubileeDays jubilee.start).trans ?_
  rw [RuleSet.readRepetition_ruleLine, hstart, hinterval]
  rfl

theorem instances_jubilee : jubilee.instances jubileeDays =
    .error (.unusableRule "RRule parsing error: `65536` is not a valid INTERVAL value.") := by
  rw [Event.instances_eq_expand rfl (z := .universal) rfl]
  show ((((RuleSet.ofText _).mapError RuleFault.message).map _).mapError _) = _
  rw [ofText_jubilee]
  rfl

/-- A jubilee has no problems, but its interval is one too large for a rule. -/
theorem Event.occurrences_ne_ok_jubilee : jubilee.recurring = some jubileeDays ∧
    0 ≤ jubilee.start.date.year ∧ jubilee.start.date.year ≤ 9999 ∧
    jubilee.start.isLeap = false ∧ jubilee.timeZone = none ∧ jubileeDays.timeZone = none ∧
    jubileeDays.count.isSome = true ∧ jubileeDays.excludeDates = [] ∧
    jubileeDays.problems = [] ∧ jubilee.occurrences 1 = .error (.unusableRule
      "RRule parsing error: `65536` is not a valid INTERVAL value.") := by
  refine ⟨rfl, by decide, by decide, rfl, rfl, rfl, rfl, rfl, rfl, ?_⟩
  rw [Event.occurrences_of_recurring rfl, instances_jubilee]
  rfl

end CalendarRules
