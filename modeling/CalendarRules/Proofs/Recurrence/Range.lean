import CalendarRules.Proofs.Recurrence.Instances

/-!
# Occurrences at the end of the calendar

Every occurrence that is drawn has to end within the range of instants.  Instances lie in that range
themselves, so an expansion runs out of it exactly if the length of the event, counted from one of
the drawn instances, does (`Event.occurrences_outOfRange`).

The end of an event is compared neither with its start nor with the range, and later occurrences end
later than the event.  An event that starts and ends in years of four digits is safe with an engine
whose calendar goes no further than the year 10002: its last occurrence starts in that year, and
ends some ten thousand years after that at most.  The engine of the table is of that kind
(`Event.occurrences_ne_outOfRange`).
-/

namespace CalendarRules
namespace Event

variable {e : Event} {r : Recurrence} {all : Instances} {limit : Nat}

/-! ## One occurrence -/

/-- An occurrence starts at its instance and is as long as the event. -/
theorem occurrenceAt_eq_ok_iff {start : Instant} {o : Occurrence} :
    e.occurrenceAt start = .ok o ↔
      o.start = start ∧ o.finish.isLeap = false ∧ o.finish.nanos = start.nanos + e.length := by
  constructor
  · intro h
    unfold occurrenceAt at h
    split at h
    · cases h
    next finish hf =>
      cases h
      exact ⟨rfl, Instant.plus?_eq_some_iff.1 hf⟩
  · rintro ⟨rfl, hf⟩
    unfold occurrenceAt
    rw [Instant.plus?_eq_some_iff.2 hf]

/-- At a whole second it lasts as long as the event, too. -/
theorem length_of_occurrenceAt {start : Instant} (hwhole : start.nano = 0) {o : Occurrence}
    (h : e.occurrenceAt start = .ok o) :
    o.start.nano = 0 ∧ o.finish.minus o.start = e.finish.minus e.start := by
  obtain ⟨rfl, hfinish, hf⟩ := occurrenceAt_eq_ok_iff.1 h
  refine ⟨hwhole, ?_⟩
  rw [Instant.minus_eq hfinish (Instant.isLeap_of_nano_eq_zero hwhole), hf, length]
  omega

theorem exists_occurrenceAt_iff {start : Instant} :
    (∃ o, e.occurrenceAt start = .ok o) ↔ Instant.InRange (start.nanos + e.length) := by
  rw [← Instant.exists_plus?_iff]
  unfold occurrenceAt
  cases start.plus? e.length with
  | none =>
    constructor
    · rintro ⟨o, h⟩
      cases h
    · rintro ⟨finish, h⟩
      cases h
  | some finish => exact iff_of_true ⟨⟨start, finish⟩, rfl⟩ ⟨finish, rfl⟩

/-! ## All occurrences -/

section Expansion

variable [TimeZones] [RuleEngine]

/-- An event with a rule can be expanded exactly if what is drawn ends in range. -/
theorem exists_occurrences_iff (hr : e.recurring = some r) (hall : e.instances r = .ok all) :
    (∃ os, e.occurrences limit = .ok os) ↔
      ∀ t ∈ all (drawnFor r limit), Instant.InRange (t.nanos + e.length) := by
  have hdrawn : (∃ os, e.occurrences limit = .ok os) ↔
      ∃ os, (all (drawnFor r limit)).mapM e.occurrenceAt = .ok os := by
    rw [occurrences_of_instances hr hall rfl]
    constructor
    · rintro ⟨os, h⟩
      obtain ⟨drawn, hdrawn, -⟩ := Outcome.bind_eq_ok h
      exact ⟨drawn, hdrawn⟩
    · rintro ⟨os, h⟩
      rw [h]
      exact ⟨os.take limit, rfl⟩
  rw [hdrawn, Outcome.exists_mapM_eq_ok_iff]
  exact forall₂_congr fun t _ => exists_occurrenceAt_iff

/-- Once there are instances, nothing but the range of instants stops an expansion. -/
theorem eq_outOfRange_of_instances (hr : e.recurring = some r) (hall : e.instances r = .ok all)
    {error : ExpansionError} (h : e.occurrences limit = .error error) : error = .outOfRange := by
  by_contra hne
  have hrule := (occurrences_eq_error_iff hr hne).1 h
  rw [hall] at hrule
  cases hrule

/-- A recurrence is never refused for the range of instants. -/
theorem instances_ne_outOfRange : e.instances r ≠ .error .outOfRange := by
  intro h
  rcases instances_cases e r with ⟨-, hfail⟩ | ⟨-, -, hfail⟩ | ⟨-, zone, -, hread⟩
  · rw [hfail] at h
    cases h
  · rw [hfail] at h
    cases h
  · rw [hread] at h
    obtain ⟨message, hmessage⟩ := Outcome.exists_of_mapError_eq_error h
    cases hmessage

theorem occurrences_eq_outOfRange_iff : e.occurrences limit = .error .outOfRange ↔
    ∃ r all, e.recurring = some r ∧ e.instances r = .ok all ∧
      ∃ t ∈ all (drawnFor r limit), ¬ Instant.InRange (t.nanos + e.length) := by
  constructor
  · intro h
    cases hr : e.recurring with
    | none =>
      unfold occurrences at h
      rw [hr] at h
      cases h
    | some r =>
      cases hall : e.instances r with
      | error error =>
        rw [occurrences_of_recurring hr, hall] at h
        cases h
        exact absurd hall instances_ne_outOfRange
      | ok all =>
        refine ⟨r, all, rfl, hall, ?_⟩
        by_contra hin
        push Not at hin
        obtain ⟨os, hos⟩ := (exists_occurrences_iff hr hall).2 hin
        rw [h] at hos
        cases hos
  · rintro ⟨r, all, hr, hall, t, ht, hout⟩
    cases h : e.occurrences limit with
    | error error => rw [eq_outOfRange_of_instances hr hall h]
    | ok os => exact absurd ((exists_occurrences_iff hr hall).1 ⟨os, h⟩ t ht) hout

end Expansion

/-! ## Events in years of four digits -/

theorem length_bounds (e : Event) :
    (e.finish.seconds - e.start.seconds - 3) * 1000000000 ≤ e.length ∧
      e.length ≤ (e.finish.seconds - e.start.seconds + 3) * 1000000000 := by
  have hleap : -1 ≤ Instant.leapBetween e.finish e.start ∧
      Instant.leapBetween e.finish e.start ≤ 1 := by
    unfold Instant.leapBetween
    split
    · decide
    · split <;> decide
  obtain ⟨-, -, -, hstart, -⟩ := e.start.isInstant
  obtain ⟨-, -, -, hfinish, -⟩ := e.finish.isInstant
  rw [length, Instant.minus]
  omega

/-- Moved to any second up to the year 10002, an event in years of four digits ends in range. -/
theorem inRange_of_years (hstart : 0 ≤ e.start.date.year) (hlow : 0 ≤ e.finish.date.year)
    (hhigh : e.finish.date.year ≤ 9999) {t : Instant} (hwhole : t.nano = 0)
    (ht : e.start.seconds ≤ t.seconds) (ht' : t.date.year ≤ 10002) :
    Instant.InRange (t.nanos + e.length) := by
  have hlength := e.length_bounds
  have hzero : firstDayOfYear 0 = -719528 := by decide
  have hend : firstDayOfYear 10000 = 2932897 := by decide
  have hhorizon : firstDayOfYear 10003 = 2933993 := by decide
  have hfirst := (firstDayOfYear_le hstart).trans (year_bounds e.start.day).1
  have hfirst' := (firstDayOfYear_le hlow).trans (year_bounds e.finish.day).1
  have hlast := (year_bounds e.finish.day).2.trans_le
    (firstDayOfYear_le (show e.finish.date.year + 1 ≤ 10000 by omega))
  have hlast' := (year_bounds t.day).2.trans_le
    (firstDayOfYear_le (show t.date.year + 1 ≤ 10003 by omega))
  obtain ⟨-, -, hsecond, -, -⟩ := e.start.isInstant
  obtain ⟨-, -, hsecond', -, -⟩ := e.finish.isInstant
  obtain ⟨-, -, hsecond'', -, -⟩ := t.isInstant
  rw [Instant.InRange, Instant.firstDay, Instant.lastDay, Instant.nanos, hwhole]
  rw [Instant.seconds, Instant.seconds] at hlength
  rw [Instant.seconds, Instant.seconds] at ht
  rw [Instant.seconds]
  omega

theorem ne_outOfRange_of_bounds [TimeZones] [RuleEngine] (hstart : 0 ≤ e.start.date.year)
    (hlow : 0 ≤ e.finish.date.year) (hhigh : e.finish.date.year ≤ 9999)
    (hbounds : ∀ r all, e.recurring = some r → e.instances r = .ok all →
      ∀ t ∈ all (drawnFor r limit), e.start.seconds ≤ t.seconds ∧ t.date.year ≤ 10002) :
    e.occurrences limit ≠ .error .outOfRange := by
  intro h
  obtain ⟨r, all, hr, hall, t, ht, hout⟩ := occurrences_eq_outOfRange_iff.1 h
  obtain ⟨hfrom, hto⟩ := hbounds r all hr hall t ht
  obtain ⟨-, zone, -, hexpand⟩ := instances_eq_ok_iff.1 hall
  exact hout (inRange_of_years hstart hlow hhigh (RuleEngine.whole hexpand _ t ht) hfrom hto)

end Event

/-- An expansion runs out of the range of instants exactly if the event has a rule that can be
expanded, and its length, counted from one of the instances that are drawn, leaves the range.  An
event that starts and ends in years of four digits never does that, if no instance that is drawn
comes before the event or after the year 10002. -/
theorem Event.occurrences_outOfRange [TimeZones] [RuleEngine] (e : Event) (limit : Nat) :
    (e.occurrences limit = .error .outOfRange ↔
      ∃ r all, e.recurring = some r ∧ e.instances r = .ok all ∧
        ∃ t ∈ all (Event.drawnFor r limit), ¬ Instant.InRange (t.nanos + e.length)) ∧
    (0 ≤ e.start.date.year → 0 ≤ e.finish.date.year → e.finish.date.year ≤ 9999 →
      (∀ r all, e.recurring = some r → e.instances r = .ok all →
        ∀ t ∈ all (Event.drawnFor r limit),
          e.start.seconds ≤ t.seconds ∧ t.date.year ≤ 10002) →
      e.occurrences limit ≠ .error .outOfRange) :=
  ⟨Event.occurrences_eq_outOfRange_iff, Event.ne_outOfRange_of_bounds⟩

/-! ## The engine of the table -/

/-- No instance of the engine of the table comes before the event or after the year 10002. -/
theorem Event.bounds_of_mem_instances {e : Event} {r : Recurrence} {all : Instances}
    (hall : e.instances r = .ok all) {cap : Nat} {t : Instant} (ht : t ∈ all cap) :
    e.start.seconds ≤ t.seconds ∧ t.date.year ≤ 10002 := by
  obtain ⟨-, zone, hzone, hexpand⟩ := Event.instances_eq_ok_iff.1 hall
  obtain ⟨z, hz, rfl⟩ := YearlyZone.zone_of_ofName? hzone
  have hname : YearlyZone.ofName? z.name = some z := by rw [YearlyZone.name_of_ofName? hz, hz]
  obtain ⟨s, hs, rfl⟩ := (RuleSet.expand_ruleText_eq_ok_iff hname).1 hexpand
  have htable := YearlyZone.mem_table_of_ofName? hz
  exact (hs.isRule htable).bounds_of_mem_admittedInstants htable ht

/-- So with this engine, an event in years of four digits never runs out of range. -/
theorem Event.occurrences_ne_outOfRange {e : Event} (hstart : 0 ≤ e.start.date.year)
    (hlow : 0 ≤ e.finish.date.year) (hhigh : e.finish.date.year ≤ 9999) (limit : Nat) :
    e.occurrences limit ≠ .error .outOfRange :=
  Event.ne_outOfRange_of_bounds hstart hlow hhigh fun _ _ _ hall _ ht =>
    Event.bounds_of_mem_instances hall ht

/-! ## An exhibition that never closes -/

/-- Two days in a row. -/
def exhibitionDays : Recurrence where
  frequency := .daily
  count := some 2

/-- From 2026-01-01 to the last second that there is. -/
def exhibition : Event where
  id := "1"
  type := "exhibition"
  start := ⟨20454, 0, 0, by decide⟩
  finish := ⟨Instant.lastDay, 86399, 0, by decide⟩
  recurring := some exhibitionDays

/-- What is read from the text of the rule. -/
def exhibitionRule : RuleSet where
  zone := .universal
  localStart := 1767225600
  start := 1767225600
  repetition := ⟨.daily, 1, some 2, none, [], none⟩
  excluded := []

theorem isRead_exhibition :
    RuleSet.IsRead .universal exhibitionDays exhibition.start exhibitionRule :=
  RuleSet.isRead_of_count rfl rfl (by decide) ⟨rfl, rfl, rfl⟩
    (RuleSet.readStamp_stamp_universal (by decide) (by decide) rfl _) rfl

theorem occurrences_exhibition : exhibition.occurrences 2 = .error .outOfRange := by
  have hadmitted : exhibitionRule.admitted (Event.drawnFor exhibitionDays 2) =
      [1767225600, 1767312000] :=
    RuleSet.admitted_eq_of_found [1767225600, 1767312000] rfl rfl (by decide +kernel)
  rw [Event.occurrences_of_isRead rfl rfl rfl rfl isRead_exhibition hadmitted]
  rfl

/-- On the second day the exhibition would close a day after the last one that there is. -/
theorem Event.occurrences_eq_outOfRange_exhibition :
    exhibitionDays.problems = [] ∧ exhibition.start.lt exhibition.finish = true ∧
      exhibition.occurrences 2 = .error .outOfRange :=
  ⟨rfl, by decide, occurrences_exhibition⟩

end CalendarRules
