import CalendarRules.Proofs.Recurrence.Exclusions
import CalendarRules.Proofs.Recurrence.Range
import CalendarRules.Proofs.Time.Daylight

/-!
# Occurrences keep the wall clock

An engine combines dates of the calendar with the time of day that the text of a rule starts at,
and that is what the clocks show at the start of the event.  If they show it exactly once on a date,
then the instance that is made for the date is the instant at which they do (`GeneratedFor`).

An occurrence starts at an instance and lasts as long as the event, so summer and winter do not
shift its start on the clocks (`Event.localTime_of_occurrences`).

Nothing is said of a date on which clocks skip the time of day.  Most clocks are put forward early
in the day, and then the instance for it is on that date all the same, an hour later
(`RuleSet.localDay_of_instanceOn?`).  Where they are put forward at the end of a day, as in Nuuk, an
instance may be carried over to the next date, which has the time of day itself.
-/

namespace CalendarRules

/-- Instances have been made for dates, which are days counted from 1970-01-01.  The text has a
start in a known zone that can be read, and each instance is the instant at which the clocks there
show the time of day of the start on its date, if they do so exactly once. -/
inductive GeneratedFor [TimeZones] (text : List Char) (dates : List Int)
    (instances : List Instant) : Prop
  | combined {z : Zone} {stamp : List Char} {lines : List Line} {localStart : Int} :
    Line.all? text = some (⟨"DTSTART".toList, [Line.zoneParameter z], stamp⟩ :: lines) →
    Zone.ofName? z.name = some z → stampSeconds? stamp = some localStart →
    List.Forall₂ (fun date t =>
      (∃! u, z.localTime u = date * 86400 + localStart % 86400) →
        z.localTime t.seconds = date * 86400 + localStart % 86400) dates instances →
    GeneratedFor text dates instances

/-- For the text of a recurrence, the time of day is what the clocks show at the start of the event.
-/
theorem GeneratedFor.forall₂ [TimeZones] {z : Zone} {r : Recurrence} {start : Instant}
    {dates : List Int} {ts : List Instant} (hz : Zone.ofName? z.name = some z)
    (h : GeneratedFor (r.ruleText z start) dates ts) :
    List.Forall₂ (fun date t =>
      (∃! u, z.localTime u = date * 86400 + z.clock start % 86400) →
        z.localTime t.seconds = date * 86400 + z.clock start % 86400) dates ts := by
  obtain ⟨hread, hz', hstart, hshown⟩ := h
  rw [Line.all?_ruleText fun _ => Zone.notMem_name hz] at hread
  simp only [List.cons_append, Option.some.injEq, List.cons.injEq, Line.mk.injEq, true_and,
    and_true] at hread
  obtain ⟨⟨hparameter, rfl⟩, -⟩ := hread
  obtain rfl := Line.eq_of_zoneParameter_eq hz hz' hparameter
  rwa [Zone.eq_clock_of_stampSeconds? hstart] at hshown

/-! ## Occurrences -/

/-- The occurrences of an expansion that succeeds, in the zone in which the event recurs.  Each
starts at a whole second and lasts as long as the event.  If on the date that it has been made for
the clocks show the local time of day of the event, to the second, exactly once, then it starts on
that date at that time.  So as long as occurrences fall on the dates that they have been made for,
each starts at that time if the clocks show it exactly once on the local date of the occurrence. -/
theorem Event.localTime_of_occurrences [TimeZones] [RuleEngine] {e : Event} {r : Recurrence}
    {z : Zone} {all : Instances} (hr : e.recurring = some r)
    (hz : Zone.ofName? (e.recurrenceZone r) = some z)
    (hall : RuleEngine.expand (r.ruleText z e.start) = .ok all) {limit : Nat} {dates : List Int}
    (hdates : GeneratedFor (r.ruleText z e.start) dates (all (Event.drawnFor r limit)))
    {os : List Occurrence} (h : e.occurrences limit = .ok os) :
    (∀ o ∈ os, o.start.nano = 0 ∧ o.finish.minus o.start = e.finish.minus e.start) ∧
    List.Forall₂ (fun date o =>
      (∃! t, z.localTime t = date * 86400 + z.clock e.start % 86400) →
        z.localTime o.start.seconds = date * 86400 + z.clock e.start % 86400)
      (dates.take limit) os ∧
    (dates.take limit = os.map (fun o => z.localTime o.start.seconds / 86400) → ∀ o ∈ os,
      (∃! t, z.localTime t =
        z.localTime o.start.seconds / 86400 * 86400 + z.clock e.start % 86400) →
        z.localTime o.start.seconds % 86400 = z.clock e.start % 86400) := by
  have hknown : Zone.ofName? z.name = some z := by rw [Zone.name_of_ofName? hz, hz]
  have hinstances := Event.instances_of_occurrences hr hz hall h
  rw [Event.occurrences_of_instances hr hinstances rfl] at h
  obtain ⟨drawn, hdrawn, h⟩ := Outcome.bind_eq_ok h
  cases h
  have hshown := hdates.forall₂ hknown
  rw [← Event.map_start_of_mapM hdrawn, List.forall₂_map_right_iff] at hshown
  have hkept := List.forall₂_take limit hshown
  refine ⟨fun o ho => ?_, hkept, fun hsame => ?_⟩
  · obtain ⟨t, ht, hat⟩ := Outcome.exists_of_mem_of_mapM_eq_ok hdrawn (List.mem_of_mem_take ho)
    exact Event.length_of_occurrenceAt (RuleEngine.whole hall _ t ht) hat
  · rw [hsame, List.forall₂_map_left_iff, List.forall₂_same] at hkept
    intro o ho hunique
    rw [hkept o ho hunique]
    omega

/-! ## The engine of the table -/

namespace RuleSet

variable {s : RuleSet} {day t : Int}

/-- An instance is what the clocks show once, or else it is counted from midnight. -/
theorem cases_of_instanceOn? (hz : s.zone.IsRegular) (h : s.instanceOn? day = some t) :
    s.zone.zone.localTime t = day * 86400 + s.timeOfDay ∨
      (¬∃! t, s.zone.zone.localTime t = day * 86400 + s.timeOfDay) ∧
        ∃ midnight, s.zone.zone.localTime midnight = day * 86400 ∧ t = midnight + s.timeOfDay := by
  unfold instanceOn? at h
  split at h
  next t' ht =>
    cases h
    exact .inl (YearlyZone.mem_instantsAt (ht ▸ List.mem_singleton_self t))
  next hnot =>
    split at h
    next midnight hmidnight =>
      cases h
      refine .inr ⟨fun hunique => ?_, midnight, ?_, rfl⟩
      · obtain ⟨t', ht'⟩ := (YearlyZone.existsUnique_localTime_iff hz.saving_pos).1 hunique
        exact hnot t' ht'
      · exact YearlyZone.mem_instantsAt (hmidnight ▸ List.mem_singleton_self midnight)
    next => cases h

theorem timeOfDay_bounds (s : RuleSet) : 0 ≤ s.timeOfDay ∧ s.timeOfDay < 86400 :=
  ⟨Int.emod_nonneg _ (by decide), Int.emod_lt_of_pos _ (by decide)⟩

/-- The local date of an instance is the day that the rule has made it for. -/
theorem localDay_of_instanceOn? (hz : s.zone.IsRegular) (h : s.instanceOn? day = some t) :
    s.zone.zone.localTime t / 86400 = day := by
  obtain ⟨hlow, hhigh⟩ := s.timeOfDay_bounds
  rcases cases_of_instanceOn? hz h with hclock | ⟨hnot, midnight, hmidnight, rfl⟩
  · rw [hclock]
    omega
  · exact YearlyZone.localTime_add_midnight hz hmidnight hlow hhigh hnot

theorem localTime_of_instanceOn? (hz : s.zone.IsRegular) (h : s.instanceOn? day = some t)
    (hunique : ∃! t, s.zone.zone.localTime t = day * 86400 + s.timeOfDay) :
    s.zone.zone.localTime t = day * 86400 + s.timeOfDay := by
  rcases cases_of_instanceOn? hz h with hclock | ⟨hnot, -⟩
  · exact hclock
  · exact absurd hunique hnot

/-- Every instance of a rule is made for some day. -/
theorem exists_day_of_mem_admitted {n : Nat} (h : t ∈ s.admitted n) :
    ∃ day, s.instanceOn? day = some t := by
  have hmem := mem_instances_of_mem_admitted h
  rw [instances_eq] at hmem
  obtain ⟨k, -, -, hk⟩ := exists_period_of_mem_instancesFrom hmem
  obtain ⟨day, -, -, hday⟩ := exists_day_of_mem_instancesIn hk
  exact ⟨day, hday⟩

/-- The local dates of instances in a zone. -/
def localDays (z : YearlyZone) (ts : List Instant) : List Int :=
  ts.map fun t => z.zone.localTime t.seconds / 86400

/-- Where clocks are put forward early in the day, instances have been made for their local dates.
-/
theorem IsRead.generatedFor {z : YearlyZone} {r : Recurrence} {start : Instant}
    (hz : YearlyZone.ofName? z.name = some z) (hregular : z.IsRegular) (h : IsRead z r start s)
    (cap : Nat) : GeneratedFor (r.ruleText z.zone start) (localDays z (s.admittedInstants cap))
      (s.admittedInstants cap) := by
  have hknown := YearlyZone.ofName?_zone hz
  have hrule := h.isRule (YearlyZone.mem_table_of_ofName? hz)
  refine .combined (Line.all?_ruleText (fun _ => Zone.notMem_name hknown) r start) hknown
    h.stampSeconds?_start ?_
  rw [localDays, List.forall₂_map_left_iff, List.forall₂_same]
  intro t ht hunique
  have hmem := List.mem_map_of_mem (f := Instant.seconds) ht
  rw [hrule.map_seconds_admittedInstants (YearlyZone.mem_table_of_ofName? hz)] at hmem
  obtain ⟨day, hday⟩ := exists_day_of_mem_admitted hmem
  rw [← h.zone] at hregular hunique ⊢
  rw [localDay_of_instanceOn? hregular hday] at hunique ⊢
  exact localTime_of_instanceOn? hregular hday hunique

end RuleSet

/-! ## Across the beginning of summer -/

def briefingDays : Recurrence where
  frequency := .daily
  count := some 3
  timeZone := some "America/New_York"

/-- At nine in New York from 2026-03-07 on, the day before clocks go forward. -/
def briefing : Event where
  id := "1"
  type := "briefing"
  start := ⟨20519, 50400, 0, by decide⟩
  finish := ⟨20519, 52200, 0, by decide⟩
  recurring := some briefingDays

def newYork : YearlyZone := ⟨"America/New_York", -18000, some YearlyZone.northAmerican⟩

theorem isRegular_newYork : newYork.IsRegular := by
  decide

/-- What is read from the text of the rule. -/
def briefingRule : RuleSet where
  zone := newYork
  localStart := 1772874000
  start := 1772892000
  repetition := ⟨.daily, 1, some 3, none, [], none⟩
  excluded := []

/-- In universal time the second and the third are an hour earlier. -/
def briefingOccurrences : List Occurrence := [
  ⟨⟨20519, 50400, 0, by decide⟩, ⟨20519, 52200, 0, by decide⟩⟩,
  ⟨⟨20520, 46800, 0, by decide⟩, ⟨20520, 48600, 0, by decide⟩⟩,
  ⟨⟨20521, 46800, 0, by decide⟩, ⟨20521, 48600, 0, by decide⟩⟩]

theorem isRead_briefing :
    RuleSet.IsRead newYork briefingDays briefing.start briefingRule := by
  have hstamp : stampSeconds? (newYork.zone.stamp briefing.start) = some 1772874000 := by
    decide +kernel
  have hinstant : newYork.instantsAt 1772874000 = [1772892000] := by
    decide +kernel
  exact RuleSet.isRead_of_count rfl rfl (by decide) ⟨rfl, rfl, rfl⟩
    (RuleSet.readStamp_of_instantsAt hstamp hinstant _) rfl

theorem admitted_briefing : briefingRule.admitted (Event.drawnFor briefingDays 3) =
    [1772892000, 1772974800, 1773061200] :=
  RuleSet.admitted_eq_of_found [1772892000, 1772974800, 1773061200] rfl rfl
    (by decide +kernel)

theorem occurrences_briefing : briefing.occurrences 3 = .ok briefingOccurrences := by
  rw [Event.occurrences_of_isRead rfl rfl rfl rfl isRead_briefing admitted_briefing]
  rfl

theorem localDays_briefing : RuleSet.localDays newYork
    (briefingRule.admittedInstants (Event.drawnFor briefingDays 3)) = [20519, 20520, 20521] := by
  have hinstants : briefingRule.admittedInstants (Event.drawnFor briefingDays 3) =
      briefingOccurrences.map Occurrence.start := by
    rw [RuleSet.admittedInstants, admitted_briefing]
    rfl
  rw [hinstants]
  decide +kernel

/-- Clocks in New York show nine exactly once on each of the three dates. -/
theorem existsUnique_localTime_briefing : ∀ date ∈ [20519, 20520, 20521],
    ∃! t, newYork.zone.localTime t =
      date * 86400 + newYork.zone.clock briefing.start % 86400 := by
  have hnine : newYork.zone.clock briefing.start % 86400 = 32400 := by
    decide +kernel
  intro date hdate
  rw [hnine, YearlyZone.existsUnique_localTime_iff isRegular_newYork.saving_pos]
  revert date
  simp only [List.forall_mem_cons, List.not_mem_nil, false_imp_iff, implies_true, and_true]
  refine ⟨⟨1772892000, ?_⟩, ⟨1772974800, ?_⟩, ⟨1773061200, ?_⟩⟩ <;> decide +kernel

theorem Event.localTime_of_occurrences_briefing : briefing.recurring = some briefingDays ∧
    Zone.ofName? (briefing.recurrenceZone briefingDays) = some newYork.zone ∧
    RuleEngine.expand (briefingDays.ruleText newYork.zone briefing.start) =
      .ok briefingRule.admittedInstants ∧
    GeneratedFor (briefingDays.ruleText newYork.zone briefing.start) [20519, 20520, 20521]
      (briefingRule.admittedInstants (Event.drawnFor briefingDays 3)) ∧
    briefing.occurrences 3 = .ok briefingOccurrences ∧
    (∀ o ∈ briefingOccurrences, o.start.nano = 0 ∧
      o.finish.minus o.start = briefing.finish.minus briefing.start) ∧
    List.Forall₂ (fun date o => newYork.zone.localTime o.start.seconds =
      date * 86400 + newYork.zone.clock briefing.start % 86400)
      [20519, 20520, 20521] briefingOccurrences := by
  have hexpand := (RuleSet.expand_ruleText_eq_ok_iff (z := newYork) rfl).2
    ⟨briefingRule, isRead_briefing, rfl⟩
  have hdates := isRead_briefing.generatedFor rfl isRegular_newYork (Event.drawnFor briefingDays 3)
  rw [localDays_briefing] at hdates
  obtain ⟨hkept, hshown, -⟩ :=
    Event.localTime_of_occurrences rfl rfl hexpand hdates occurrences_briefing
  have hnine := existsUnique_localTime_briefing
  refine ⟨rfl, rfl, hexpand, hdates, occurrences_briefing, hkept, ?_⟩
  exact ((List.forall₂_and_left _ _).2 ⟨hnine, hshown⟩).imp fun _ _ h => h.2 h.1

/-! ## Past midnight -/

def vigilDays : Recurrence where
  frequency := .daily
  count := some 3
  timeZone := some "America/Nuuk"

/-- At half past eleven in the night in Nuuk from 2026-03-27 on.  The next day ends at eleven there,
when clocks go forward. -/
def vigil : Event where
  id := "1"
  type := "vigil"
  start := ⟨20540, 5400, 0, by decide⟩
  finish := ⟨20540, 9000, 0, by decide⟩
  recurring := some vigilDays

def nuuk : YearlyZone := ⟨"America/Nuuk", -7200, some (YearlyZone.european (-7200))⟩

/-- What is read from the text of the rule. -/
def vigilRule : RuleSet where
  zone := nuuk
  localStart := 1774654200
  start := 1774661400
  repetition := ⟨.daily, 1, some 3, none, [], none⟩
  excluded := []

/-- On the clocks of Nuuk the second starts at half past midnight, a day later than it was made for,
and the third at half past eleven on the same date. -/
def vigilOccurrences : List Occurrence := [
  ⟨⟨20540, 5400, 0, by decide⟩, ⟨20540, 9000, 0, by decide⟩⟩,
  ⟨⟨20541, 5400, 0, by decide⟩, ⟨20541, 9000, 0, by decide⟩⟩,
  ⟨⟨20542, 1800, 0, by decide⟩, ⟨20542, 5400, 0, by decide⟩⟩]

theorem isRead_vigil : RuleSet.IsRead nuuk vigilDays vigil.start vigilRule := by
  have hstamp : stampSeconds? (nuuk.zone.stamp vigil.start) = some 1774654200 := by
    decide +kernel
  have hinstant : nuuk.instantsAt 1774654200 = [1774661400] := by
    decide +kernel
  exact RuleSet.isRead_of_count rfl rfl (by decide) ⟨rfl, rfl, rfl⟩
    (RuleSet.readStamp_of_instantsAt hstamp hinstant _) rfl

theorem occurrences_vigil : vigil.occurrences 3 = .ok vigilOccurrences := by
  have hadmitted : vigilRule.admitted (Event.drawnFor vigilDays 3) =
      [1774661400, 1774747800, 1774830600] :=
    RuleSet.admitted_eq_of_found [1774661400, 1774747800, 1774830600] rfl rfl
      (by decide +kernel)
  rw [Event.occurrences_of_isRead rfl rfl rfl rfl isRead_vigil hadmitted]
  rfl

/-- The second vigil does not start at half past eleven, although clocks show that exactly once on
its date. -/
theorem Event.localTime_ne_vigil : vigil.recurring = some vigilDays ∧
    Zone.ofName? (vigil.recurrenceZone vigilDays) = some nuuk.zone ∧
    vigil.occurrences 3 = .ok vigilOccurrences ∧
    ∃ o ∈ vigilOccurrences,
      (∃! t, nuuk.zone.localTime t =
        nuuk.zone.localTime o.start.seconds / 86400 * 86400 +
          nuuk.zone.clock vigil.start % 86400) ∧
      nuuk.zone.localTime o.start.seconds % 86400 ≠ nuuk.zone.clock vigil.start % 86400 := by
  have hsaving : ∀ d ∈ nuuk.daylight, 0 < d.saving := by
    rintro d ⟨⟩
    decide
  have hclock : nuuk.zone.clock vigil.start % 86400 = 84600 := by
    decide +kernel
  have hstart : nuuk.zone.localTime 1774747800 = 1774744200 := by
    decide +kernel
  refine ⟨rfl, rfl, occurrences_vigil, _, .tail _ (.head _), ?_⟩
  show (∃! t, nuuk.zone.localTime t = nuuk.zone.localTime 1774747800 / 86400 * 86400 + _) ∧
    nuuk.zone.localTime 1774747800 % 86400 ≠ _
  rw [hclock, hstart, YearlyZone.existsUnique_localTime_iff hsaving]
  refine ⟨⟨1774830600, ?_⟩, by decide⟩
  decide +kernel

end CalendarRules
