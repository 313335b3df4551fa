import CalendarRules.Proofs.Recurrence.Instances
import CalendarRules.Proofs.Recurrence.Recovery

/-!
# Exclusions do not use up the limit

An expansion is asked for a number of occurrences, and gives that many as long as the rule has so
many instances that are not excluded (`Event.starts_of_occurrences`).

An engine that is asked for at most so many instances may count in two ways: it cuts the series of
the rule first and then leaves out what is excluded (`Instances.CutsBefore`), or it leaves that out
first (`Instances.CutsAfter`).  An expansion does not depend on which it is.  It asks for as many
instances more as there are exclusions, and each of these takes away one at most.

More than 65535 instances cannot be asked for.  An engine that cuts first therefore never gets
beyond the first 65535 instances of a series, and what is said of a series is then said of these.
-/

namespace CalendarRules

/-! ## Engines and exclusions -/

namespace Instances

variable (all : Instances) (series excluded : List Int)

/-- The first instances of a series are taken, in seconds, and those of them that are excluded are
left out. -/
def CutsBefore : Prop :=
  ∀ cap ≤ Event.mostInstances,
    (all cap).map Instant.seconds = (series.take cap).filter fun t => t ∉ excluded

/-- The excluded instances of a series are left out, and the first of the others are taken. -/
def CutsAfter : Prop :=
  ∀ cap ≤ Event.mostInstances,
    (all cap).map Instant.seconds = (series.filter fun t => t ∉ excluded).take cap

end Instances

/-- The text of a rule excludes instants, in seconds: it has no line of exclusions, or that line
names a known zone and has one stamp for each of them, which the clocks there show only then. -/
inductive Excludes [TimeZones] (text : List Char) : List Int → Prop
  | nothing {start rule : Line} : Line.all? text = some [start, rule] → Excludes text []
  | stamps {start rule : Line} {z : Zone} {stamps : List Char} {excluded : List Int} :
    Line.all? text = some [start, rule, ⟨"EXDATE".toList, [Line.zoneParameter z], stamps⟩] →
    Zone.ofName? z.name = some z →
    List.Forall₂ (fun stamp t => ∃ l, stampSeconds? stamp = some l ∧
      ∀ u, z.localTime u = l ↔ u = t) (Text.split ',' stamps) excluded →
    Excludes text excluded

section Reading

variable [TimeZones] {z z' : Zone} {r : Recurrence} {start : Instant} {excluded : List Int}

/-- A parameter tells which known zone it names. -/
theorem Line.eq_of_zoneParameter_eq (hz : Zone.ofName? z.name = some z)
    (hz' : Zone.ofName? z'.name = some z') (h : zoneParameter z = zoneParameter z') : z = z' := by
  have hname : z.name = z'.name := String.toList_inj.1 (List.append_cancel_left h)
  rw [hname, hz'] at hz
  exact (Option.some.inj hz).symm

/-- The text of a recurrence excludes one instant for each of its exclusions, in order: the one at
which the clocks show the same. -/
theorem Excludes.forall₂ (hz : Zone.ofName? z.name = some z)
    (h : Excludes (r.ruleText z start) excluded) :
    List.Forall₂ (fun t x => ∀ u, z.localTime u = z.clock t ↔ u = x) r.excludeDates excluded := by
  have hplain : ∀ mark ∈ ['\n', ':', ';'], mark ∉ z.name.toList := fun _ => Zone.notMem_name hz
  have hlines := Line.all?_ruleText hplain r start
  cases h with
  | nothing hnone =>
    rw [hnone] at hlines
    by_cases hexclude : r.excludeDates = []
    · rw [hexclude]
      exact .nil
    · rw [if_neg hexclude] at hlines
      cases hlines
  | stamps hsome hz' hstamps =>
    rw [hsome] at hlines
    by_cases hexclude : r.excludeDates = []
    · rw [if_pos hexclude] at hlines
      cases hlines
    · rw [if_neg hexclude] at hlines
      simp only [List.cons_append, List.nil_append, Option.some.injEq, List.cons.injEq,
        Line.mk.injEq, true_and, and_true] at hlines
      obtain ⟨-, -, hparameter, rfl⟩ := hlines
      obtain rfl := Line.eq_of_zoneParameter_eq hz' hz hparameter
      rw [split_stamps _ hexclude, List.forall₂_map_left_iff] at hstamps
      refine hstamps.imp fun t x hx => ?_
      obtain ⟨l, hl, hshown⟩ := hx
      rwa [Zone.eq_clock_of_stampSeconds? hl] at hshown

end Reading

/-- Outside leap seconds these are the exclusions themselves. -/
theorem eq_map_seconds_of_forall₂ {z : Zone} {ts : List Instant} {excluded : List Int}
    (h : List.Forall₂ (fun t x => ∀ u, z.localTime u = z.clock t ↔ u = x) ts excluded)
    (hleap : ∀ t ∈ ts, t.isLeap = false) : excluded = ts.map Instant.seconds := by
  induction h with
  | nil => rfl
  | @cons t x ts xs hx hxs ih =>
    rw [List.forall_mem_cons] at hleap
    have hsame : t.seconds = x := (hx t.seconds).1 (z.clock_of_not_isLeap hleap.1).symm
    rw [List.map_cons, hsame, ← ih hleap.2]

/-! ## What is drawn -/

/-- Whole seconds tell instants apart. -/
theorem eq_of_map_seconds {ts us : List Instant} (hts : ∀ t ∈ ts, t.nano = 0)
    (hus : ∀ t ∈ us, t.nano = 0) (h : ts.map Instant.seconds = us.map Instant.seconds) :
    ts = us := by
  have hback : ∀ ts : List Instant, (∀ t ∈ ts, t.nano = 0) →
      ts.map some = (ts.map Instant.seconds).map fun s => Instant.ofSeconds? s 0 := by
    intro ts hts
    rw [List.map_map]
    refine List.map_congr_left fun t ht => ?_
    rw [Function.comp_apply, ← hts t ht, Instant.ofSeconds?_seconds]
  refine List.map_injective_iff.2 (Option.some_injective Instant) ?_
  rw [hback ts hts, h, ← hback us hus]

namespace Event

variable {e : Event} {r : Recurrence} {all : Instances} {series excluded : List Int}

/-- More are drawn than are asked for, as far as they can be asked for. -/
theorem le_drawnFor {limit : Nat} (h : limit ≤ mostInstances) : limit ≤ drawnFor r limit :=
  Nat.le_min.2 ⟨h, Nat.le_add_right _ _⟩

theorem drawnFor_le_mostInstances (r : Recurrence) (n : Nat) : drawnFor r n ≤ mostInstances :=
  Nat.min_le_left _ _

theorem drawnFor_le {n limit : Nat} (h : n ≤ limit) : drawnFor r n ≤ drawnFor r limit := by
  unfold drawnFor
  omega

/-- If the series is cut first, what is drawn begins with the first instances that are not excluded,
of those that can be asked for. -/
theorem take_drawn_of_cutsBefore (hcut : all.CutsBefore series excluded)
    (hseries : series.Pairwise (· < ·)) (hlength : excluded.length = r.excludeDates.length)
    (n : Nat) : ((all (drawnFor r n)).map Instant.seconds).take n =
      ((series.take mostInstances).filter fun t => t ∉ excluded).take n := by
  have hnodup : (series.take mostInstances).Nodup := hseries.take.imp Int.ne_of_lt
  have hdrawn : series.take (drawnFor r n) =
      (series.take mostInstances).take (n + excluded.length) := by
    rw [List.take_take, hlength, drawnFor, Nat.min_comm]
  rw [hcut _ (drawnFor_le_mostInstances r n), hdrawn]
  exact take_filter_take hnodup excluded n

/-- If excluded instances are left out first, nothing else is left out. -/
theorem take_drawn_of_cutsAfter (hcut : all.CutsAfter series excluded) {n : Nat}
    (hn : n ≤ mostInstances) : ((all (drawnFor r n)).map Instant.seconds).take n =
      (series.filter fun t => t ∉ excluded).take n := by
  rw [hcut _ (drawnFor_le_mostInstances r n), List.take_take, Nat.min_eq_left (le_drawnFor hn)]

/-- The cap plays no part as long as it is not reached. -/
theorem take_filter_take_mostInstances (hseries : series.Pairwise (· < ·)) {n : Nat}
    (hn : n + excluded.length ≤ mostInstances) :
    ((series.take mostInstances).filter fun t => t ∉ excluded).take n =
      (series.filter fun t => t ∉ excluded).take n := by
  have hnodup : series.Nodup := hseries.imp Int.ne_of_lt
  rw [← take_filter_take (hnodup.sublist (List.take_sublist _ _)), List.take_take,
    Nat.min_eq_left hn, take_filter_take hnodup]

section Smaller

variable (hwhole : ∀ cap, ∀ t ∈ all cap, t.nano = 0)
  (hcut : all.CutsBefore series excluded ∨ all.CutsAfter series excluded)

include hwhole hcut

/-- What is drawn for a smaller number is the beginning of what is drawn for a larger one. -/
theorem prefix_of_cuts {m n : Nat} (hmn : m ≤ n) (hn : n ≤ mostInstances) : all m <+: all n := by
  have hseconds : (all m).map Instant.seconds <+: (all n).map Instant.seconds := by
    rcases hcut with hcut | hcut
    · rw [hcut m (hmn.trans hn), hcut n hn]
      exact (List.take_prefix_take_left hmn).filter _
    · rw [hcut m (hmn.trans hn), hcut n hn]
      exact List.take_prefix_take_left hmn
  rw [List.prefix_iff_eq_take, ← List.map_take] at hseconds
  rw [eq_of_map_seconds (hwhole m) (fun t ht => hwhole n t (List.mem_of_mem_take ht)) hseconds]
  exact List.take_prefix _ _

/-- A smaller limit draws the same first instances, as many as it asks for. -/
theorem take_drawn_eq (hseries : series.Pairwise (· < ·))
    (hlength : excluded.length = r.excludeDates.length) {n limit : Nat} (hn : n ≤ limit)
    (hlimit : limit ≤ mostInstances) :
    (all (drawnFor r n)).take n = (all (drawnFor r limit)).take n := by
  refine eq_of_map_seconds (fun t ht => hwhole _ t (List.mem_of_mem_take ht))
    (fun t ht => hwhole _ t (List.mem_of_mem_take ht)) ?_
  have hdown : ∀ xs : List Int, xs.take n = (xs.take limit).take n := by
    intro xs
    rw [List.take_take, Nat.min_eq_left hn]
  rw [List.map_take, List.map_take, hdown ((all (drawnFor r limit)).map Instant.seconds)]
  rcases hcut with hcut | hcut
  · rw [take_drawn_of_cutsBefore hcut hseries hlength,
      take_drawn_of_cutsBefore hcut hseries hlength, ← hdown]
  · rw [take_drawn_of_cutsAfter hcut (hn.trans hlimit), take_drawn_of_cutsAfter hcut hlimit,
      ← hdown]

end Smaller

/-! ## Occurrences of what is drawn -/

theorem start_of_occurrenceAt {start : Instant} {o : Occurrence}
    (h : e.occurrenceAt start = .ok o) : o.start = start := by
  unfold occurrenceAt at h
  split at h
  · cases h
  · cases h
    rfl

/-- Occurrences start at the instances that they are made from. -/
theorem map_start_of_mapM {ts : List Instant} {os : List Occurrence}
    (h : ts.mapM e.occurrenceAt = .ok os) : os.map Occurrence.start = ts := by
  have hstarts : List.Forall₂ (fun t o => t = o.start) ts os :=
    (Outcome.mapM_eq_ok_iff.1 h).imp fun t o ho => (start_of_occurrenceAt ho).symm
  rw [← List.forall₂_map_right_iff, List.forall₂_eq_eq_eq] at hstarts
  exact hstarts.symm

section Expansion

variable [TimeZones] [RuleEngine] {z : Zone}

theorem exists_instances_of_occurrences (hr : e.recurring = some r) {limit : Nat}
    {os : List Occurrence} (h : e.occurrences limit = .ok os) :
    ∃ all, e.instances r = .ok all := by
  rw [occurrences_of_recurring hr] at h
  obtain ⟨all, hall, -⟩ := Outcome.bind_eq_ok h
  exact ⟨all, hall⟩

/-- What an expansion that succeeds has drawn is what the engine made of the text. -/
theorem instances_of_occurrences (hr : e.recurring = some r)
    (hz : Zone.ofName? (e.recurrenceZone r) = some z)
    (hall : RuleEngine.expand (r.ruleText z e.start) = .ok all) {limit : Nat}
    {os : List Occurrence} (h : e.occurrences limit = .ok os) : e.instances r = .ok all := by
  obtain ⟨all', hinstances⟩ := exists_instances_of_occurrences hr h
  obtain ⟨-, z', hz', hall'⟩ := instances_eq_ok_iff.1 hinstances
  rw [hz] at hz'
  cases hz'
  rw [hall] at hall'
  cases hall'
  exact hinstances

/-- A smaller limit gives the first occurrences of a larger one, if it draws the beginning of what
is drawn for that, and of it as much as it asks for. -/
theorem occurrences_of_prefix (hr : e.recurring = some r) (hall : e.instances r = .ok all)
    {n limit : Nat} (hn : n ≤ limit)
    (hbeginning : all (drawnFor r n) <+: all (drawnFor r limit))
    (htake : (all (drawnFor r n)).take n = (all (drawnFor r limit)).take n) {os : List Occurrence}
    (h : e.occurrences limit = .ok os) : e.occurrences n = .ok (os.take n) := by
  rw [occurrences_of_instances hr hall rfl] at h ⊢
  obtain ⟨drawn, hdrawn, h⟩ := Outcome.bind_eq_ok h
  cases h
  have hfirst : (all (drawnFor r n)).mapM e.occurrenceAt =
      .ok (drawn.take (all (drawnFor r n)).length) := by
    have hmade := List.forall₂_take (all (drawnFor r n)).length (Outcome.mapM_eq_ok_iff.1 hdrawn)
    rw [← List.prefix_iff_eq_take.1 hbeginning] at hmade
    exact Outcome.mapM_eq_ok_iff.2 hmade
  have hlength : drawn.length = (all (drawnFor r limit)).length := by
    rw [← map_start_of_mapM hdrawn, List.length_map]
  -- if fewer than `n` are drawn, then no more are drawn for the larger limit
  have hsame : (drawn.take (all (drawnFor r n)).length).take n = (drawn.take limit).take n := by
    have hcount := congrArg List.length htake
    rw [List.length_take, List.length_take] at hcount
    rw [List.take_take, List.take_take, Nat.min_eq_left hn, List.take_eq_take_iff]
    omega
  rw [hfirst, Outcome.ok_bind, hsame]

end Expansion

end Event

namespace RuleSet

variable {z : YearlyZone} {r : Recurrence} {start : Instant} {s : RuleSet}

/-- What the engine of the table excludes are the instants of the line of exclusions. -/
theorem IsRead.excludes (hz : YearlyZone.ofName? z.name = some z) (h : IsRead z r start s) :
    Excludes (r.ruleText z.zone start) s.excluded := by
  have hknown := YearlyZone.ofName?_zone hz
  have hlines := Line.all?_ruleText (fun _ => Zone.notMem_name hknown) r start
  have hread := Outcome.mapM_eq_ok_iff.1 h.excluded
  by_cases hexclude : r.excludeDates = []
  · rw [hexclude] at hread
    rw [if_pos hexclude] at hlines
    rw [List.forall₂_nil_left_iff.1 hread]
    exact .nothing hlines
  · rw [if_neg hexclude] at hlines
    refine .stamps hlines hknown ?_
    rw [split_stamps _ hexclude, List.forall₂_map_left_iff]
    refine hread.imp fun t x hx => ?_
    obtain ⟨⟨l, second⟩, hstamp, rfl⟩ := Outcome.map_eq_ok hx
    unfold readStamp at hstamp
    split at hstamp
    · cases hstamp
    next l' hl =>
      split at hstamp
      next x hx =>
        cases hstamp
        refine ⟨_, hl, fun u => ?_⟩
        rw [← YearlyZone.mem_instantsAt_iff, hx, List.mem_singleton]
      next => cases hstamp
      next => cases hstamp

/-- The engine of the table leaves excluded instances out first. -/
theorem IsRule.cutsAfter (h : IsRule z r start s) (hz : z ∈ YearlyZone.table)
    (hi : 0 < r.interval) : Instances.CutsAfter s.admittedInstants s.series s.excluded := by
  intro cap _
  have hinterval := h.interval
  rw [h.map_seconds_admittedInstants hz, admitted_eq (h.zone.symm ▸ hz) (by omega)]

/-- What remains of the first instances without the excluded ones of them. -/
def cutInstants (s : RuleSet) (cap : Nat) : List Instant :=
  ((s.instances cap).filter fun t => t ∉ s.excluded).filterMap fun t => Instant.ofSeconds? t 0

theorem IsRule.cutsBefore (h : IsRule z r start s) (hz : z ∈ YearlyZone.table)
    (hi : 0 < r.interval) : Instances.CutsBefore s.cutInstants s.series s.excluded := by
  intro cap _
  have hinterval := h.interval
  have hseries := instances_eq_take_series (h.zone.symm ▸ hz) (show 0 < _ by omega) cap
  rw [← hseries]
  exact map_seconds_filterMap_ofSeconds? fun t ht =>
    h.inRange_of_mem_instances hz (List.mem_of_mem_filter ht)

end RuleSet

/-- An engine for zones of the table that cuts the series first. -/
@[reducible] def RuleSet.cuttingEngine : RuleEngine where
  expand text := ((ofText text).mapError RuleFault.message).map cutInstants
  whole {text instances} h cap t ht := by
    obtain ⟨s, -, rfl⟩ := Outcome.map_eq_ok h
    obtain ⟨seconds, -, hseconds⟩ := List.mem_filterMap.1 ht
    exact Instant.nano_of_ofSeconds? hseconds

/-! ## Six days with exclusions -/

/-- Six days from 2026-01-05 on.  The first is excluded twice and the third once; what is excluded
on the fourth day is an hour later and takes nothing away. -/
def standupDays : Recurrence where
  frequency := .daily
  count := some 6
  excludeDates := [⟨20458, 32400, 0, by decide⟩, ⟨20458, 32400, 5, by decide⟩,
    ⟨20460, 32400, 0, by decide⟩, ⟨20461, 36000, 0, by decide⟩]

def standup : Event where
  id := "1"
  type := "standup"
  start := ⟨20458, 32400, 0, by decide⟩
  finish := ⟨20458, 33300, 0, by decide⟩
  recurring := some standupDays

/-- What is read from the text of the rule. -/
def standupRule : RuleSet where
  zone := .universal
  localStart := 1767603600
  start := 1767603600
  repetition := ⟨.daily, 1, some 6, none, [], none⟩
  excluded := [1767603600, 1767603600, 1767776400, 1767866400]

/-- The second, the fourth and the fifth day. -/
def standupOccurrences : List Occurrence := [
  ⟨⟨20459, 32400, 0, by decide⟩, ⟨20459, 33300, 0, by decide⟩⟩,
  ⟨⟨20461, 32400, 0, by decide⟩, ⟨20461, 33300, 0, by decide⟩⟩,
  ⟨⟨20462, 32400, 0, by decide⟩, ⟨20462, 33300, 0, by decide⟩⟩]

theorem isRead_standup : RuleSet.IsRead .universal standupDays standup.start standupRule :=
  RuleSet.isRead_of_count rfl rfl (by decide) ⟨rfl, rfl, rfl⟩
    (RuleSet.readStamp_stamp_universal (by decide) (by decide) rfl _)
    (RuleSet.mapM_readStamp_universal (by decide) _)

/-- The six days. -/
def standupSeries : List Int :=
  [1767603600, 1767690000, 1767776400, 1767862800, 1767949200, 1768035600]

theorem instances_standup {wanted : Nat} (h : 6 ≤ wanted) :
    standupRule.instances wanted = standupSeries :=
  RuleSet.instances_eq_of_found rfl (Nat.min_eq_right h) (by decide +kernel)

theorem admitted_standup : standupRule.admitted (Event.drawnFor standupDays 3) =
    [1767690000, 1767862800, 1767949200, 1768035600] := by
  rw [RuleSet.admitted, instances_standup (by decide)]
  rfl

theorem occurrences_standup : standup.occurrences 3 = .ok standupOccurrences := by
  rw [Event.occurrences_of_isRead rfl rfl rfl rfl isRead_standup admitted_standup]
  rfl

theorem expand_cuttingEngine_standup :
    RuleSet.cuttingEngine.expand (standupDays.ruleText .universal standup.start) =
      .ok standupRule.cutInstants := by
  have hset : RuleSet.ofText (standupDays.ruleText .universal standup.start) = .ok standupRule :=
    (RuleSet.ofText_ruleText_eq_ok_iff (z := .universal) rfl).2 isRead_standup
  show ((RuleSet.ofText _).mapError _).map _ = _
  rw [hset]
  rfl

theorem occurrences_cuttingEngine_standup :
    @Event.occurrences _ RuleSet.cuttingEngine standup 3 = .ok standupOccurrences := by
  have hcut : (standupRule.instances (Event.drawnFor standupDays 3)).filter
      (fun t => t ∉ standupRule.excluded) = [1767690000, 1767862800, 1767949200, 1768035600] := by
    rw [instances_standup (by decide)]
    rfl
  have hall := (@Event.instances_eq_ok_iff standup standupDays _ RuleSet.cuttingEngine _).2
    ⟨rfl, .universal, rfl, expand_cuttingEngine_standup⟩
  rw [@Event.occurrences_of_instances _ _ _ _ RuleSet.cuttingEngine _ rfl hall _ rfl,
    RuleSet.cutInstants, hcut]
  rfl

end CalendarRules
