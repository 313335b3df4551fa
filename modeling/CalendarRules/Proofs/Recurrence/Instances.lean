import CalendarRules.Proofs.Recurrence.Lowering
import CalendarRules.Proofs.Recurrence.Refusal
import CalendarRules.Proofs.Recurrence.Series
import CalendarRules.Proofs.Time.Instant
import Mathlib.Data.List.Perm.Subperm

/-!
# The instances that the engine of the table gives

What the engine for zones of the table admits of a rule is the beginning of the series of the rule
without the excluded instants (`RuleSet.admitted_eq`).  To find so many it draws as many more as
there are exclusions: the series has no instance twice, so each exclusion takes away one at most,
however often the same instant is excluded (`take_filter_take`).

All of it lies between the start of the rule and the year 10002, so nothing is lost when seconds
become instants (`RuleSet.IsRule.map_seconds_admittedInstants`).
-/

namespace CalendarRules

/-! ## Lists with exclusions -/

/-- Of a list without repetition at most as many elements are excluded as there are exclusions. -/
theorem length_filter_excluded_le {α : Type} [DecidableEq α] {xs : List α} (h : xs.Nodup)
    (excluded : List α) : (xs.filter fun x => x ∈ excluded).length ≤ excluded.length := by
  have hsubset : (xs.filter fun x => x ∈ excluded) ⊆ excluded := fun x hx =>
    of_decide_eq_true (List.mem_filter.1 hx).2
  exact (List.subperm_of_subset (h.filter _) hsubset).length_le

/-- The first `n` elements that are not excluded are found among as many more elements as there are
exclusions. -/
theorem take_filter_take {α : Type} [DecidableEq α] {xs : List α} (h : xs.Nodup)
    (excluded : List α) (n : Nat) :
    ((xs.take (n + excluded.length)).filter fun x => x ∉ excluded).take n =
      (xs.filter fun x => x ∉ excluded).take n := by
  set drawn := xs.take (n + excluded.length) with hdrawn
  -- if the list ends before, all of it is drawn; otherwise enough of what is drawn is left
  rcases Nat.le_total xs.length (n + excluded.length) with hall | hmore
  · rw [hdrawn, List.take_of_length_le hall]
  · have hlength : drawn.length = n + excluded.length := by
      rw [hdrawn, List.length_take, Nat.min_eq_left hmore]
    have hnodup : drawn.Nodup := h.sublist (List.take_sublist _ _)
    have hexcluded := length_filter_excluded_le hnodup excluded
    have hsum := List.length_eq_length_filter_add (l := drawn) fun x => decide (x ∈ excluded)
    have henough : n ≤ (drawn.filter fun x => x ∉ excluded).length := by
      simp only [decide_not]
      omega
    have hsplit : xs.filter (fun x => x ∉ excluded) = drawn.filter (fun x => x ∉ excluded) ++
        (xs.drop (n + excluded.length)).filter fun x => x ∉ excluded := by
      rw [← List.filter_append, List.take_append_drop]
    rw [hsplit, List.take_append_of_le_length henough]

namespace RuleSet

variable {z : YearlyZone} {r : Recurrence} {start : Instant} {s : RuleSet}

/-! ## What is admitted -/

theorem admitted_eq (hz : s.zone ∈ YearlyZone.table) (hi : 0 < s.repetition.interval) (n : Nat) :
    s.admitted n = (s.series.filter fun t => t ∉ s.excluded).take n := by
  have hnodup : s.series.Nodup := (pairwise_instances hz hi s.reach).imp Int.ne_of_lt
  have htest : (fun t => !s.excluded.contains t) = fun t => decide (t ∉ s.excluded) := by
    funext t
    simp
  rw [admitted, instances_eq_take_series hz hi, htest]
  exact take_filter_take hnodup s.excluded n

theorem mem_instances_of_mem_admitted {n : Nat} {t : Int} (h : t ∈ s.admitted n) :
    t ∈ s.instances (n + s.excluded.length) :=
  (List.mem_filter.1 (List.mem_of_mem_take h)).1

/-- Instances lie between the start and the beginning of the year 10003. -/
theorem IsRule.bounds_of_mem_instances (h : IsRule z r start s) (hz : z ∈ YearlyZone.table)
    {n : Nat} {t : Int} (ht : t ∈ s.instances n) :
    start.seconds ≤ t ∧ t < firstDayOfYear 10003 * 86400 := by
  have hstandard : ∀ z ∈ YearlyZone.table, -86400 < z.standard := by decide
  have hbounds := RuleSet.bounds_of_mem_instances ht
  have hzone := hstandard z hz
  have hlast : firstDayOfYear 10001 + 366 ≤ firstDayOfYear 10003 := by decide
  rw [h.start, horizon, h.zone, lastPeriodDay] at hbounds
  omega

theorem IsRule.inRange_of_mem_instances (h : IsRule z r start s) (hz : z ∈ YearlyZone.table)
    {n : Nat} {t : Int} (ht : t ∈ s.instances n) : Instant.InRange (t * 1000000000) := by
  obtain ⟨hstart, hend⟩ := h.bounds_of_mem_instances hz ht
  have hday := start.isInstant.1
  have hlast : firstDayOfYear 10003 ≤ Instant.lastDay + 1 := by decide
  rw [Instant.seconds] at hstart
  rw [Instant.InRange]
  omega

/-! ## As instants -/

/-- Seconds in range are those of the instants that they become. -/
theorem map_seconds_filterMap_ofSeconds? {ts : List Int}
    (h : ∀ t ∈ ts, Instant.InRange (t * 1000000000)) :
    (ts.filterMap fun t => Instant.ofSeconds? t 0).map Instant.seconds = ts := by
  rw [List.map_filterMap]
  refine (List.filterMap_congr fun t ht => ?_).trans List.filterMap_some
  obtain ⟨instant, hleap, hnanos⟩ := Instant.exists_nanos_eq (h t ht)
  have hinstant : Instant.ofSeconds? t 0 = some instant := by
    rw [Instant.ofSeconds?_eq_some_iff (by decide)]
    exact ⟨hleap, by rw [hnanos, Int.natCast_zero, Int.add_zero]⟩
  have hnano := Instant.nano_lt hleap
  rw [hinstant, Option.map_some, Option.some_inj]
  rw [Instant.nanos] at hnanos
  omega

theorem IsRule.map_seconds_admittedInstants (h : IsRule z r start s)
    (hz : z ∈ YearlyZone.table) (n : Nat) :
    (s.admittedInstants n).map Instant.seconds = s.admitted n :=
  map_seconds_filterMap_ofSeconds? fun _ ht =>
    h.inRange_of_mem_instances hz (mem_instances_of_mem_admitted ht)

/-- An instance comes neither before the start nor after the year 10002. -/
theorem IsRule.bounds_of_mem_admittedInstants (h : IsRule z r start s)
    (hz : z ∈ YearlyZone.table) {n : Nat} {t : Instant} (ht : t ∈ s.admittedInstants n) :
    start.seconds ≤ t.seconds ∧ t.date.year ≤ 10002 := by
  have hmem := List.mem_map_of_mem (f := Instant.seconds) ht
  rw [h.map_seconds_admittedInstants hz] at hmem
  obtain ⟨hstart, hend⟩ := h.bounds_of_mem_instances hz (mem_instances_of_mem_admitted hmem)
  refine ⟨hstart, ?_⟩
  by_contra hlate
  have hfirst : firstDayOfYear 10003 ≤ t.day :=
    (firstDayOfYear_le (show (10003 : Int) ≤ t.date.year by omega)).trans (year_bounds t.day).1
  rw [Instant.seconds] at hend
  omega

end RuleSet

/-! ## Expansions with this engine -/

/-- The engine of the table takes the text of a recurrence if a rule set can be read from it. -/
theorem RuleSet.expand_ruleText_eq_ok_iff {z : YearlyZone} (hz : YearlyZone.ofName? z.name = some z)
    {r : Recurrence} {start : Instant} {all : Instances} :
    RuleSet.expand (r.ruleText z.zone start) = .ok all ↔
      ∃ s, IsRead z r start s ∧ all = s.admittedInstants := by
  unfold RuleSet.expand
  constructor
  · intro h
    obtain ⟨s, hs, rfl⟩ := Outcome.map_eq_ok h
    exact ⟨s, (ofText_ruleText_eq_ok_iff hz).1 (Outcome.mapError_eq_ok hs), rfl⟩
  · rintro ⟨s, hs, rfl⟩
    rw [(ofText_ruleText_eq_ok_iff hz).2 hs]
    rfl

theorem YearlyZone.ofName?_zone {z : YearlyZone} (hz : YearlyZone.ofName? z.name = some z) :
    Zone.ofName? z.name = some z.zone := by
  show ((YearlyZone.ofName? z.name).map YearlyZone.offset).map _ = _
  rw [hz]
  rfl

/-- In a zone of the table, what is read from the text of a recurrence without problems gives the
instances of the event. -/
theorem Event.instances_of_isRead {e : Event} {r : Recurrence} {z : YearlyZone} {s : RuleSet}
    (hproblems : r.problems = []) (hz : YearlyZone.ofName? z.name = some z)
    (hzone : e.recurrenceZone r = z.name) (h : RuleSet.IsRead z r e.start s) :
    e.instances r = .ok s.admittedInstants := by
  refine instances_eq_ok_iff.2 ⟨hproblems, z.zone, ?_, ?_⟩
  · rw [hzone]
    exact YearlyZone.ofName?_zone hz
  · exact (RuleSet.expand_ruleText_eq_ok_iff hz).2 ⟨s, h, rfl⟩

/-- Its occurrences are made from the instances that are admitted. -/
theorem Event.occurrences_of_isRead {e : Event} {r : Recurrence} {z : YearlyZone} {s : RuleSet}
    (hr : e.recurring = some r) (hproblems : r.problems = [])
    (hz : YearlyZone.ofName? z.name = some z) (hzone : e.recurrenceZone r = z.name)
    (h : RuleSet.IsRead z r e.start s) {limit : Nat} {ts : List Int}
    (hadmitted : s.admitted (Event.drawnFor r limit) = ts) :
    e.occurrences limit =
      ((ts.filterMap fun t => Instant.ofSeconds? t 0).mapM e.occurrenceAt >>=
        fun os => .ok (os.take limit)) := by
  have hdrawn : s.admittedInstants (Event.drawnFor r limit) =
      ts.filterMap fun t => Instant.ofSeconds? t 0 := by
    rw [RuleSet.admittedInstants, hadmitted]
  exact occurrences_of_instances hr (instances_of_isRead hproblems hz hzone h) hdrawn

end CalendarRules
