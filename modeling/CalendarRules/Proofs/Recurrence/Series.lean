import CalendarRules.Proofs.Recurrence.Periods
import CalendarRules.Proofs.Time.YearlyZone
import Mathlib.Data.Finset.Card
import Mathlib.Data.Int.Interval
import Mathlib.Data.List.GetD
import Mathlib.Data.List.TakeWhile

/-!
# The series of a rule

Instances are drawn period by period until there are as many as were asked for.  Asking for more
only adds instances at the end, so all answers are beginnings of one list, the series of the rule
(`RuleSet.instances_eq_take_series`).

The series is in strictly ascending order.  On each day an instance is the time of day of the start
less an offset of the zone; the offsets lie less than a day apart, so instances of different days
come in the order of the days, and periods do not overlap.  It is finite because no period begins
after the last one that a rule may have.
-/

namespace CalendarRules
namespace RuleSet

variable {s : RuleSet}

/-! ## Instances of days -/

/-- An instance shows the time of day of the start, or lies that much after midnight: either way it
is what the clocks of one offset show. -/
theorem exists_offset_of_instanceOn? {day t : Int} (h : s.instanceOn? day = some t) :
    ∃ seconds, t = day * 86400 + s.timeOfDay - s.zone.offset seconds := by
  unfold instanceOn? at h
  split at h
  next t' ht =>
    cases h
    have hclock : s.zone.zone.localTime t = _ :=
      YearlyZone.mem_instantsAt (ht ▸ List.mem_singleton_self t)
    rw [YearlyZone.localTime_eq] at hclock
    exact ⟨t, by omega⟩
  next =>
    split at h
    next midnight hmidnight =>
      cases h
      have hclock : s.zone.zone.localTime midnight = _ :=
        YearlyZone.mem_instantsAt (hmidnight ▸ List.mem_singleton_self midnight)
      rw [YearlyZone.localTime_eq] at hclock
      exact ⟨midnight, by omega⟩
    next => cases h

/-- Instances come in the order of their days. -/
theorem lt_of_instanceOn? (hz : s.zone ∈ YearlyZone.table) {day day' t t' : Int} (hday : day < day')
    (ht : s.instanceOn? day = some t) (ht' : s.instanceOn? day' = some t') : t < t' := by
  obtain ⟨seconds, rfl⟩ := exists_offset_of_instanceOn? ht
  obtain ⟨seconds', rfl⟩ := exists_offset_of_instanceOn? ht'
  have hsaving := YearlyZone.saving_lt_day s.zone hz
  have hoffset := YearlyZone.offset_eq s.zone seconds
  have hoffset' := YearlyZone.offset_eq s.zone seconds'
  omega

/-! ## Instances of periods -/

theorem exists_day_of_mem_instancesIn {k : Nat} {t : Int} (h : t ∈ s.instancesIn k) :
    ∃ day, (s.period k).1 ≤ day ∧ day < (s.period k).2 ∧ s.instanceOn? day = some t := by
  obtain ⟨hmem, -⟩ := List.mem_filter.1 h
  obtain ⟨day, hday, ht⟩ := List.mem_filterMap.1 hmem
  obtain ⟨i, hi, rfl⟩ := List.mem_map.1 (List.mem_filter.1 hday).1
  have hlt : i < ((s.period k).2 - (s.period k).1).toNat := List.mem_range.1 hi
  refine ⟨(s.period k).1 + (i : Nat), ?_, ?_, ht⟩
  · omega
  · omega

theorem start_le_of_mem_instancesIn {k : Nat} {t : Int} (h : t ∈ s.instancesIn k) : s.start ≤ t :=
  of_decide_eq_true (List.mem_filter.1 h).2

theorem pairwise_instancesIn (hz : s.zone ∈ YearlyZone.table) (k : Nat) :
    (s.instancesIn k).Pairwise (· < ·) := by
  have hdays : ((List.range ((s.period k).2 - (s.period k).1).toNat).map fun i =>
      (s.period k).1 + (i : Nat)).Pairwise (· < ·) :=
    List.pairwise_lt_range.map _ fun a b hab => by omega
  refine List.Pairwise.filter _ ?_
  refine List.Pairwise.filterMap _ (fun day day' hday t ht t' ht' => ?_) (hdays.filter _)
  exact lt_of_instanceOn? hz hday ht ht'

/-- Instances of different periods come in the order of the periods. -/
theorem lt_of_mem_instancesIn (hz : s.zone ∈ YearlyZone.table) (hi : 0 < s.repetition.interval)
    {k k' : Nat} (hk : k < k') {t t' : Int} (ht : t ∈ s.instancesIn k)
    (ht' : t' ∈ s.instancesIn k') : t < t' := by
  obtain ⟨day, -, hday, hat⟩ := exists_day_of_mem_instancesIn ht
  obtain ⟨day', hday', -, hat'⟩ := exists_day_of_mem_instancesIn ht'
  have hperiods : (s.period k).2 ≤ (s.period k').1 :=
    Frequency.period_le _ _ (Nat.mul_lt_mul_of_pos_right hk hi)
  exact lt_of_instanceOn? hz (by omega) hat hat'

/-! ## Drawing instances -/

section Drawing

variable {wanted idle k : Nat}

theorem instancesFrom_of_done (h : wanted = 0 ∨ idle = 0) : s.instancesFrom wanted idle k = [] := by
  rw [instancesFrom, if_pos h]

theorem instancesFrom_of_ended (h : (!s.hasPeriod k) = true) :
    s.instancesFrom wanted idle k = [] := by
  rw [instancesFrom, if_pos h, ite_self]

variable (hopen : ¬(wanted = 0 ∨ idle = 0)) (hperiod : ¬(!s.hasPeriod k) = true)

include hopen hperiod

/-- An empty period uses up patience. -/
theorem instancesFrom_of_empty (h : s.instancesIn k = []) :
    s.instancesFrom wanted idle k = s.instancesFrom wanted (idle - 1) (k + 1) := by
  rw [instancesFrom, if_neg hopen, if_neg hperiod]
  simp only [h]

variable {t : Int} {ts : List Int} (hfound : s.instancesIn k = t :: ts)

include hfound

/-- Drawing ends in the period in which the rule ends. -/
theorem instancesFrom_of_late (h : ((t :: ts).takeWhile s.isInTime).length < (t :: ts).length) :
    s.instancesFrom wanted idle k = ((s.instancesIn k).takeWhile s.isInTime).take wanted := by
  rw [instancesFrom, if_neg hopen, if_neg hperiod, hfound]
  exact if_pos h

/-- A period with instances in time is taken as a whole. -/
theorem instancesFrom_of_found
    (h : ¬((t :: ts).takeWhile s.isInTime).length < (t :: ts).length) :
    s.instancesFrom wanted idle k = (s.instancesIn k).take wanted ++
      s.instancesFrom (wanted - (s.instancesIn k).length) patience (k + 1) := by
  have hall : (t :: ts).takeWhile s.isInTime = t :: ts :=
    (List.takeWhile_prefix _).eq_of_length_le (Nat.not_lt.1 h)
  rw [instancesFrom, if_neg hopen, if_neg hperiod, hfound]
  simp only [hall, Nat.lt_irrefl, if_false]

end Drawing

/-- Where periods have one instance each and the rule has no end, what is drawn are the instances of
one period after the other. -/
theorem instancesFrom_eq_map (hfinish : s.repetition.finish = none) {f : Nat → Int} (wanted : Nat)
    {idle : Nat} (hidle : idle ≠ 0) (k : Nat)
    (hone : ∀ j, k ≤ j → j < k + wanted → s.instancesIn j = [f j]) :
    s.instancesFrom wanted idle k = ((List.range' k wanted).takeWhile s.hasPeriod).map f := by
  -- no period is empty, so patience does not run out
  induction wanted generalizing idle k with
  | zero =>
    rw [instancesFrom_of_done (.inl rfl)]
    rfl
  | succ wanted ih =>
    rw [List.range'_succ]
    by_cases hperiod : s.hasPeriod k = true
    · have hopen : ¬(wanted + 1 = 0 ∨ idle = 0) := by omega
      have hhere : ¬(!s.hasPeriod k) = true := by
        rw [hperiod]
        decide
      have hfound := hone k (Nat.le_refl k) (by omega)
      have hintime : s.isInTime (f k) = true := by rw [isInTime, hfinish]
      have hall : ¬([f k].takeWhile s.isInTime).length < [f k].length := by
        rw [List.takeWhile_cons_of_pos hintime, List.takeWhile_nil]
        exact Nat.lt_irrefl _
      have hlater : s.instancesFrom wanted patience (k + 1) =
          ((List.range' (k + 1) wanted).takeWhile s.hasPeriod).map f :=
        ih (by decide) (k + 1) fun j hle hlt => hone j (by omega) (by omega)
      rw [instancesFrom_of_found hopen hhere hfound hall, hfound, List.length_singleton,
        Nat.add_sub_cancel, hlater, List.takeWhile_cons_of_pos hperiod, List.map_cons,
        List.take_of_length_le (by simp), List.singleton_append]
    · have hended : (!s.hasPeriod k) = true := by
        rw [Bool.eq_false_of_not_eq_true hperiod]
        rfl
      rw [instancesFrom_of_ended hended, List.takeWhile_cons_of_neg hperiod, List.map_nil]

/-- What is drawn belongs to the period where drawing begins, or to a later one. -/
theorem exists_period_of_mem_instancesFrom {wanted idle k : Nat} {t : Int}
    (h : t ∈ s.instancesFrom wanted idle k) :
    ∃ k', k ≤ k' ∧ s.hasPeriod k' = true ∧ t ∈ s.instancesIn k' := by
  have hhere : ∀ {k}, ¬(!s.hasPeriod k) = true → s.hasPeriod k = true := by simp
  induction wanted, idle, k using instancesFrom.induct s with
  | case1 wanted idle k hdone =>
    rw [instancesFrom_of_done hdone] at h
    cases h
  | case2 wanted idle k hopen hended =>
    rw [instancesFrom_of_ended hended] at h
    cases h
  | case3 wanted idle k hopen hperiod hempty ih =>
    rw [instancesFrom_of_empty hopen hperiod hempty] at h
    obtain ⟨k', hk, hmem⟩ := ih h
    exact ⟨k', by omega, hmem⟩
  | case4 wanted idle k hopen hperiod t' ts hfound found kept hlate =>
    rw [instancesFrom_of_late hopen hperiod hfound hlate] at h
    have hmem := List.mem_of_mem_take h
    exact ⟨k, Nat.le_refl k, hhere hperiod, (List.takeWhile_prefix _).subset hmem⟩
  | case5 wanted idle k hopen hperiod t' ts hfound found kept hall ih =>
    rw [instancesFrom_of_found hopen hperiod hfound hall, List.mem_append, hfound] at h
    rcases h with hnow | hlater
    · exact ⟨k, Nat.le_refl k, hhere hperiod, hfound ▸ List.mem_of_mem_take hnow⟩
    · obtain ⟨k', hk, hmem⟩ := ih hlater
      exact ⟨k', by omega, hmem⟩

/-- Instances are drawn in ascending order. -/
theorem pairwise_instancesFrom (hz : s.zone ∈ YearlyZone.table) (hi : 0 < s.repetition.interval)
    (wanted idle k : Nat) : (s.instancesFrom wanted idle k).Pairwise (· < ·) := by
  induction wanted, idle, k using instancesFrom.induct s with
  | case1 wanted idle k hdone =>
    rw [instancesFrom_of_done hdone]
    exact .nil
  | case2 wanted idle k hopen hended =>
    rw [instancesFrom_of_ended hended]
    exact .nil
  | case3 wanted idle k hopen hperiod hempty ih =>
    rw [instancesFrom_of_empty hopen hperiod hempty]
    exact ih
  | case4 wanted idle k hopen hperiod t ts hfound found kept hlate =>
    rw [instancesFrom_of_late hopen hperiod hfound hlate]
    exact ((pairwise_instancesIn hz k).sublist (List.takeWhile_sublist _)).take
  | case5 wanted idle k hopen hperiod t ts hfound found kept hall ih =>
    rw [instancesFrom_of_found hopen hperiod hfound hall, List.pairwise_append]
    refine ⟨(pairwise_instancesIn hz k).take, hfound ▸ ih, fun t ht t' ht' => ?_⟩
    obtain ⟨k', hk, -, hmem⟩ := exists_period_of_mem_instancesFrom ht'
    exact lt_of_mem_instancesIn hz hi hk (List.mem_of_mem_take ht) hmem

/-- Asking for more adds instances at the end. -/
theorem instancesFrom_take {wanted wanted' idle k : Nat} (h : wanted ≤ wanted') :
    s.instancesFrom wanted idle k = (s.instancesFrom wanted' idle k).take wanted := by
  induction wanted', idle, k using instancesFrom.induct s generalizing wanted with
  | case1 wanted' idle k hdone =>
    rw [instancesFrom_of_done hdone, instancesFrom_of_done (by omega), List.take_nil]
  | case2 wanted' idle k hopen hended =>
    rw [instancesFrom_of_ended hended, instancesFrom_of_ended hended, List.take_nil]
  | case3 wanted' idle k hopen' hperiod hempty ih =>
    rcases Nat.eq_zero_or_pos wanted with rfl | hpos
    · rw [instancesFrom_of_done (.inl rfl), List.take_zero]
    · rw [instancesFrom_of_empty (by omega) hperiod hempty,
        instancesFrom_of_empty hopen' hperiod hempty]
      exact ih h
  | case4 wanted' idle k hopen' hperiod t ts hfound found kept =>
    rename_i hlate
    rcases Nat.eq_zero_or_pos wanted with rfl | hpos
    · rw [instancesFrom_of_done (.inl rfl), List.take_zero]
    · rw [instancesFrom_of_late (by omega) hperiod hfound hlate,
        instancesFrom_of_late hopen' hperiod hfound hlate, List.take_take,
        Nat.min_eq_left h]
  | case5 wanted' idle k hopen' hperiod t ts hfound found kept =>
    rename_i hall ih
    rcases Nat.eq_zero_or_pos wanted with rfl | hpos
    · rw [instancesFrom_of_done (.inl rfl), List.take_zero]
    · have hlength : wanted - min wanted' (s.instancesIn k).length =
          wanted - (s.instancesIn k).length := by omega
      rw [instancesFrom_of_found (by omega) hperiod hfound hall,
        instancesFrom_of_found hopen' hperiod hfound hall, List.take_append,
        List.take_take, Nat.min_eq_left h, List.length_take, hlength, hfound]
      exact congrArg _ (ih (Nat.sub_le_sub_right h _))

/-! ## The series -/

/-- The second by which every instance has come. -/
def horizon (s : RuleSet) : Int := (lastPeriodDay + 366) * 86400 - s.zone.standard

theorem lt_horizon_of_mem_instancesIn {k : Nat} (hperiod : s.hasPeriod k = true) {t : Int}
    (h : t ∈ s.instancesIn k) : t < s.horizon := by
  obtain ⟨day, -, hday, hat⟩ := exists_day_of_mem_instancesIn h
  obtain ⟨seconds, rfl⟩ := exists_offset_of_instanceOn? hat
  have hfirst : (s.period k).1 ≤ lastPeriodDay :=
    of_decide_eq_true (Bool.and_eq_true_iff.1 hperiod).1
  have hlength := (s.repetition.frequency.period_length s.startDay (k * s.repetition.interval)).2
  have hoffset := YearlyZone.offset_eq s.zone seconds
  have htime : s.timeOfDay < 86400 := Int.emod_lt_of_pos _ (by decide)
  unfold horizon
  unfold period at hday hfirst
  omega

/-- A number that no rule has more instances than. -/
def reach (s : RuleSet) : Nat := (s.horizon - s.start).toNat

/-- All instances of a rule. -/
def series (s : RuleSet) : List Int := s.instances s.reach

theorem instances_eq (s : RuleSet) (wanted : Nat) : s.instances wanted =
    s.instancesFrom (s.repetition.count.elim wanted (min wanted)) patience 0 := by
  unfold instances
  cases s.repetition.count <;> rfl

/-- What is drawn if that many periods have one instance each. -/
theorem instances_eq_of_found {wanted : Nat} {ts : List Int} (hfinish : s.repetition.finish = none)
    (hdrawn : s.repetition.count.elim wanted (min wanted) = ts.length)
    (hfound : ∀ (k : Nat) (hk : k < ts.length), s.hasPeriod k = true ∧ s.instancesIn k = [ts[k]]) :
    s.instances wanted = ts := by
  have hone : ∀ j, 0 ≤ j → j < 0 + ts.length → s.instancesIn j = [ts.getD j 0] := by
    intro j _ hj
    rw [Nat.zero_add] at hj
    rw [(hfound j hj).2, List.getD_eq_getElem _ _ hj]
  have hperiods : (List.range' 0 ts.length).takeWhile s.hasPeriod = List.range' 0 ts.length := by
    rw [List.takeWhile_eq_self_iff, ← List.range_eq_range']
    intro k hk
    exact (hfound k (List.mem_range.1 hk)).1
  rw [instances_eq, hdrawn, instancesFrom_eq_map hfinish _ (by decide) 0 hone, hperiods,
    ← List.range_eq_range']
  refine List.ext_getElem (by simp) fun k hk hk' => ?_
  rw [List.getElem_map, List.getElem_range, List.getD_eq_getElem _ _ hk']

/-- What is admitted if that many periods have one instance each. -/
theorem admitted_eq_of_found {n : Nat} (ts : List Int) (hfinish : s.repetition.finish = none)
    (hdrawn : s.repetition.count.elim (n + s.excluded.length) (min (n + s.excluded.length)) =
      ts.length)
    (hfound : ∀ (k : Nat) (hk : k < ts.length), s.hasPeriod k = true ∧ s.instancesIn k = [ts[k]]) :
    s.admitted n = (ts.filter fun t => !s.excluded.contains t).take n := by
  rw [admitted, instances_eq_of_found hfinish hdrawn hfound]

theorem length_instances_le (s : RuleSet) (wanted : Nat) :
    (s.instances wanted).length ≤ s.repetition.count.elim wanted (min wanted) := by
  rw [instances_eq, instancesFrom_take (Nat.le_refl _)]
  exact List.length_take_le _ _

theorem instances_take {wanted wanted' : Nat} (h : wanted ≤ wanted') :
    s.instances wanted = (s.instances wanted').take wanted := by
  have hlength := s.length_instances_le wanted'
  rw [instances_eq] at hlength
  rw [instances_eq, instances_eq s wanted']
  cases hcount : s.repetition.count with
  | none => exact instancesFrom_take h
  | some count =>
    rw [hcount] at hlength
    simp only [Option.elim] at hlength ⊢
    rw [instancesFrom_take (show min wanted count ≤ min wanted' count by omega),
      List.take_eq_take_iff]
    omega

theorem pairwise_instances (hz : s.zone ∈ YearlyZone.table) (hi : 0 < s.repetition.interval)
    (wanted : Nat) : (s.instances wanted).Pairwise (· < ·) := by
  rw [instances_eq]
  exact pairwise_instancesFrom hz hi _ _ _

/-- No instance comes before the start or after the horizon. -/
theorem bounds_of_mem_instances {wanted : Nat} {t : Int} (h : t ∈ s.instances wanted) :
    s.start ≤ t ∧ t < s.horizon := by
  rw [instances_eq] at h
  obtain ⟨k, -, hperiod, hk⟩ := exists_period_of_mem_instancesFrom h
  exact ⟨start_le_of_mem_instancesIn hk, lt_horizon_of_mem_instancesIn hperiod hk⟩

theorem length_instances_le_reach (hz : s.zone ∈ YearlyZone.table) (hi : 0 < s.repetition.interval)
    (wanted : Nat) : (s.instances wanted).length ≤ s.reach := by
  have hnodup : (s.instances wanted).Nodup := (pairwise_instances hz hi wanted).imp Int.ne_of_lt
  have hmem : (s.instances wanted).toFinset ⊆ Finset.Ico s.start s.horizon := by
    intro t ht
    rw [List.mem_toFinset] at ht
    exact Finset.mem_Ico.2 (bounds_of_mem_instances ht)
  rw [← List.toFinset_card_of_nodup hnodup, reach, ← Int.card_Ico]
  exact Finset.card_le_card hmem

/-- However many instances are asked for, they are the first of the series. -/
theorem instances_eq_take_series (hz : s.zone ∈ YearlyZone.table) (hi : 0 < s.repetition.interval)
    (wanted : Nat) : s.instances wanted = s.series.take wanted := by
  rcases Nat.le_total wanted s.reach with h | h
  · exact instances_take h
  · have hseries : s.instances wanted = s.series := by
      rw [series, instances_take h, List.take_of_length_le (length_instances_le_reach hz hi wanted)]
    have hlength := Nat.le_trans (length_instances_le_reach hz hi wanted) h
    rw [hseries] at hlength
    rw [hseries, List.take_of_length_le hlength]

end RuleSet
end CalendarRules
