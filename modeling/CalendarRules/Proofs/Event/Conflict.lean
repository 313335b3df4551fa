import CalendarRules.Proofs.Time.Instant
import CalendarRules.Validation.Rules

/-!
# What a conflict is

An event goes on from its start up to its finish, the finish not included, and two events meet when
both go on at some instant (`Event.Meets`).  The search for conflicts compares each start with the
other finish.  For events that start before they finish this is the same
(`Event.overlaps_eq_true_iff`): each start then lies before both finishes, so that an instant at
which both go on is the later start.

How long they meet is counted by nanoseconds, each of which has one instant; those in a leap second
are left out (`Event.moments`).  The minutes of a conflict are the whole minutes of the moments that
two events share (`Event.overlapMinutes_eq`), as long as no event begins or ends in a leap second.

Both are symmetric, and so are conflicts.  The rule that asks for a conflict and the rule that
forbids it look at the same list, and exactly one of them is violated.
-/

namespace CalendarRules

open Instant (lt_iff le_iff)

namespace Event

variable {a b : Event}

/-! ## Events that meet -/

/-- The event goes on at the instant. -/
def IsOn (e : Event) (t : Instant) : Prop := e.start.le t = true ∧ t.lt e.finish = true

/-- Both events go on at some instant. -/
def Meets (a b : Event) : Prop := ∃ t : Instant, a.IsOn t ∧ b.IsOn t

theorem meets_comm : a.Meets b ↔ b.Meets a := exists_congr fun _ => and_comm

theorem isOn_and_isOn_iff {t : Instant} : a.IsOn t ∧ b.IsOn t ↔
    (a.start.later b.start).le t = true ∧ t.lt (a.finish.earlier b.finish) = true := by
  rw [Instant.later_le_iff, Instant.lt_earlier_iff]
  exact and_and_and_comm

/-- Two events meet if the later start comes before the earlier finish. -/
theorem meets_iff : a.Meets b ↔
    (a.start.later b.start).lt (a.finish.earlier b.finish) = true := by
  rw [Meets]
  simp only [isOn_and_isOn_iff, le_iff, lt_iff]
  constructor
  · rintro ⟨t, hstart, hfinish⟩
    exact hstart.trans_lt hfinish
  · intro h
    exact ⟨a.start.later b.start, le_rfl, h⟩

instance (a b : Event) : Decidable (a.Meets b) := decidable_of_iff _ meets_iff.symm

/-- An event that starts before it finishes, neither in a leap second. -/
structure IsProper (e : Event) : Prop where
  start_lt_finish : e.start.lt e.finish = true
  start_isLeap : e.start.isLeap = false
  finish_isLeap : e.finish.isLeap = false

theorem overlaps_eq_true_iff (ha : a.IsProper) (hb : b.IsProper) :
    a.overlaps b = true ↔ a.Meets b := by
  have hproper := lt_iff.1 ha.start_lt_finish
  have hproper' := lt_iff.1 hb.start_lt_finish
  rw [overlaps, Bool.and_eq_true, meets_iff, lt_iff, lt_iff, lt_iff, Instant.rank_later,
    Instant.rank_earlier, max_lt_iff, lt_min_iff, lt_min_iff]
  constructor
  · rintro ⟨hab, hba⟩
    exact ⟨⟨hproper, hab⟩, hba, hproper'⟩
  · rintro ⟨⟨-, hab⟩, hba, -⟩
    exact ⟨hab, hba⟩

/-! ## Moments -/

/-- The instants at which an event goes on, leap seconds left out: one in each nanosecond. -/
def moments (e : Event) : Set Instant := {t | t.isLeap = false ∧ e.IsOn t}

theorem moments_eq (e : Event) : e.moments = Instant.between e.start e.finish := rfl

/-- What two events share runs from the later start to the earlier finish. -/
theorem moments_inter_moments (a b : Event) : a.moments ∩ b.moments =
    Instant.between (a.start.later b.start) (a.finish.earlier b.finish) := by
  ext t
  rw [Set.mem_inter_iff, moments, moments, Set.mem_ofPred_eq, Set.mem_ofPred_eq,
    ← and_and_left, isOn_and_isOn_iff, Instant.between, Set.mem_ofPred_eq]

/-- The whole minutes of the moments that two events share. -/
noncomputable def sharedMinutes (a b : Event) : Nat :=
  (a.moments ∩ b.moments).ncard / 60000000000

theorem sharedMinutes_comm (a b : Event) : a.sharedMinutes b = b.sharedMinutes a := by
  rw [sharedMinutes, sharedMinutes, Set.inter_comm]

/-- The whole minutes from one instant to a later one count the instants between them. -/
theorem wholeMinutes_minus {s t : Instant} (hs : s.isLeap = false) (ht : t.isLeap = false)
    (h : s.lt t = true) :
    Instant.wholeMinutes (t.minus s) = ((Instant.between s t).ncard / 60000000000 : Nat) := by
  have hlt := (Instant.nanos_lt_nanos_iff hs ht).2 h
  rw [Instant.ncard_between hs ht, Instant.wholeMinutes, Instant.minus_eq ht hs,
    Int.tdiv_eq_ediv_of_nonneg (sub_nonneg.2 hlt.le)]
  omega

theorem sharedMinutes_le_left (h : a.IsProper) (b : Event) :
    a.sharedMinutes b ≤ Instant.wholeMinutes a.length := by
  rw [length, wholeMinutes_minus h.start_isLeap h.finish_isLeap h.start_lt_finish, ← moments_eq,
    Int.ofNat_le]
  exact Nat.div_le_div_right (Set.ncard_le_ncard Set.inter_subset_left
    (Instant.finite_between h.start_isLeap h.finish_isLeap))

theorem sharedMinutes_le_right (a : Event) (h : b.IsProper) :
    a.sharedMinutes b ≤ Instant.wholeMinutes b.length := by
  rw [sharedMinutes_comm]
  exact sharedMinutes_le_left h a

theorem overlapMinutes_eq (ha : a.IsProper) (hb : b.IsProper) (h : a.Meets b) :
    a.overlapMinutes b = a.sharedMinutes b := by
  rw [overlapMinutes, wholeMinutes_minus (Instant.isLeap_later ha.start_isLeap hb.start_isLeap)
    (Instant.isLeap_earlier ha.finish_isLeap hb.finish_isLeap) (meets_iff.1 h), sharedMinutes,
    moments_inter_moments]

/-! ## Conflicts -/

/-- The events of a list that an event meets, versions of itself left out. -/
def meeting (e : Event) (others : List Event) : List Event :=
  others.filter fun other => other.id ≠ e.id ∧ e.Meets other

theorem mem_conflicts_iff (ha : a.IsProper) (hb : b.IsProper) {others : List Event} {minutes : Int} :
    ⟨b, minutes⟩ ∈ a.conflicts others ↔
      b ∈ others ∧ b.id ≠ a.id ∧ a.Meets b ∧ minutes = a.sharedMinutes b := by
  rw [conflicts, List.mem_map]
  constructor
  · rintro ⟨_, hmem, heq⟩
    cases heq
    rw [List.mem_filter, Bool.and_eq_true, bne_iff_ne, overlaps_eq_true_iff ha hb] at hmem
    obtain ⟨hmem, hid, hmeets⟩ := hmem
    exact ⟨hmem, hid, hmeets, overlapMinutes_eq ha hb hmeets⟩
  · rintro ⟨hmem, hid, hmeets, rfl⟩
    refine ⟨b, ?_, congrArg (Conflict.mk b) (overlapMinutes_eq ha hb hmeets)⟩
    rw [List.mem_filter, Bool.and_eq_true, bne_iff_ne, overlaps_eq_true_iff ha hb]
    exact ⟨hmem, hid, hmeets⟩

/-- Conflicts are mutual: two events that are each in the list of the other are in conflict with
each other or not at all, and for as long. -/
theorem mem_conflicts_comm (ha : a.IsProper) (hb : b.IsProper) {others others' : List Event}
    (hmem : b ∈ others) (hmem' : a ∈ others') {minutes : Int} :
    ⟨b, minutes⟩ ∈ a.conflicts others ↔ ⟨a, minutes⟩ ∈ b.conflicts others' := by
  rw [mem_conflicts_iff ha hb, mem_conflicts_iff hb ha, meets_comm, sharedMinutes_comm, ne_comm]
  exact and_congr_left' (iff_of_true hmem hmem')

section Others

variable {scope : Scope}

theorem conflicts_eq (ha : a.IsProper) {others : List Event} (ho : ∀ b ∈ others, b.IsProper) :
    a.conflicts others = (a.meeting others).map fun b => ⟨b, a.sharedMinutes b⟩ := by
  have hfilter : (others.filter fun b => b.id != a.id && a.overlaps b) = a.meeting others := by
    refine List.filter_congr fun b hb => ?_
    rw [Bool.eq_iff_iff, Bool.and_eq_true, bne_iff_ne, overlaps_eq_true_iff ha (ho b hb),
      decide_eq_true_iff]
  rw [conflicts, hfilter]
  refine List.map_congr_left fun b hb => ?_
  obtain ⟨hb, hmeets⟩ := List.mem_filter.1 hb
  rw [overlapMinutes_eq ha (ho b hb) (of_decide_eq_true hmeets).2]

theorem violations_conflict (ha : a.IsProper) (ho : ∀ b ∈ scope.others, b.IsProper) :
    Rule.conflict.violations a scope = if (a.meeting scope.others).isEmpty then
      ["Event must conflict with an existing event"] else [] := by
  rw [Rule.violations, conflicts_eq ha ho, List.isEmpty_map]

theorem violations_noConflict (ha : a.IsProper) (ho : ∀ b ∈ scope.others, b.IsProper) :
    Rule.noConflict.violations a scope = if (a.meeting scope.others).isEmpty then [] else
      ["Event conflicts with existing event(s): " ++
        ", ".intercalate ((a.meeting scope.others).map Event.id)] := by
  rw [Rule.violations, Rule.noConflictViolations, conflicts_eq ha ho]
  cases a.meeting scope.others with
  | nil => rfl
  | cons b bs => simp [Function.comp_def]

/-- The search for conflicts finds the events that meet the given one and no others, each in its
place; how long they meet is the same seen from either; and the rules about conflicts tell by it. -/
theorem conflicts_eq_meeting (ha : a.IsProper) (ho : ∀ b ∈ scope.others, b.IsProper) :
    (a.conflicts scope.others =
      (a.meeting scope.others).map fun b => ⟨b, a.sharedMinutes b⟩) ∧
    (∀ c ∈ a.conflicts scope.others, 0 ≤ c.minutes ∧
      c.minutes ≤ Instant.wholeMinutes a.length ∧
      c.minutes ≤ Instant.wholeMinutes c.other.length) ∧
    (∀ b ∈ scope.others, ∀ others, a ∈ others → ∀ minutes,
      ⟨b, minutes⟩ ∈ a.conflicts scope.others ↔ ⟨a, minutes⟩ ∈ b.conflicts others) ∧
    (Rule.conflict.violations a scope = [] ↔ Rule.noConflict.violations a scope ≠ []) ∧
    Rule.noConflict.violations a scope = if (a.meeting scope.others).isEmpty then [] else
      ["Event conflicts with existing event(s): " ++
        ", ".intercalate ((a.meeting scope.others).map Event.id)] := by
  refine ⟨conflicts_eq ha ho, ?_, fun b hb others hmem minutes =>
    mem_conflicts_comm ha (ho b hb) hb hmem, ?_, violations_noConflict ha ho⟩
  · rintro ⟨b, minutes⟩ hc
    rw [conflicts_eq ha ho] at hc
    obtain ⟨b, hb, heq⟩ := List.mem_map.1 hc
    cases heq
    exact ⟨Int.natCast_nonneg _, sharedMinutes_le_left ha b,
      sharedMinutes_le_right a (ho b (List.mem_of_mem_filter hb))⟩
  · rw [violations_conflict ha ho, violations_noConflict ha ho]
    cases (a.meeting scope.others).isEmpty <;> simp

/-- An event on one day, from one second of it to another. -/
def onDay (id : String) (start finish : Fin 86400) : Event where
  id := id
  type := "visit"
  start := ⟨20000, start, 0, by decide, by decide, start.isLt, by decide, nofun⟩
  finish := ⟨20000, finish, 0, by decide, by decide, finish.isLt, by decide, nofun⟩

/-- What else there is on the day of a visit from ten to eleven: a call within it, a break that
starts when it ends, a former version of it, and a lunch that starts half a minute early. -/
def visitDay : Scope where
  clock := (onDay "" 0 0).start
  others := [onDay "call" 36900 38730, onDay "break" 39600 40000, onDay "visit" 36000 38000,
    onDay "lunch" 39570 43200]

theorem conflicts_eq_meeting_visit :
    (onDay "visit" 36000 39600).IsProper ∧ (∀ b ∈ visitDay.others, b.IsProper) ∧
      (((onDay "visit" 36000 39600).meeting visitDay.others).map fun b =>
        Conflict.mk b ((onDay "visit" 36000 39600).sharedMinutes b)) =
        [⟨onDay "call" 36900 38730, 30⟩, ⟨onDay "lunch" 39570 43200, 0⟩] ∧
      Rule.conflict.violations (onDay "visit" 36000 39600) visitDay = [] ∧
      Rule.noConflict.violations (onDay "visit" 36000 39600) visitDay =
        ["Event conflicts with existing event(s): call, lunch"] := by
  have ha : (onDay "visit" 36000 39600).IsProper := ⟨by decide, by decide, by decide⟩
  have ho : ∀ b ∈ visitDay.others, b.IsProper := by
    simp only [visitDay, List.forall_mem_cons]
    exact ⟨⟨by decide, by decide, by decide⟩, ⟨by decide, by decide, by decide⟩,
      ⟨by decide, by decide, by decide⟩, ⟨by decide, by decide, by decide⟩, List.forall_mem_nil _⟩
  obtain ⟨hconflicts, -, -, hrules, hviolations⟩ := conflicts_eq_meeting ha ho
  have hmeeting : (onDay "visit" 36000 39600).meeting visitDay.others =
      [onDay "call" 36900 38730, onDay "lunch" 39570 43200] := rfl
  have hcall : (onDay "visit" 36000 39600).overlapMinutes (onDay "call" 36900 38730) = 30 := by
    decide
  have hlunch : (onDay "visit" 36000 39600).overlapMinutes (onDay "lunch" 39570 43200) = 0 := by
    decide
  have hfound : (onDay "visit" 36000 39600).conflicts visitDay.others =
      [⟨onDay "call" 36900 38730, 30⟩, ⟨onDay "lunch" 39570 43200, 0⟩] := by
    rw [← hcall, ← hlunch]
    rfl
  have hmessage : Rule.noConflict.violations (onDay "visit" 36000 39600) visitDay =
      ["Event conflicts with existing event(s): call, lunch"] := by
    rw [hviolations, hmeeting]
    rfl
  exact ⟨ha, ho, hconflicts.symm.trans hfound, hrules.2 (by simp [hmessage]), hmessage⟩

end Others

end Event
end CalendarRules
