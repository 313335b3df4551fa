import CalendarRules.Proofs.Binary64.Integer
import CalendarRules.Proofs.Time.Instant
import CalendarRules.Proofs.Validation.Duration
import CalendarRules.Proofs.Validation.Limits

/-!
# Looser limits

A limit from below is loosened by lowering its literal, one from above by raising it, and either by
taking it away (`Constraint.Loosening`).  Where no two constraints share a name, the limit that is
then found under a name was there before and is no tighter now
(`Constraint.Loosening.exists_named?`).

On the way from a literal to the number that the time of an event is held against, the literal is
turned into minutes, into days or into milliseconds, rounded at each step and perhaps sent to an
infinity.  All these steps keep the order of doubles.  So an event that has kept a limit keeps the
looser one, and an event that has given notice enough has given it for an earlier clock, as it has
not given too much for a later one (`Event.silent_of_looser`).
-/

namespace CalendarRules

/-! ## Bounds in order -/

namespace Binary64

/-- The new bound, if there is one, is in a relation to an old one. -/
def Follows (r : Binary64 → Binary64 → Prop) (old new : Option Binary64) : Prop :=
  ∀ x ∈ new, ∃ y ∈ old, r x y

/-- A bound from below asks for no more than the old one, if it asks for anything. -/
def NoHigher : Option Binary64 → Option Binary64 → Prop := Follows fun x y => x.toInt ≤ y.toInt

/-- A bound from above allows no less than the old one, if it forbids anything. -/
def NoLower : Option Binary64 → Option Binary64 → Prop := Follows fun x y => y.toInt ≤ x.toInt

namespace Follows

variable {r : Binary64 → Binary64 → Prop} {old new : Option Binary64}

theorem imp {P Q : Binary64 → Prop} (h : Follows r old new)
    (hr : ∀ ⦃x y : Binary64⦄, r x y → P y → Q x) (hold : ∀ y ∈ old, P y) : ∀ x ∈ new, Q x := by
  intro x hx
  obtain ⟨y, hy, hxy⟩ := h x hx
  exact hr hxy (hold y hy)

theorem eq_none (h : Follows r none new) : new = none :=
  Option.eq_none_iff_forall_not_mem.2 fun x hx => by
    obtain ⟨y, hy, -⟩ := h x hx
    cases hy

end Follows

end Binary64

open Binary64

/-! ## Literals in order -/

theorem Duration.toInt_minutesOf_mono {x y : Finite64} (unit : String) (h : x.toInt ≤ y.toInt) :
    (minutesOf x unit).toInt ≤ (minutesOf y unit).toInt :=
  toInt_mulNat_mono (x := .finite x) (y := .finite y) _ h

namespace ConstraintValue

/-- One literal is at most another in the same unit; bare numbers have one unit among them. -/
inductive AtMost : ConstraintValue → ConstraintValue → Prop
  | duration {x y : Finite64} (unit : String) (h : x.toInt ≤ y.toInt) :
      AtMost (.duration ⟨x, unit⟩) (.duration ⟨y, unit⟩)
  | number {m n : Number} (h : m.units ≤ n.units) :
      AtMost (.literal (.number m)) (.literal (.number n))

/-- A number that is read off literals grows with them. -/
def Grows (f : ConstraintValue → Option Binary64) : Prop :=
  ∀ ⦃v w : ConstraintValue⦄, v.AtMost w → ∃ x y, f v = some x ∧ f w = some y ∧ x.toInt ≤ y.toInt

theorem grows_minutes? : Grows minutes? := by
  rintro _ _ (@⟨x, y, unit, h⟩ | @⟨m, n, h⟩)
  · exact ⟨_, _, rfl, rfl, Duration.toInt_minutesOf_mono unit h⟩
  · exact ⟨.finite m.toDouble, .finite n.toDouble, rfl, rfl, Number.toInt_toDouble_mono h⟩

theorem grows_days? : Grows days? := by
  rintro _ _ (@⟨x, y, unit, h⟩ | @⟨m, n, h⟩)
  · have hminutes := Duration.toInt_minutesOf_mono unit h
    exact ⟨_, _, rfl, rfl, toInt_divNat_mono (by decide) hminutes⟩
  · exact ⟨.finite m.toDouble, .finite n.toDouble, rfl, rfl, Number.toInt_toDouble_mono h⟩

end ConstraintValue

namespace Constraint

/-- The names of limits from below. -/
def leastNames : List String := ["minDuration", "minAdvanceTime"]

/-- The names of limits from above. -/
def greatestNames : List String := ["maxDuration", "maxAdvanceTime", "maxCrossDayDuration"]

/-- Under a name, the second value is no tighter than the first. -/
inductive NoTighter (name : String) : ConstraintValue → ConstraintValue → Prop
  | same (v : ConstraintValue) : NoTighter name v v
  | lower {v w : ConstraintValue} (hname : name ∈ leastNames) (h : w.AtMost v) : NoTighter name v w
  | raise {v w : ConstraintValue} (hname : name ∈ greatestNames) (h : v.AtMost w) :
      NoTighter name v w

/-- From a list of constraints to one with looser limits: any number of limits from below are
lowered, of limits from above raised, and of either kind taken away. -/
inductive Loosening : List Constraint → List Constraint → Prop
  | nil : Loosening [] []
  | set {v w : ConstraintValue} {constraints others : List Constraint} (name : String)
      (h : NoTighter name v w) (rest : Loosening constraints others) :
      Loosening (⟨name, v⟩ :: constraints) (⟨name, w⟩ :: others)
  | drop {constraints others : List Constraint} (c : Constraint)
      (hname : c.name ∈ leastNames ++ greatestNames) (rest : Loosening constraints others) :
      Loosening (c :: constraints) others

variable {name : String} {v w : ConstraintValue} {constraints others : List Constraint}

namespace Loosening

/-- No constraint comes with a new name. -/
theorem exists_name_eq (h : Loosening constraints others) :
    ∀ c' ∈ others, ∃ c ∈ constraints, c.name = c'.name := by
  induction h with
  | nil => exact fun c' hc' => absurd hc' List.not_mem_nil
  | set name _ _ ih =>
    intro c' hc'
    rcases List.mem_cons.1 hc' with rfl | hc'
    · exact ⟨_, .head _, rfl⟩
    · obtain ⟨c, hc, hsame⟩ := ih c' hc'
      exact ⟨c, .tail _ hc, hsame⟩
  | drop _ _ _ ih =>
    intro c' hc'
    obtain ⟨c, hc, hsame⟩ := ih c' hc'
    exact ⟨c, .tail _ hc, hsame⟩

/-- What is found under a name was there before, and is no tighter now. -/
theorem exists_named? (h : Loosening constraints others)
    (hn : (constraints.map Constraint.name).Nodup) (hw : named? name others = some w) :
    ∃ v, named? name constraints = some v ∧ NoTighter name v w := by
  induction h with
  | nil => cases hw
  | @set v w' _ _ name' hset _ ih =>
    rw [List.map_cons, List.nodup_cons] at hn
    by_cases hname : name' = name
    · subst hname
      rw [named?_cons_self] at hw ⊢
      obtain rfl := Option.some.inj hw
      exact ⟨v, rfl, hset⟩
    · rw [named?_cons_of_ne hname] at hw ⊢
      exact ih hn.2 hw
  | drop c _ hrest ih =>
    rw [List.map_cons, List.nodup_cons] at hn
    have hname : c.name ≠ name := by
      -- The name stands for a constraint that is left, which had it before.
      rintro rfl
      obtain ⟨c', hmem, hsame, -⟩ := exists_of_named? hw
      obtain ⟨d, hd, hdname⟩ := hrest.exists_name_eq c' hmem
      exact hn.1 (List.mem_map.2 ⟨d, hd, hdname.trans hsame⟩)
    rw [named?_cons_of_ne hname]
    exact ih hn.2 hw

section

variable {f : ConstraintValue → Option Binary64} (h : Loosening constraints others)
  (hn : (constraints.map Constraint.name).Nodup)
include h hn

/-- What is read off the value under a name follows what was read off it before. -/
theorem follows_bind {r : Binary64 → Binary64 → Prop}
    (hr : ∀ v w x, NoTighter name v w → f w = some x → ∃ y, f v = some y ∧ r x y) :
    Follows r ((named? name constraints).bind f) ((named? name others).bind f) := by
  intro x hx
  obtain ⟨w, hw, hwx⟩ := Option.bind_eq_some_iff.1 hx
  obtain ⟨v, hv, hlooser⟩ := h.exists_named? hn hw
  obtain ⟨y, hy, hxy⟩ := hr v w x hlooser hwx
  exact ⟨y, Option.bind_eq_some_iff.2 ⟨v, hv, hy⟩, hxy⟩

theorem noHigher_bind (hf : ConstraintValue.Grows f) (hname : name ∈ leastNames) :
    NoHigher ((named? name constraints).bind f) ((named? name others).bind f) := by
  have hapart : name ∉ greatestNames := by
    revert name
    decide
  refine h.follows_bind hn fun v w x hlooser hx => ?_
  cases hlooser with
  | same => exact ⟨x, hx, Int.le_refl _⟩
  | lower _ hle =>
    obtain ⟨x', y, hx', hy, hle⟩ := hf hle
    obtain rfl := Option.some.inj (hx'.symm.trans hx)
    exact ⟨y, hy, hle⟩
  | raise hgreatest => exact absurd hgreatest hapart

theorem noLower_bind (hf : ConstraintValue.Grows f) (hname : name ∈ greatestNames) :
    NoLower ((named? name constraints).bind f) ((named? name others).bind f) := by
  have hapart : name ∉ leastNames := by
    revert name
    decide
  refine h.follows_bind hn fun v w x hlooser hx => ?_
  cases hlooser with
  | same => exact ⟨x, hx, Int.le_refl _⟩
  | lower hleast => exact absurd hleast hapart
  | raise _ hle =>
    obtain ⟨y, x', hy, hx', hle⟩ := hf hle
    obtain rfl := Option.some.inj (hx'.symm.trans hx)
    exact ⟨y, hy, hle⟩

end

end Loosening
end Constraint

namespace Event

variable {e : Event} {scope : Scope} {constraints others : List Constraint}

/-! ## What the checks demand -/

/-- The notice that an event gives, in whole milliseconds. -/
def notice (e : Event) (now : Instant) : Binary64 :=
  .ofInt (Instant.wholeMillis (e.start.minus now))

theorem leastNotice_eq_nil_iff {min : Option Binary64} {now : Instant} :
    e.noticeViolations min none (some now) = [] ↔
      ∀ m ∈ min, (millisOfMinutes m).toInt ≤ (e.notice now).toInt := by
  cases min with
  | none => exact iff_of_true rfl fun m hm => nomatch hm
  | some m =>
    rw [noticeViolations, List.append_nil, complaint_eq_nil_iff, lt_eq_false_iff]
    simp only [Option.mem_some_iff, forall_eq', notice]

theorem greatestNotice_eq_nil_iff {max : Option Binary64} {now : Instant} :
    e.noticeViolations none max (some now) = [] ↔
      ∀ m ∈ max, (e.notice now).toInt ≤ (millisOfMinutes m).toInt := by
  cases max with
  | none => exact iff_of_true rfl fun m hm => nomatch hm
  | some m =>
    rw [noticeViolations, List.nil_append, complaint_eq_nil_iff, lt_eq_false_iff]
    simp only [Option.mem_some_iff, forall_eq', notice]

theorem spanViolations_eq_nil_iff {max : Option Binary64} :
    e.spanViolations max = [] ↔
      ∀ m ∈ max, (Binary64.ofInt (e.finish.day - e.start.day)).toInt ≤ m.toInt := by
  cases max with
  | none => exact iff_of_true rfl fun m hm => nomatch hm
  | some m =>
    rw [spanViolations, complaint_eq_nil_iff, lt_eq_false_iff]
    simp only [Option.mem_some_iff, forall_eq']

/-! ## What an event keeps -/

section

variable {min max min' max' : Option Binary64} {now : Option Instant}

theorem durationViolations_eq_nil_of_looser (hmin : NoHigher min min') (hmax : NoLower max max')
    (h : e.durationViolations min max = []) : e.durationViolations min' max' = [] := by
  rw [durationViolations_eq_nil_iff] at h ⊢
  rcases h with ⟨rfl, rfl⟩ | ⟨x, hx, hleast, hgreatest⟩
  · exact .inl ⟨hmin.eq_none, hmax.eq_none⟩
  · refine .inr ⟨x, hx, hmin.imp (fun _ _ => Int.le_trans) hleast, ?_⟩
    exact hmax.imp (fun _ _ hle h => Int.le_trans h hle) hgreatest

theorem toInt_millisOfMinutes_mono {x y : Binary64} (h : x.toInt ≤ y.toInt) :
    (millisOfMinutes x).toInt ≤ (millisOfMinutes y).toInt :=
  toInt_round_mono (toInt_mulNat_mono 60000 h)

theorem leastNotice_eq_nil_of_looser (hmin : NoHigher min min')
    (h : e.noticeViolations min none now = []) : e.noticeViolations min' none now = [] := by
  cases now with
  | none => rfl
  | some now =>
    rw [leastNotice_eq_nil_iff] at h ⊢
    exact hmin.imp (fun _ _ hle => Int.le_trans (toInt_millisOfMinutes_mono hle)) h

theorem greatestNotice_eq_nil_of_looser (hmax : NoLower max max')
    (h : e.noticeViolations none max now = []) : e.noticeViolations none max' now = [] := by
  cases now with
  | none => rfl
  | some now =>
    rw [greatestNotice_eq_nil_iff] at h ⊢
    exact hmax.imp (fun _ _ hle h => Int.le_trans h (toInt_millisOfMinutes_mono hle)) h

theorem spanViolations_eq_nil_of_looser (hmax : NoLower max max')
    (h : e.spanViolations max = []) : e.spanViolations max' = [] := by
  rw [spanViolations_eq_nil_iff] at h ⊢
  exact hmax.imp (fun _ _ hle h => Int.le_trans h hle) h

end

/-- Outside leap seconds, an earlier clock gives no less notice. -/
theorem notice_le_notice {now earlier : Instant} (hstart : e.start.isLeap = false)
    (hnow : now.isLeap = false) (hearlier : earlier.isLeap = false) (h : earlier.le now = true) :
    (e.notice now).toInt ≤ (e.notice earlier).toInt := by
  have hle : e.start.minus now ≤ e.start.minus earlier := by
    rw [Instant.minus_eq hstart hnow, Instant.minus_eq hstart hearlier]
    have := (Instant.nanos_le_nanos_iff hearlier hnow).2 h
    omega
  exact toInt_ofInt_mono (Int.tdiv_le_tdiv (by decide) hle)

theorem silent_of_loosening [TimeZones] (hn : (constraints.map Constraint.name).Nodup)
    (h : Constraint.Loosening constraints others) :
    ∀ t ∈ [Topic.duration, .leastNotice, .greatestNotice, .span],
      e.Silent constraints scope t → e.Silent others scope t := by
  have hminutes := ConstraintValue.grows_minutes?
  have hdays := ConstraintValue.grows_days?
  simp only [List.forall_mem_cons, silent_iff]
  refine ⟨?_, ?_, ?_, ?_, fun t ht => absurd ht List.not_mem_nil⟩
  · exact durationViolations_eq_nil_of_looser (h.noHigher_bind hn hminutes (by decide))
      (h.noLower_bind hn hminutes (by decide))
  · exact leastNotice_eq_nil_of_looser (h.noHigher_bind hn hminutes (by decide))
  · exact greatestNotice_eq_nil_of_looser (h.noLower_bind hn hminutes (by decide))
  · exact spanViolations_eq_nil_of_looser (h.noLower_bind hn hdays (by decide))

/-- If nothing is said about the duration of an event, about too little or too much notice, or about
its span, then nothing is said about it with looser limits.  Outside leap seconds, an earlier clock
adds nothing about too little notice, and a later one nothing about too much. -/
theorem silent_of_looser [TimeZones] (e : Event) (scope : Scope) :
    (∀ constraints others : List Constraint, (constraints.map Constraint.name).Nodup →
      Constraint.Loosening constraints others →
        ∀ t ∈ [Topic.duration, .leastNotice, .greatestNotice, .span],
          e.Silent constraints scope t → e.Silent others scope t) ∧
    (∀ (constraints : List Constraint) (now earlier : Instant), e.start.isLeap = false →
      now.isLeap = false → earlier.isLeap = false → earlier.le now = true →
        (e.Silent constraints { scope with now := some now } .leastNotice →
          e.Silent constraints { scope with now := some earlier } .leastNotice) ∧
        (e.Silent constraints { scope with now := some earlier } .greatestNotice →
          e.Silent constraints { scope with now := some now } .greatestNotice)) := by
  refine ⟨fun _ _ hn h => silent_of_loosening hn h,
    fun constraints now earlier hstart hnow hearlier h => ?_⟩
  have hnotice := notice_le_notice hstart hnow hearlier h
  simp only [silent_iff, violationsOn, leastNotice_eq_nil_iff, greatestNotice_eq_nil_iff]
  constructor
  · exact fun hleast m hm => Int.le_trans (hleast m hm) hnotice
  · exact fun hgreatest m hm => Int.le_trans hnotice (hgreatest m hm)

/-- What a cinema asks of a film. -/
def houseLimits : List Constraint :=
  [⟨"minDuration", .literal (.number (.int 90 (by decide)))⟩,
    ⟨"maxDuration", .duration ⟨.ofInt 3 (by decide), "weeks"⟩⟩,
    ⟨"minAdvanceTime", .duration ⟨.one, "days"⟩⟩,
    ⟨"maxCrossDayDuration", .duration ⟨.zero, "hours"⟩⟩,
    ⟨"maxAdvanceTime", .duration ⟨.one, "weeks"⟩⟩]

/-- The same with shorter films allowed, longer ones up to a number of weeks that has no double in
minutes, longer nights and shorter notice. -/
def festivalLimits : List Constraint :=
  [⟨"minDuration", .literal (.number (.float (.ofInt 89 (by decide))))⟩,
    ⟨"maxDuration", .duration ⟨largest, "weeks"⟩⟩,
    ⟨"maxCrossDayDuration", .duration ⟨.one, "hours"⟩⟩,
    ⟨"maxAdvanceTime", .duration ⟨.one, "weeks"⟩⟩]

/-- A film of two hours, announced two days before, keeps the looser limits.  By the stricter ones it
could have been announced three days before or one day before, but not on the day and not ten days
before. -/
theorem silent_of_looser_premiere :
    let announced (day : Int) (h : IsInstant day 36000 0) : Scope :=
      { clock := premiere.start, now := some ⟨day, 36000, 0, h⟩ }
    (∀ t ∈ [Topic.duration, .leastNotice, .greatestNotice, .span],
      premiere.Silent festivalLimits (announced 20453 (by decide)) t) ∧
    premiere.Silent houseLimits (announced 20452 (by decide)) .leastNotice ∧
    premiere.Silent houseLimits (announced 20454 (by decide)) .greatestNotice ∧
    ¬ premiere.Silent houseLimits (announced 20455 (by decide)) .leastNotice ∧
    ¬ premiere.Silent houseLimits (announced 20445 (by decide)) .greatestNotice := by
  intro announced
  have hkept : ∀ t ∈ [Topic.duration, .leastNotice, .greatestNotice, .span],
      premiere.Silent houseLimits (announced 20453 (by decide)) t := by
    simp only [List.forall_mem_cons, silent_iff]
    refine ⟨by decide +kernel, by decide +kernel, by decide +kernel, by decide +kernel, ?_⟩
    exact fun t ht => absurd ht List.not_mem_nil
  have hloosening : Constraint.Loosening houseLimits festivalLimits :=
    .set _ (.lower (by decide) (.number (by decide +kernel))) <|
    .set _ (.raise (by decide) (.duration _ (by decide +kernel))) <|
    .drop _ (by decide) <|
    .set _ (.raise (by decide) (.duration _ (by decide +kernel))) <| .set _ (.same _) .nil
  obtain ⟨hlimits, hclock⟩ := silent_of_looser premiere (announced 20453 (by decide))
  refine ⟨fun t ht => hlimits _ _ (by decide) hloosening t ht (hkept t ht), ?_, ?_, ?_, ?_⟩
  · exact (hclock houseLimits ⟨20453, 36000, 0, by decide⟩ ⟨20452, 36000, 0, by decide⟩
      rfl rfl rfl (by decide)).1 (hkept .leastNotice (by decide))
  · exact (hclock houseLimits ⟨20454, 36000, 0, by decide⟩ ⟨20453, 36000, 0, by decide⟩
      rfl rfl rfl (by decide)).2 (hkept .greatestNotice (by decide))
  · rw [silent_iff]
    decide +kernel
  · rw [silent_iff]
    decide +kernel

end Event
end CalendarRules
