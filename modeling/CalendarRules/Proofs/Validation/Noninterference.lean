import CalendarRules.Proofs.Validation.Dependence
import CalendarRules.Proofs.Validation.Limits

/-!
# What a scope can change

A scope holds the acting user, the other events of the calendar and the present moment.  Each of
them has one way into the answers of a declaration: the user through paths with the head `user`, the
calendar through rules about conflicts, and the moment through the path `now` and the limits on
advance notice.  Where that way is closed, the answers are the same whatever the scope holds there
(`Declaration.noninterference`).
-/

namespace CalendarRules

namespace Event

variable {e : Event} {scope : Scope}

/-! ## The user -/

theorem field_of_head_ne_user {head : String} (h : head ≠ "user") (rest : List String) :
    e.field scope ⟨head :: rest⟩ =
      if head = "startTime" then e.instantField e.start rest
      else if head = "endTime" then e.instantField e.finish rest
      else e.ownField scope (head :: rest) := by
  unfold field
  simp only
  split
  next => exact absurd rfl h
  next => rfl
  next => rfl
  next hstart hfinish _ => rw [if_neg hstart, if_neg hfinish]

theorem field_eq_of_user {path : FieldPath} (h : path.segments.head? ≠ some "user")
    (user : Option Json) : e.field scope path = e.field { scope with user } path := by
  obtain ⟨segments⟩ := path
  cases segments with
  | nil => rfl
  | cons head rest =>
    have hhead : head ≠ "user" := fun heq => h (congrArg some heq)
    rw [field_of_head_ne_user hhead, field_of_head_ne_user hhead]
    rfl

/-! ## The moment -/

theorem reserved?_eq_of_moment {name : String} (h : name ≠ "now") (now : Option Instant)
    (clock : Instant) : e.reserved? scope name = e.reserved? { scope with now, clock } name := by
  unfold reserved?
  split
  next => rfl
  next => rfl
  next => rfl
  next => rfl
  next => exact absurd rfl h
  next => rfl
  next => rfl

theorem field_eq_of_moment {path : FieldPath} (h : path.segments ≠ ["now"]) (now : Option Instant)
    (clock : Instant) : e.field scope path = e.field { scope with now, clock } path := by
  obtain ⟨segments⟩ := path
  have hown : e.ownField scope segments = e.ownField { scope with now, clock } segments := by
    unfold ownField
    split
    next name =>
      have hname : name ≠ "now" := fun heq => h (congrArg (fun n => [n]) heq)
      rw [reserved?_eq_of_moment hname now clock]
    next => rfl
    next => rfl
  cases segments with
  | nil => rfl
  | cons head rest =>
    unfold field
    simp only [hown]

theorem noticeViolations_none (now : Option Instant) : e.noticeViolations none none now = [] := by
  unfold noticeViolations
  cases now with
  | none => rfl
  | some now => rfl

end Event

namespace Declaration

variable {d : Declaration} {e : Event} {scope : Scope}

/-- Without limits on advance notice, the moment says nothing about the time of an event. -/
theorem timeViolations_eq_of_moment [TimeZones]
    (h : ∀ c ∈ d.constraints, c.name ≠ "minAdvanceTime" ∧ c.name ≠ "maxAdvanceTime")
    (now : Option Instant) (clock : Instant) : e.timeViolations d.constraints scope =
      e.timeViolations d.constraints { scope with now, clock } := by
  have hmin := Constraint.minutes?_eq_none fun c hc => (h c hc).1
  have hmax := Constraint.minutes?_eq_none fun c hc => (h c hc).2
  rw [Event.timeViolations, Event.timeViolations, hmin, hmax, Event.noticeViolations_none,
    Event.noticeViolations_none]

/-- A declaration no path of which starts with `user` gives the same answers whichever user acts, or
none.  One that asks for no conflicts validates alike whatever other events there are, and one that
neither names the moment in its rules nor limits the advance notice does so at any moment, or none.
-/
theorem noninterference [TimeZones] (d : Declaration) (e : Event) (scope : Scope) :
    ((∀ path ∈ d.paths, path.segments.head? ≠ some "user") → ∀ user : Option Json,
      d.validate e scope = d.validate e { scope with user } ∧
      d.render e scope = d.render e { scope with user } ∧
      (∀ action, d.allows e scope action = d.allows e { scope with user } action) ∧
      d.permissions e scope = d.permissions e { scope with user }) ∧
    (Rule.anyAsksCalendar d.rules = false → ∀ others : List Event,
      d.validate e scope = d.validate e { scope with others }) ∧
    ((∀ path ∈ Rule.pathsOfAll d.rules, path.segments ≠ ["now"]) →
      (∀ c ∈ d.constraints, c.name ≠ "minAdvanceTime" ∧ c.name ≠ "maxAdvanceTime") →
      ∀ (now : Option Instant) (clock : Instant),
        d.validate e scope = d.validate e { scope with now, clock }) := by
  refine ⟨?_, ?_, ?_⟩
  · intro h user
    have halike : AlikeOn d.paths e e scope { scope with user } := fun path hpath =>
      Value.alike_of_eq (Event.field_eq_of_user (h path hpath) user)
    rw [paths, alikeOn_append, alikeOn_append] at halike
    obtain ⟨⟨hrules, hdisplay⟩, hbehavior⟩ := halike
    refine ⟨?_, ?_, ?_, ?_⟩
    · exact validate_congr rfl hrules fun _ => rfl
    · exact render_congr rfl hdisplay
    · exact allows_congr hbehavior
    · exact permissions_congr hbehavior
  · intro h others
    refine validate_congr rfl (fun path _ => .refl _) fun hasks => ?_
    rw [h] at hasks
    cases hasks
  · intro hnow hnotice now clock
    refine validate_congr (timeViolations_eq_of_moment hnotice now clock) ?_ fun _ => rfl
    exact fun path hpath => Value.alike_of_eq (Event.field_eq_of_moment (hnow path hpath) now clock)

/-- Members take at most eight seats, and nobody changes a film after noon. -/
def cinema : Declaration where
  id := "film"
  name := "Film"
  rules := [.onlyIf (.field ⟨["member"]⟩)
    [.between ⟨["seats"]⟩ (.value (.ofNat 1)) (.value (.ofNat 8))]]
  display := [⟨.title, .template [.text "Film: ", .field ⟨["extra", "film"]⟩]⟩]
  behavior := [⟨.editable, .condition
    (.comparison .less (.expression (.field ⟨["startTime", "hour"]⟩)) (.value (.ofNat 12)))⟩]
  constraints := [⟨"minDuration", .duration ⟨.one, "hours"⟩⟩]

/-- A film for which a member has booked nine seats. -/
def matinee : Event where
  id := "1"
  type := "film"
  start := ⟨20454, 36000, 0, by decide⟩
  finish := ⟨20454, 43200, 0, by decide⟩
  extra := [("member", .bool true), ("seats", .ofNat 9)]

theorem paths_cinema : cinema.paths =
    [⟨["member"]⟩, ⟨["seats"]⟩, ⟨["extra", "film"]⟩, ⟨["startTime", "hour"]⟩] := by
  simp [paths, cinema, Rule.pathsOfAll, Rule.paths, Operand.paths, Expression.paths,
    DisplayValue.paths, TemplatePart.paths, BehaviorValue.paths]

/-- The film is judged alike for any user, beside itself in the calendar, and at its end. -/
theorem noninterference_cinema :
    cinema.permissions matinee (.ofUser matinee.start none) =
      cinema.permissions matinee (.ofUser matinee.start (some (.string "Ann"))) ∧
    cinema.validate matinee { clock := matinee.start } =
      cinema.validate matinee { clock := matinee.start, others := [matinee] } ∧
    cinema.validate matinee { clock := matinee.start } =
      cinema.validate matinee { clock := matinee.finish, now := some matinee.finish } := by
  have hrules : Rule.pathsOfAll cinema.rules = [⟨["member"]⟩, ⟨["seats"]⟩] := by
    simp [cinema, Rule.pathsOfAll, Rule.paths, Expression.paths]
  have hasks : Rule.anyAsksCalendar cinema.rules = false := by
    simp [cinema, Rule.anyAsksCalendar, Rule.asksCalendar]
  obtain ⟨huser, hothers, hmoment⟩ :=
    noninterference cinema matinee { clock := matinee.start }
  refine ⟨(huser ?_ (some (.string "Ann"))).2.2.2, hothers hasks [matinee],
    hmoment ?_ ?_ (some matinee.finish) matinee.finish⟩
  · rw [paths_cinema]
    decide
  · rw [hrules]
    decide
  · decide

end Declaration
end CalendarRules
