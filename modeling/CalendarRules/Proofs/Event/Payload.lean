import CalendarRules.Proofs.Validation.Dependence
import CalendarRules.Proofs.Validation.Limits

/-!
# What is read of a payload

A payload may hold anything, but a declaration reads of it only what its paths name.  A path reads
nothing, one entry or all of it (`FieldPath.reading`): the reserved fields are those of the event, a
head `user` belongs to the acting user, the head `extra` may be left out, and a single `extra` is
the whole payload.  The duration is reserved, but an entry of that name overrides it, and the limits
on the duration ask for it without any path.

So two payloads that agree on what is read get the same answers
(`Declaration.answers_eq_of_agrees`).  To agree on the whole payload is to agree on every key; the
order of the entries does not matter.
-/

namespace CalendarRules

/-- What is read of a payload. -/
inductive Reading where
  | nothing
  /-- What stands under a key. -/
  | entry (key : String)
  | whole
  deriving DecidableEq

namespace Reading

/-- What stands under a key is part of what is read. -/
def Covers : Reading → String → Prop
  | nothing, _ => False
  | entry key, other => key = other
  | whole, _ => True

/-- Two payloads have the same under every key that is read. -/
def Agrees (r : Reading) (payload other : Entries) : Prop :=
  ∀ key, r.Covers key → Entries.get? key payload = Entries.get? key other

end Reading

namespace FieldPath

/-- What segments read that are neither the user's nor a part of the start or the finish. -/
def ownReading : List String → Reading
  | [] => .nothing
  | [name] =>
    if name ∈ ["title", "type", "id", "now", "created"] then .nothing
    else if name = "extra" then .whole
    else .entry name
  | head :: next :: _ => if head = "extra" then .entry next else .entry head

/-- What a path reads of a payload, with or without an acting user. -/
def reading (path : FieldPath) (hasUser : Bool) : Reading :=
  match path.segments with
  | [] => .nothing
  | head :: rest =>
    if head = "startTime" ∨ head = "endTime" ∨ head = "user" ∧ hasUser = true then .nothing
    else ownReading (head :: rest)

end FieldPath

namespace Event

/-- The event with another payload. -/
def withPayload (payload : Entries) (e : Event) : Event := { e with extra := payload }

variable {e : Event} {scope : Scope} {payload : Entries}

/-! ## Fields -/

theorem duration_congr (h : Entries.get? "duration" e.extra = Entries.get? "duration" payload) :
    e.duration = (e.withPayload payload).duration := by
  rw [duration, h]
  rfl

/-- Only the duration looks at the payload among the reserved fields. -/
theorem reserved?_congr {name : String} (h : name ≠ "duration") :
    e.reserved? scope name = (e.withPayload payload).reserved? scope name := by
  unfold reserved?
  split
  next => rfl
  next => rfl
  next => rfl
  next => exact absurd rfl h
  next => rfl
  next => rfl
  next => rfl

theorem payloadField_congr {key : String} (rest : List String)
    (h : Entries.get? key e.extra = Entries.get? key payload) :
    e.payloadField (key :: rest) = (e.withPayload payload).payloadField (key :: rest) := by
  have hchild : (Json.object e.extra).child? key = (Json.object payload).child? key := h
  rw [payloadField, payloadField, Json.walk?, Json.walk?, hchild]
  rfl

theorem payloadField_nil_alike (hn : (Entries.keys e.extra).Nodup)
    (hn' : (Entries.keys payload).Nodup)
    (h : ∀ key, Entries.get? key e.extra = Entries.get? key payload) :
    (e.payloadField []).Alike ((e.withPayload payload).payloadField []) :=
  .object hn (Entries.perm_of_get? hn hn' h)

theorem ownField_single_alike (hn : (Entries.keys e.extra).Nodup)
    (hn' : (Entries.keys payload).Nodup) {name : String}
    (h : (FieldPath.ownReading [name]).Agrees e.extra payload) :
    (e.ownField scope [name]).Alike ((e.withPayload payload).ownField scope [name]) := by
  simp only [ownField]
  rw [FieldPath.ownReading] at h
  by_cases hreserved : name ∈ ["title", "type", "id", "now", "created"]
  · simp only [List.mem_cons, List.not_mem_nil, or_false] at hreserved
    obtain rfl | rfl | rfl | rfl | rfl := hreserved <;> exact .refl _
  rw [if_neg hreserved] at h
  by_cases hduration : name = "duration"
  · subst hduration
    exact Value.alike_of_eq (duration_congr (h "duration" rfl))
  have hreading : (e.withPayload payload).reserved? scope name = e.reserved? scope name :=
    (reserved?_congr hduration).symm
  rw [hreading]
  cases e.reserved? scope name with
  | some v => exact .refl v
  | none =>
    rw [Option.getD_none, Option.getD_none]
    by_cases hextra : name = "extra"
    · rw [if_pos hextra] at h
      rw [if_pos hextra, if_pos hextra]
      exact payloadField_nil_alike hn hn' fun key => h key trivial
    · rw [if_neg hextra] at h
      rw [if_neg hextra, if_neg hextra]
      exact Value.alike_of_eq (payloadField_congr [] (h name rfl))

/-- A path of several segments starts in the payload, unless its head is `extra`. -/
theorem ownField_of_head_ne {head next : String} {rest : List String} (h : head ≠ "extra") :
    e.ownField scope (head :: next :: rest) = e.payloadField (head :: next :: rest) := by
  unfold ownField
  split
  next heq => cases heq
  next heq => exact absurd (List.cons.inj heq).1 h
  next => rfl

theorem ownField_alike (hn : (Entries.keys e.extra).Nodup) (hn' : (Entries.keys payload).Nodup)
    {segments : List String} (hne : segments ≠ [])
    (h : (FieldPath.ownReading segments).Agrees e.extra payload) :
    (e.ownField scope segments).Alike ((e.withPayload payload).ownField scope segments) := by
  match segments with
  | [] => exact absurd rfl hne
  | [name] => exact ownField_single_alike hn hn' h
  | head :: next :: rest =>
    rw [FieldPath.ownReading] at h
    by_cases hextra : head = "extra"
    · subst hextra
      exact Value.alike_of_eq (payloadField_congr rest (h next rfl))
    · rw [if_neg hextra] at h
      rw [ownField_of_head_ne hextra, ownField_of_head_ne hextra]
      exact Value.alike_of_eq (payloadField_congr (next :: rest) (h head rfl))

/-- A head that is neither the user's nor the start or the finish leaves the field to the event. -/
theorem field_eq_ownField {head : String} {rest : List String}
    (h : ¬ (head = "startTime" ∨ head = "endTime" ∨ head = "user" ∧ scope.user.isSome = true)) :
    e.field scope ⟨head :: rest⟩ = e.ownField scope (head :: rest) := by
  unfold field
  simp only
  split
  next user huser => exact absurd (.inr (.inr ⟨rfl, by rw [huser]; rfl⟩)) h
  next => exact absurd (.inl rfl) h
  next => exact absurd (.inr (.inl rfl)) h
  next => rfl

/-- A field is alike under payloads that agree on what its path reads. -/
theorem field_alike (hn : (Entries.keys e.extra).Nodup) (hn' : (Entries.keys payload).Nodup)
    {path : FieldPath} (h : (path.reading scope.user.isSome).Agrees e.extra payload) :
    (e.field scope path).Alike ((e.withPayload payload).field scope path) := by
  obtain ⟨segments⟩ := path
  match segments with
  | [] => exact .refl _
  | head :: rest =>
    simp only [FieldPath.reading] at h
    by_cases houtside : head = "startTime" ∨ head = "endTime" ∨
        head = "user" ∧ scope.user.isSome = true
    · obtain rfl | rfl | ⟨rfl, huser⟩ := houtside
      · exact .refl _
      · exact .refl _
      · obtain ⟨user, huser⟩ := Option.isSome_iff_exists.1 huser
        simp only [field, huser]
        exact .refl _
    · rw [if_neg houtside] at h
      rw [field_eq_ownField houtside, field_eq_ownField houtside]
      exact ownField_alike hn hn' (List.cons_ne_nil head rest) h

/-! ## Limits on the duration -/

theorem durationViolations_congr (h : e.duration = (e.withPayload payload).duration)
    (min max : Option Binary64) :
    e.durationViolations min max = (e.withPayload payload).durationViolations min max := by
  rw [durationViolations, durationViolations, h]

/-- Of all limits on time, only those on the duration look at the payload. -/
theorem timeViolations_congr [TimeZones] {constraints : List Constraint}
    (h : e.durationViolations (Constraint.minutes? "minDuration" constraints)
        (Constraint.minutes? "maxDuration" constraints) =
      (e.withPayload payload).durationViolations (Constraint.minutes? "minDuration" constraints)
        (Constraint.minutes? "maxDuration" constraints)) :
    e.timeViolations constraints scope =
      (e.withPayload payload).timeViolations constraints scope := by
  rw [timeViolations, timeViolations, h]
  rfl

end Event

namespace Declaration

/-- Some constraint limits the duration. -/
def LimitsDuration (d : Declaration) : Prop :=
  ∃ c ∈ d.constraints, c.name = "minDuration" ∨ c.name = "maxDuration"

theorem timeViolations_congr_of_agrees [TimeZones] {d : Declaration} {e : Event} {payload : Entries}
    (h : d.LimitsDuration → Entries.get? "duration" e.extra = Entries.get? "duration" payload)
    (scope : Scope) : e.timeViolations d.constraints scope =
      (e.withPayload payload).timeViolations d.constraints scope := by
  refine Event.timeViolations_congr ?_
  by_cases hlimits : d.LimitsDuration
  · exact Event.durationViolations_congr (Event.duration_congr (h hlimits)) _ _
  · have hnone : ∀ name, name = "minDuration" ∨ name = "maxDuration" →
        Constraint.minutes? name d.constraints = none := by
      intro name hname
      refine Constraint.minutes?_eq_none fun c hc heq => hlimits ⟨c, hc, ?_⟩
      rw [heq]
      exact hname
    rw [hnone "minDuration" (.inl rfl), hnone "maxDuration" (.inr rfl)]
    rfl

/-- Two events that differ only in their payloads get the same answers if the payloads agree on all
that the paths of the declaration read, and on the duration where it is limited. -/
theorem answers_eq_of_agrees [TimeZones] (d : Declaration) (e : Event) (payload : Entries)
    (scope : Scope) (hn : (Entries.keys e.extra).Nodup) (hn' : (Entries.keys payload).Nodup)
    (hread : ∀ path ∈ d.paths, (path.reading scope.user.isSome).Agrees e.extra payload)
    (hduration : d.LimitsDuration →
      Entries.get? "duration" e.extra = Entries.get? "duration" payload) :
    d.validate e scope = d.validate { e with extra := payload } scope ∧
    d.render e scope = d.render { e with extra := payload } scope ∧
    (∀ action, d.allows e scope action = d.allows { e with extra := payload } scope action) ∧
    d.permissions e scope = d.permissions { e with extra := payload } scope := by
  have halike : AlikeOn d.paths e (e.withPayload payload) scope scope := fun path hpath =>
    Event.field_alike hn hn' (hread path hpath)
  rw [paths, alikeOn_append, alikeOn_append] at halike
  obtain ⟨⟨hrules, hdisplay⟩, hbehavior⟩ := halike
  refine ⟨?_, ?_, ?_, ?_⟩
  · exact validate_congr (timeViolations_congr_of_agrees hduration scope) hrules fun _ => rfl
  · exact render_congr rfl hdisplay
  · exact allows_congr hbehavior
  · exact permissions_congr hbehavior

/-- Tables are booked for a number of guests and no longer than a day, and who booked one may change
it. -/
def tables : Declaration where
  id := "table"
  name := "Table"
  rules := [.comparison .atLeast (.expression (.field ⟨["extra", "guests"]⟩))
    (.value (.ofNat 2)), .noConflict]
  display := [⟨.title, .template [.text "For ", .field ⟨["user", "name"]⟩]⟩]
  behavior := [⟨.editable, .condition (.field ⟨["host"]⟩)⟩]
  constraints := [⟨"maxDuration", .duration ⟨.one, "days"⟩⟩]

/-- A table booked for two hours. -/
def supper : Event where
  id := "1"
  type := "table"
  start := ⟨20454, 64800, 0, by decide⟩
  finish := ⟨20454, 72000, 0, by decide⟩
  extra := [("guests", .ofNat 4), ("host", .string "Ann"), ("note", .string "window")]

/-- The payload of the same booking with the note moved and rewritten. -/
def terrace : Entries :=
  [("note", .string "terrace"), ("host", .string "Ann"), ("guests", .ofNat 4)]

/-- The note of a booking plays no part in what is said of it. -/
theorem answers_eq_of_agrees_tables :
    tables.validate supper (.ofUser supper.start (some .null)) =
      tables.validate { supper with extra := terrace } (.ofUser supper.start (some .null)) ∧
    tables.render supper (.ofUser supper.start (some .null)) =
      tables.render { supper with extra := terrace } (.ofUser supper.start (some .null)) ∧
    tables.permissions supper (.ofUser supper.start (some .null)) =
      tables.permissions { supper with extra := terrace } (.ofUser supper.start (some .null)) := by
  have hread : ∀ path ∈ tables.paths, (path.reading true).Agrees supper.extra terrace := by
    intro path hpath
    have hpaths : tables.paths = [⟨["extra", "guests"]⟩, ⟨["user", "name"]⟩, ⟨["host"]⟩] := by
      simp [paths, tables, Rule.pathsOfAll, Rule.paths, Operand.paths, Expression.paths,
        DisplayValue.paths, TemplatePart.paths, BehaviorValue.paths]
    rw [hpaths] at hpath
    simp only [List.mem_cons, List.not_mem_nil, or_false] at hpath
    obtain rfl | rfl | rfl := hpath
    · rintro key rfl
      rfl
    · exact fun key hkey => False.elim hkey
    · rintro key rfl
      rfl
  obtain ⟨hvalidate, hrender, -, hpermissions⟩ := answers_eq_of_agrees tables supper terrace
    (.ofUser supper.start (some .null)) (by decide) (by decide) hread fun _ => rfl
  exact ⟨hvalidate, hrender, hpermissions⟩

end Declaration
end CalendarRules
