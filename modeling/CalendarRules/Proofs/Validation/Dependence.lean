import CalendarRules.Appearance
import CalendarRules.Permission
import CalendarRules.Proofs.Declaration.Paths
import CalendarRules.Proofs.Value.Alike
import CalendarRules.Validation

/-!
# What the answers of a declaration depend on

A declaration is asked about two events, each in a scope of its own.  If every path in it has like
values in both, nothing that it evaluates tells them apart: conditions hold in both or in neither,
operands stand for like values, and rules, templates and behavior follow.  Two things reach a rule
past the paths: the conflicts of the event, where it asks for them, and the time of the event, where
the constraints do.

The induction is over expressions and operands together, then over rules and display values; every
constructor hands the agreement of its paths down to its parts.
-/

namespace CalendarRules

/-- Every one of the paths has like values for an event in its scope and for another in another. -/
def AlikeOn (paths : List FieldPath) (e e' : Event) (s s' : Scope) : Prop :=
  ∀ path ∈ paths, (e.field s path).Alike (e'.field s' path)

variable {e e' : Event} {s s' : Scope}

theorem alikeOn_append {paths others : List FieldPath} :
    AlikeOn (paths ++ others) e e' s s' ↔ AlikeOn paths e e' s s' ∧ AlikeOn others e e' s s' :=
  List.forall_mem_append

theorem alikeOn_singleton {path : FieldPath} :
    AlikeOn [path] e e' s s' ↔ (e.field s path).Alike (e'.field s' path) :=
  List.forall_mem_singleton

/-! ## Conditions -/

mutual

theorem Expression.holds_congr : ∀ x : Expression, AlikeOn x.paths e e' s s' →
    x.holds e s = x.holds e' s'
  | .field path, h => by
    rw [Expression.paths, alikeOn_singleton] at h
    rw [Expression.holds, Expression.holds]
    exact h.isTruthy_eq
  | .comparison operator left right, h => by
    rw [Expression.paths] at h
    rw [Expression.holds, Expression.holds]
    exact (Operand.value_congr left h).compare_eq operator right.toValue
  | .logical connective left right, h => by
    rw [Expression.paths, alikeOn_append] at h
    rw [Expression.holds, Expression.holds, Expression.holds_congr left h.1,
      Expression.holds_congr right h.2]
  | .negation argument, h => by
    rw [Expression.paths] at h
    rw [Expression.holds, Expression.holds, Expression.holds_congr argument h]

theorem Operand.value_congr : ∀ o : Operand, AlikeOn o.paths e e' s s' →
    (o.value e s).Alike (o.value e' s')
  | .literal l, _ => by
    rw [Operand.value, Operand.value]
    exact .refl _
  | .expression x, h => by
    rw [Operand.paths] at h
    by_cases hx : ∃ path, x = .field path
    · obtain ⟨path, rfl⟩ := hx
      rw [Expression.paths, alikeOn_singleton] at h
      rw [Operand.value, Operand.value]
      exact h
    · have hne := not_exists.1 hx
      rw [Operand.value_expression e s x hne, Operand.value_expression e' s' x hne,
        Expression.holds_congr x h]
      exact .refl _

end

/-! ## Rules -/

namespace Rule

theorem betweenViolations_congr {field : FieldPath}
    (h : (e.field s field).Alike (e'.field s' field))
    (min max : Literal) :
    betweenViolations e s field min max = betweenViolations e' s' field min max := by
  simp only [betweenViolations, h.isUndefined_eq, h.measure?_eq]

theorem oneOfViolations_congr {field : FieldPath} (h : (e.field s field).Alike (e'.field s' field))
    (values : List Literal) :
    oneOfViolations e s field values = oneOfViolations e' s' field values := by
  simp only [oneOfViolations, h.isUndefined_eq, h.compare_eq]

theorem moduloViolations_congr {field : FieldPath} (h : (e.field s field).Alike (e'.field s' field))
    (modulus : Literal) (operator : Operator) (right : Literal) :
    moduloViolations e s field modulus operator right =
      moduloViolations e' s' field modulus operator right := by
  simp only [moduloViolations, h.isUndefined_eq, h.measure?_eq]

theorem conditionViolations_congr {x : Expression} (h : AlikeOn x.paths e e' s s') :
    conditionViolations e s x = conditionViolations e' s' x := by
  rw [conditionViolations, conditionViolations, x.holds_congr h]

mutual

theorem violations_congr : ∀ rule : Rule, AlikeOn rule.paths e e' s s' →
    (rule.asksCalendar = true → e.conflicts s.others = e'.conflicts s'.others) →
      rule.violations e s = rule.violations e' s'
  | .between field min max, h, _ => by
    rw [paths, alikeOn_singleton] at h
    rw [violations, violations, betweenViolations_congr h]
  | .oneOf field values, h, _ => by
    rw [paths, alikeOn_singleton] at h
    rw [violations, violations, oneOfViolations_congr h]
  | .modulo field modulus operator right, h, _ => by
    rw [paths, alikeOn_singleton] at h
    rw [violations, violations, moduloViolations_congr h]
  | .comparison operator left right, h, _ => by
    rw [paths] at h
    rw [violations, violations, (left.value_congr h).compare_eq]
  | .conflict, _, hc => by
    rw [violations, violations, hc (by rw [asksCalendar])]
  | .noConflict, _, hc => by
    rw [violations, violations, noConflictViolations, noConflictViolations,
      hc (by rw [asksCalendar])]
  | .onlyIf condition rules, h, hc => by
    rw [paths, alikeOn_append] at h
    rw [asksCalendar] at hc
    rw [violations, violations, condition.holds_congr h.1, violationsOfAll_congr rules h.2 hc]
  | .logical connective left right, h, _ => by
    have hpaths : (Expression.logical connective left right).paths =
        (Rule.logical connective left right).paths := by rw [Expression.paths, paths]
    rw [violations, violations, conditionViolations_congr (hpaths ▸ h)]
  | .negation argument, h, _ => by
    have hpaths : (Expression.negation argument).paths = (Rule.negation argument).paths := by
      rw [Expression.paths, paths]
    rw [violations, violations, conditionViolations_congr (hpaths ▸ h)]
  | .unknown, _, _ => by rw [violations, violations]

theorem violationsOfAll_congr : ∀ rules : List Rule, AlikeOn (pathsOfAll rules) e e' s s' →
    (anyAsksCalendar rules = true → e.conflicts s.others = e'.conflicts s'.others) →
      violationsOfAll e s rules = violationsOfAll e' s' rules
  | [], _, _ => by rw [violationsOfAll, violationsOfAll]
  | rule :: rules, h, hc => by
    rw [pathsOfAll, alikeOn_append] at h
    rw [anyAsksCalendar, Bool.or_eq_true] at hc
    rw [violationsOfAll, violationsOfAll, violations_congr rule h.1 fun hr => hc (.inl hr),
      violationsOfAll_congr rules h.2 fun hr => hc (.inr hr)]

end

end Rule

/-! ## Display and behavior -/

theorem TemplatePart.rendered_congr {part : TemplatePart} (h : AlikeOn part.paths e e' s s') :
    part.rendered e s = part.rendered e' s' := by
  cases part with
  | field path =>
    rw [paths, alikeOn_singleton] at h
    simp only [rendered]
    generalize e.field s path = v, e'.field s' path = w at h
    cases h with
    | refl => rfl
    | object => rfl
  | text _ | other _ => rfl

theorem DisplayValue.evaluate_congr : ∀ value : DisplayValue, AlikeOn value.paths e e' s s' →
    value.evaluate e s = value.evaluate e' s'
  | .literal value, _ => by rw [evaluate, evaluate]
  | .conditional condition consequent none, h => by
    rw [paths, alikeOn_append] at h
    rw [evaluate, evaluate, condition.holds_congr h.1, evaluate_congr consequent h.2]
  | .conditional condition consequent (some alternate), h => by
    rw [paths, alikeOn_append, alikeOn_append] at h
    rw [evaluate, evaluate, condition.holds_congr h.1, evaluate_congr consequent h.2.1,
      evaluate_congr alternate h.2.2]
  | .template parts, h => by
    have hparts : ∀ part ∈ parts, part.rendered e s = part.rendered e' s' := by
      intro part hmem
      refine TemplatePart.rendered_congr fun path hpath => h path ?_
      rw [paths]
      exact List.mem_flatMap.2 ⟨part, hmem, hpath⟩
    rw [evaluate, evaluate, List.map_congr_left hparts]

theorem BehaviorValue.allows_congr {value : BehaviorValue} (h : AlikeOn value.paths e e' s s') :
    value.allows e s = value.allows e' s' := by
  cases value with
  | flag _ => rfl
  | condition x => exact x.holds_congr h

/-! ## Declarations -/

namespace Declaration

variable {d : Declaration}

theorem validate_congr [TimeZones]
    (htime : e.timeViolations d.constraints s = e'.timeViolations d.constraints s')
    (h : AlikeOn (Rule.pathsOfAll d.rules) e e' s s')
    (hc : Rule.anyAsksCalendar d.rules = true → e.conflicts s.others = e'.conflicts s'.others) :
    d.validate e s = d.validate e' s' := by
  rw [validate, validate, htime, Rule.violationsOfAll_congr d.rules h hc]

/-- Events that look alike before any rule look alike after the display rules. -/
theorem render_congr (hinitial : d.initialAppearance e = d.initialAppearance e')
    (h : AlikeOn (d.display.flatMap fun rule => rule.value.paths) e e' s s') :
    d.render e s = d.render e' s' := by
  have hvalue : ∀ rule ∈ d.display, rule.value.evaluate e s = rule.value.evaluate e' s' := by
    intro rule hrule
    refine DisplayValue.evaluate_congr _ fun path hpath => h path ?_
    exact List.mem_flatMap.2 ⟨rule, hrule, hpath⟩
  rw [render, render, hinitial]
  refine List.foldl_ext _ _ _ fun a rule hrule => ?_
  rw [hvalue rule hrule]

theorem allows_congr (h : AlikeOn (d.behavior.flatMap fun rule => rule.value.paths) e e' s s')
    (action : Action) : d.allows e s action = d.allows e' s' action := by
  unfold allows behaviorFor?
  cases hfind : d.behavior.find? fun rule => rule.action.name == action.name with
  | none => rfl
  | some rule =>
    have hrule := List.mem_of_find?_eq_some hfind
    refine BehaviorValue.allows_congr fun path hpath => h path ?_
    exact List.mem_flatMap.2 ⟨rule, hrule, hpath⟩

theorem permissions_congr
    (h : AlikeOn (d.behavior.flatMap fun rule => rule.value.paths) e e' s s') :
    d.permissions e s = d.permissions e' s' := by
  simp only [permissions, allowsOr, allows_congr h]

end Declaration
end CalendarRules
