import CalendarRules.Validation

/-!
# Violations are those of the leaves

Guarded lists nest to any depth.  Read from left to right, a list of rules is a list of *leaves*,
the rules that guard no others, each under the conditions of all the guarded lists around it
(`Rule.leavesOfAll`).  What validation reports is what the leaves report in that order: a leaf says
at most one thing, and nothing when a condition around it fails (`Declaration.validate_leaves`).

Only the conditions around a leaf matter, and not how they are spread over guarded lists.  So a
guarded list that holds nothing but another one may be merged with it, wherever it stands
(`Rule.Merged`).
-/

namespace CalendarRules

/-- The rule guards no others. -/
def Rule.IsLeaf : Rule → Prop
  | .onlyIf .. => False
  | _ => True

/-- A rule that guards no others, under the conditions of the guarded lists around it from the
outside in. -/
structure Leaf where
  guards : List Expression
  rule : Rule
  isLeaf : rule.IsLeaf

namespace Leaf

/-- The leaf in one more guarded list. -/
def under (condition : Expression) (leaf : Leaf) : Leaf :=
  { leaf with guards := condition :: leaf.guards }

/-- The violations of the rule if all conditions around it hold. -/
def violations (event : Event) (scope : Scope) (leaf : Leaf) : List String :=
  if leaf.guards.all fun condition => condition.holds event scope then
    leaf.rule.violations event scope
  else []

end Leaf

namespace Rule

mutual

/-- The leaves of a rule from left to right. -/
def leaves : Rule → List Leaf
  | .onlyIf condition rules => (leavesOfAll rules).map (Leaf.under condition)
  | rule@h:(.between ..) | rule@h:(.oneOf ..) | rule@h:(.modulo ..) | rule@h:(.comparison ..)
  | rule@h:.conflict | rule@h:.noConflict | rule@h:(.logical ..) | rule@h:(.negation _)
  | rule@h:.unknown => [⟨[], rule, h ▸ trivial⟩]

/-- The leaves of rules one after the other. -/
def leavesOfAll : List Rule → List Leaf
  | [] => []
  | rule :: rules => rule.leaves ++ leavesOfAll rules

end

variable {event : Event} {scope : Scope}

/-! ## What leaves report -/

theorem violations_flatMap_under (condition : Expression) (ls : List Leaf) :
    (ls.map (Leaf.under condition)).flatMap (Leaf.violations event scope) =
      if condition.holds event scope then ls.flatMap (Leaf.violations event scope) else [] := by
  rw [List.flatMap_map]
  split
  next h =>
    refine congrArg (fun f => ls.flatMap f) (funext fun leaf => ?_)
    rw [Leaf.violations, Leaf.under, List.all_cons, h, Bool.true_and]
    rfl
  next h =>
    rw [List.flatMap_eq_nil_iff]
    intro leaf _
    rw [Bool.not_eq_true] at h
    rw [Leaf.violations, Leaf.under, List.all_cons, h, Bool.false_and]
    rfl

theorem leaves_of_isLeaf {rule : Rule} (h : rule.IsLeaf) : rule.leaves = [⟨[], rule, h⟩] := by
  cases rule with
  | onlyIf condition rules => exact h.elim
  | between | oneOf | modulo | comparison | conflict | noConflict | logical | negation | unknown =>
    rw [leaves]

theorem violations_of_isLeaf {rule : Rule} (h : rule.IsLeaf) : rule.violations event scope =
    rule.leaves.flatMap (Leaf.violations event scope) := by
  rw [leaves_of_isLeaf h, List.flatMap_cons, List.flatMap_nil, List.append_nil]
  rfl

mutual

theorem violations_eq : ∀ rule : Rule, rule.violations event scope =
    rule.leaves.flatMap (Leaf.violations event scope)
  | .onlyIf condition rules => by
    rw [violations, leaves, violations_flatMap_under, violationsOfAll_eq rules]
  | .between .. | .oneOf .. | .modulo .. | .comparison .. | .conflict | .noConflict | .logical ..
  | .negation _ | .unknown => violations_of_isLeaf trivial

/-- Rules report what their leaves report, in order. -/
theorem violationsOfAll_eq : ∀ rules : List Rule, violationsOfAll event scope rules =
    (leavesOfAll rules).flatMap (Leaf.violations event scope)
  | [] => by rw [violationsOfAll, leavesOfAll, List.flatMap_nil]
  | rule :: rules => by
    rw [violationsOfAll, leavesOfAll, List.flatMap_append, violations_eq rule,
      violationsOfAll_eq rules]

end

/-! ## What a leaf says -/

theorem length_betweenViolations_le (field : FieldPath) (min max : Literal) :
    (betweenViolations event scope field min max).length ≤ 1 := by
  unfold betweenViolations
  simp only
  split
  next => exact Nat.le_refl 1
  next =>
    split
    next => exact Nat.le_refl 1
    next =>
      split
      next =>
        split
        next => exact Nat.le_refl 1
        next => exact Nat.zero_le 1
      next => exact Nat.le_refl 1

theorem length_oneOfViolations_le (field : FieldPath) (values : List Literal) :
    (oneOfViolations event scope field values).length ≤ 1 := by
  unfold oneOfViolations
  simp only
  split
  next => exact Nat.le_refl 1
  next =>
    split
    next => exact Nat.zero_le 1
    next => exact Nat.le_refl 1

theorem length_moduloViolations_le (field : FieldPath) (modulus : Literal) (operator : Operator)
    (right : Literal) :
    (moduloViolations event scope field modulus operator right).length ≤ 1 := by
  unfold moduloViolations
  simp only
  split
  next => exact Nat.le_refl 1
  next =>
    split
    next =>
      split
      next => exact Nat.le_refl 1
      next =>
        split
        next => exact Nat.zero_le 1
        next => exact Nat.le_refl 1
    next => exact Nat.le_refl 1

theorem length_conditionViolations_le (e : Expression) :
    (conditionViolations event scope e).length ≤ 1 := by
  unfold conditionViolations
  split
  next => exact Nat.zero_le 1
  next => exact Nat.le_refl 1

theorem length_noConflictViolations_le : (noConflictViolations event scope).length ≤ 1 := by
  unfold noConflictViolations
  split
  next => exact Nat.zero_le 1
  next => exact Nat.le_refl 1

/-- A leaf says at most one thing. -/
theorem length_violations_le {rule : Rule} (h : rule.IsLeaf) :
    (rule.violations event scope).length ≤ 1 := by
  cases rule with
  | between field min max => exact length_betweenViolations_le field min max
  | oneOf field values => exact length_oneOfViolations_le field values
  | modulo field modulus operator right =>
    exact length_moduloViolations_le field modulus operator right
  | comparison operator left right =>
    rw [violations]
    split
    next => exact Nat.zero_le 1
    next => exact Nat.le_refl 1
  | conflict =>
    rw [violations]
    split
    next => exact Nat.le_refl 1
    next => exact Nat.zero_le 1
  | noConflict => exact length_noConflictViolations_le
  | onlyIf condition rules => exact h.elim
  | logical connective left right => exact length_conditionViolations_le _
  | negation argument => exact length_conditionViolations_le _
  | unknown => exact Nat.zero_le 1

/-! ## Merging guarded lists -/

/-- One list of rules comes from another by merging, at one place, a guarded list that holds nothing
but another guarded list with that one. -/
inductive Merged : List Rule → List Rule → Prop where
  | here (outer inner : Expression) (rules rest : List Rule) :
    Merged (.onlyIf outer [.onlyIf inner rules] :: rest)
      (.onlyIf (.logical .and outer inner) rules :: rest)
  | inside (condition : Expression) (rest : List Rule) {rules rules' : List Rule} :
    Merged rules rules' →
      Merged (.onlyIf condition rules :: rest) (.onlyIf condition rules' :: rest)
  | later (rule : Rule) {rules rules' : List Rule} :
    Merged rules rules' → Merged (rule :: rules) (rule :: rules')

/-- Merging changes no violation. -/
theorem violationsOfAll_of_merged {rules rules' : List Rule} (h : Merged rules rules') :
    violationsOfAll event scope rules' = violationsOfAll event scope rules := by
  induction h with
  | here outer inner rules rest =>
    rw [violationsOfAll, violationsOfAll, violations, violations, violationsOfAll, violations,
      violationsOfAll, List.append_nil, Expression.holds]
    cases outer.holds event scope with
    | false => rfl
    | true => rfl
  | inside condition rest _ ih =>
    rw [violationsOfAll, violationsOfAll, violations, violations, ih]
  | later rule _ ih => rw [violationsOfAll, violationsOfAll, ih]

end Rule

/-- Validation reports the violations of time, then those of every leaf in order under the
conditions around it, at most one for each; an event is valid when there are none.  Guarded lists
that hold nothing but another one may be merged with it. -/
theorem Declaration.validate_leaves [TimeZones] (d : Declaration) (event : Event) (scope : Scope) :
    (d.validate event scope).errors = event.timeViolations d.constraints scope ++
      (Rule.leavesOfAll d.rules).flatMap (fun leaf =>
        if leaf.guards.all fun condition => condition.holds event scope then
          leaf.rule.violations event scope
        else []) ∧
    (∀ leaf ∈ Rule.leavesOfAll d.rules, (leaf.rule.violations event scope).length ≤ 1) ∧
    ((d.validate event scope).valid = true ↔ (d.validate event scope).errors = []) ∧
    (∀ rules', Rule.Merged d.rules rules' →
      { d with rules := rules' }.validate event scope = d.validate event scope) := by
  refine ⟨?_, ?_, List.isEmpty_iff, ?_⟩
  · exact congrArg (event.timeViolations d.constraints scope ++ ·) (Rule.violationsOfAll_eq d.rules)
  · exact fun leaf _ => Rule.length_violations_le leaf.isLeaf
  · intro rules' h
    rw [validate, validate, Rule.violationsOfAll_of_merged h]

end CalendarRules
