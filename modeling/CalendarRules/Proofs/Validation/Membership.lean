import CalendarRules.Proofs.Validation.Equality

/-!
# Membership as a disjunction

That the value of a field is one of a list can be asked by a rule, or by a condition that has one
equality for each literal of the list.  The rule looks first whether the field has a value at all,
and the condition does not.  But a literal always stands for a document, which no missing value
equals, so the two agree (`Rule.violations_oneOf_eq_nil_iff_holds`).

How the equalities are joined into one condition does not matter: `Expression.IsDisjunction` allows
every bracketing.
-/

namespace CalendarRules

namespace Literal

theorem exists_toValue_eq (l : Literal) : ∃ j, l.toValue = .json j := by
  cases l with
  | value j => exact ⟨j, rfl⟩
  | duration d => exact ⟨_, rfl⟩

/-- A missing value equals no literal. -/
theorem compare_undefined_eq_false (l : Literal) :
    Operator.equals.compare .undefined l.toValue = false := by
  obtain ⟨j, hj⟩ := l.exists_toValue_eq
  rw [hj]
  rfl

end Literal

namespace Expression

/-- The condition that a field equals a literal. -/
def equality (path : FieldPath) (l : Literal) : Expression :=
  .comparison .equals (.expression (.field path)) l

/-- The disjunction of a list of conditions in their order, with brackets anywhere. -/
inductive IsDisjunction : List Expression → Expression → Prop where
  | single (x : Expression) : IsDisjunction [x] x
  | join {xs ys : List Expression} {x y : Expression} (left : IsDisjunction xs x)
      (right : IsDisjunction ys y) : IsDisjunction (xs ++ ys) (.logical .or x y)

variable {e : Event} {scope : Scope}

theorem holds_equality (path : FieldPath) (l : Literal) :
    (equality path l).holds e scope =
      Operator.equals.compare (e.field scope path) l.toValue := by
  rw [equality, holds, Operand.value]

theorem exists_isDisjunction {xs : List Expression} (h : xs ≠ []) : ∃ x, IsDisjunction xs x := by
  induction xs with
  | nil => exact absurd rfl h
  | cons x xs ih =>
    cases xs with
    | nil => exact ⟨x, .single x⟩
    | cons y ys =>
      obtain ⟨rest, hrest⟩ := ih (List.cons_ne_nil y ys)
      exact ⟨_, .join (.single x) hrest⟩

/-- A disjunction holds where one of its conditions does. -/
theorem IsDisjunction.holds_iff {xs : List Expression} {x : Expression} (h : IsDisjunction xs x) :
    x.holds e scope = true ↔ ∃ y ∈ xs, y.holds e scope = true := by
  induction h with
  | single x => simp only [List.mem_singleton, exists_eq_left]
  | join _ _ ihx ihy =>
    rw [holds, Connective.combine, Bool.or_eq_true, ihx, ihy]
    simp only [List.mem_append, or_and_right, exists_or]

end Expression

namespace Rule

variable {e : Event} {scope : Scope} {path : FieldPath}

theorem violations_oneOf_eq_nil_iff_exists_holds {values : List Literal} :
    (oneOf path values).violations e scope = [] ↔
      ∃ l ∈ values, (Expression.equality path l).holds e scope = true := by
  simp only [violations_oneOf_eq_nil_iff, Expression.holds_equality]
  constructor
  · exact And.right
  · rintro ⟨l, hl, hequal⟩
    refine ⟨?_, l, hl, hequal⟩
    cases hfield : e.field scope path with
    | undefined =>
      rw [hfield, l.compare_undefined_eq_false] at hequal
      cases hequal
    | json j => rfl
    | instant t => rfl

/-- A rule that asks for one of a list of literals accepts where the field equals one of them, or
where a disjunction of these equalities holds.  So its verdict depends on the members of the list
alone, not on their order or number, and a list that accepts does so in every longer one. -/
theorem violations_oneOf_eq_nil_iff_holds (e : Event) (scope : Scope) (path : FieldPath)
    (values : List Literal) :
    ((oneOf path values).violations e scope = [] ↔
      ∃ l ∈ values, (Expression.equality path l).holds e scope = true) ∧
    (values ≠ [] → ∃ x, Expression.IsDisjunction (values.map (Expression.equality path)) x) ∧
    (∀ x, Expression.IsDisjunction (values.map (Expression.equality path)) x →
      ((oneOf path values).violations e scope = [] ↔ x.holds e scope = true)) ∧
    (∀ others, (∀ l, l ∈ others ↔ l ∈ values) →
      ((oneOf path others).violations e scope = [] ↔
        (oneOf path values).violations e scope = [])) ∧
    (∀ others, (oneOf path (values ++ others)).violations e scope = [] ↔
      (oneOf path values).violations e scope = [] ∨
        (oneOf path others).violations e scope = []) := by
  simp only [violations_oneOf_eq_nil_iff_exists_holds]
  refine ⟨trivial, fun h => ?_, fun x hx => ?_, fun others hmem => ?_, fun others => ?_⟩
  · exact Expression.exists_isDisjunction fun hnil => h (List.map_eq_nil_iff.1 hnil)
  · rw [hx.holds_iff]
    simp only [List.mem_map, exists_exists_and_eq_and]
  · simp only [hmem]
  · simp only [List.mem_append, or_and_right, exists_or]

/-- The film takes two hours or four: its length equals the second literal. -/
theorem violations_oneOf_eq_nil_doubleFeature :
    (oneOf ⟨["duration"]⟩ [.duration ⟨.ofInt 2 (by decide), "hours"⟩,
        .duration ⟨.ofInt 4 (by decide), "hours"⟩]).violations doubleFeature
        { clock := doubleFeature.start } = [] ∧
      (Expression.logical .or
        (.equality ⟨["duration"]⟩ (.duration ⟨.ofInt 2 (by decide), "hours"⟩))
        (.equality ⟨["duration"]⟩ (.duration ⟨.ofInt 4 (by decide), "hours"⟩))).holds
        doubleFeature { clock := doubleFeature.start } = true := by
  obtain ⟨hexists, -, hdisjunction, -⟩ := violations_oneOf_eq_nil_iff_holds doubleFeature
    { clock := doubleFeature.start } ⟨["duration"]⟩
    [.duration ⟨.ofInt 2 (by decide), "hours"⟩, .duration ⟨.ofInt 4 (by decide), "hours"⟩]
  have haccepts := hexists.2 ⟨_, .tail _ (.head _), by decide +kernel⟩
  exact ⟨haccepts, (hdisjunction _ (.join (.single _) (.single _))).1 haccepts⟩

end Rule
end CalendarRules
