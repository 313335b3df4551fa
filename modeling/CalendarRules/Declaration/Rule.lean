import CalendarRules.Declaration.Expression

/-!
# Validation rules

What a type demands of its events.  A rule of a kind that is not known is kept as `unknown` and
demands nothing.  `onlyIf` guards a list of rules by a condition; rules of that list that cannot be
read are left out, like those of the declaration itself.
-/

namespace CalendarRules

inductive Rule where
  | between (field : FieldPath) (min max : Literal)
  | oneOf (field : FieldPath) (values : List Literal)
  /-- The remainder of a field by a modulus compares with a literal. -/
  | modulo (field : FieldPath) (modulus : Literal) (operator : Operator) (right : Literal)
  | comparison (operator : Operator) (left : Operand) (right : Literal)
  | conflict
  | noConflict
  | onlyIf (condition : Expression) (rules : List Rule)
  | logical (connective : Connective) (left right : Expression)
  | negation (argument : Expression)
  | unknown

namespace Rule

def variants : Source.Variants :=
  ⟨["Between", "In", "ModComparison", "Comparison", "Conflict", "NoConflict", "When", "BinaryExpr",
    "UnaryExpr"], true⟩

/-- The kind of a rule as messages call it. -/
def kind (variant : String) : String := "struct variant ValidationRule::" ++ variant

def readBetween (s : Source) : Except Problem Rule := do
  let field := s.slot 0 "field" fun x _ => FieldPath.read .aside x
  let min := s.slot 1 "min" fun x _ => Literal.read .aside x
  let max := s.slot 2 "max" fun x _ => Literal.read .aside x
  s.checkRecord .aside (kind "Between") [field.report, min.report, max.report]
  return .between (← field.get) (← min.get) (← max.get)

def readOneOf (s : Source) : Except Problem Rule := do
  let field := s.slot 0 "field" fun x _ => FieldPath.read .aside x
  let values := s.slot 1 "values" fun x _ => Source.readList (Literal.read .aside) x
  s.checkRecord .aside (kind "In") [field.report, values.report]
  return .oneOf (← field.get) (← values.get)

def readModulo (s : Source) : Except Problem Rule := do
  let field := s.slot 0 "left" fun x _ => FieldPath.read .aside x
  let modulus := s.slot 1 "modValue" fun x _ => Literal.read .aside x
  let operator := s.slot 2 "operator" fun x _ => Operator.read x
  let right := s.slot 3 "right" fun x _ => Literal.read .aside x
  s.checkRecord .aside (kind "ModComparison")
    [field.report, modulus.report, operator.report, right.report]
  return .modulo (← field.get) (← modulus.get) (← operator.get) (← right.get)

/-- Reads a guarded list of rules by means of a reader of rules. -/
def readOnlyIf (s : Source) (readRule : (j : Json) → j.depth < s.depth → Option Rule) :
    Except Problem Rule := do
  let condition := s.slot 0 "condition" fun x _ => Expression.read .aside x
  let rules := s.slot 1 "rules" fun x hx => x.readLenient fun j hj =>
    readRule j (Nat.lt_trans hj hx)
  s.checkRecord .aside (kind "When") [condition.report, rules.report]
  return .onlyIf (← condition.get) (← rules.get)

def read (origin : Origin) (s : Source) : Except Problem Rule := do
  let tagged ← s.readTagged origin "ValidationRule" variants
  match tagged.variant with
  | some "Between" => readBetween tagged.body
  | some "In" => readOneOf tagged.body
  | some "ModComparison" => readModulo tagged.body
  | some "Comparison" =>
    let (operator, left, right) ← readComparison tagged.body fun x _ => Operand.read x
    return .comparison operator left right
  | some "Conflict" =>
    tagged.body.checkNoFields
    return .conflict
  | some "NoConflict" =>
    tagged.body.checkNoFields
    return .noConflict
  | some "When" => readOnlyIf tagged.body fun j _ => (read .value (Source.ofJson j)).toOption
  | some "BinaryExpr" =>
    let (connective, left, right) ← readLogical tagged.body fun x _ => Expression.read .aside x
    return .logical connective left right
  | some "UnaryExpr" =>
    return .negation (← readNegation tagged.body fun x _ => Expression.read .aside x)
  | _ =>
    tagged.body.checkNoFields
    return .unknown
termination_by s.depth
decreasing_by
  rw [Source.depth_ofJson]
  exact Nat.lt_of_lt_of_le (by assumption) tagged.depth_le

mutual

def json : Rule → Json
  | .between field min max =>
    variantRecord "Between" [("field", field.json), ("min", min.json), ("max", max.json)]
  | .oneOf field values =>
    variantRecord "In" [("field", field.json), ("values", .array (values.map Literal.json))]
  | .modulo field modulus operator right =>
    variantRecord "ModComparison" [("left", field.json), ("modValue", modulus.json),
      ("operator", operator.json), ("right", right.json)]
  | .comparison operator left right =>
    variantRecord "Comparison" (comparisonEntries operator left.json right)
  | .conflict => variantRecord "Conflict" []
  | .noConflict => variantRecord "NoConflict" []
  | .onlyIf condition rules =>
    variantRecord "When" [("condition", condition.json), ("rules", .array (jsonOfRules rules))]
  | .logical connective left right =>
    variantRecord "BinaryExpr" (logicalEntries connective left.json right.json)
  | .negation argument => variantRecord "UnaryExpr" (negationEntries argument.json)
  | .unknown => variantRecord "Unknown" []

def jsonOfRules : List Rule → List Json
  | [] => []
  | rule :: rules => rule.json :: jsonOfRules rules

end

end Rule
end CalendarRules
