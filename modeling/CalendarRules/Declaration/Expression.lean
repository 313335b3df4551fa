import CalendarRules.Declaration.Literal

/-!
# Expressions

Conditions of declarations: a field, a comparison of a field or a literal with a literal, and the
logical connectives.  The left side of a comparison may be an expression; a document that is not one
is a literal there.

An expression is a variant record.  Reading goes down the nesting of the source, and everything
below the outermost record has been set aside by then.
-/

namespace CalendarRules

/-- How two values are compared.  A word that is no operator is kept, and nothing compares that
way. -/
inductive Operator where
  | is
  | isNot
  | equals
  | notEquals
  | greater
  | atLeast
  | less
  | atMost
  | unknown (word : String)
  deriving DecidableEq

namespace Operator

def text : Operator → String
  | .is => "is"
  | .isNot => "is not"
  | .equals => "equals"
  | .notEquals => "not equals"
  | .greater => ">"
  | .atLeast => ">="
  | .less => "<"
  | .atMost => "<="
  | .unknown word => word

/-- The operators that have a word of their own. -/
def known : List Operator :=
  [.is, .isNot, .equals, .notEquals, .greater, .atLeast, .less, .atMost]

/-- The operator of a word. -/
def ofText (word : String) : Operator :=
  (known.find? fun op => op.text == word).getD (.unknown word)

def read (s : Source) : Except Problem Operator := s.readString.map ofText

def json (op : Operator) : Json := .string op.text

@[simp] theorem text_ofText (word : String) : (ofText word).text = word := by
  unfold ofText
  cases h : known.find? fun op => op.text == word with
  | none => rfl
  | some op => simpa using List.find?_some h

end Operator

inductive Connective where
  | and
  | or
  deriving DecidableEq

namespace Connective

def text : Connective → String
  | .and => "and"
  | .or => "or"

def read (s : Source) : Except Problem Connective := do
  let name ← s.readName .aside ["and", "or"]
  return if name = "and" then .and else .or

def json (c : Connective) : Json := .string c.text

end Connective

mutual

inductive Expression where
  | field (path : FieldPath)
  | comparison (operator : Operator) (left : Operand) (right : Literal)
  | logical (connective : Connective) (left right : Expression)
  | negation (argument : Expression)

/-- The left side of a comparison. -/
inductive Operand where
  | expression (e : Expression)
  | literal (l : Literal)

end

/-! ## Reading -/

/-- Reads an operand by means of a reader of expressions. -/
def Operand.readBy (readExpression : Except Problem Expression) (s : Source) :
    Except Problem Operand :=
  match readExpression with
  | .ok e => .ok (.expression e)
  | .error _ => (Literal.read .aside s).map .literal

/-- Reads the fields of a comparison by means of a reader of operands. -/
def readComparison (s : Source)
    (readOperand : (x : Source) → x.depth < s.depth → Except Problem Operand) :
    Except Problem (Operator × Operand × Literal) := do
  let operator := s.slot 0 "operator" fun x _ => Operator.read x
  let left := s.slot 1 "left" readOperand
  let right := s.slot 2 "right" fun x _ => Literal.read .aside x
  s.checkRecord .aside "struct Comparison" [operator.report, left.report, right.report]
  return (← operator.get, ← left.get, ← right.get)

/-- Reads the fields of a conjunction or a disjunction by means of a reader of expressions. -/
def readLogical (s : Source)
    (readExpression : (x : Source) → x.depth < s.depth → Except Problem Expression) :
    Except Problem (Connective × Expression × Expression) := do
  let connective := s.slot 0 "operator" fun x _ => Connective.read x
  let left := s.slot 1 "left" readExpression
  let right := s.slot 2 "right" readExpression
  s.checkRecord .aside "struct BinaryExpr" [connective.report, left.report, right.report]
  return (← connective.get, ← left.get, ← right.get)

/-- Reads the fields of a negation by means of a reader of expressions. -/
def readNegation (s : Source)
    (readExpression : (x : Source) → x.depth < s.depth → Except Problem Expression) :
    Except Problem Expression := do
  let operator := s.slot 0 "operator" fun x _ => x.readName .aside ["not"]
  let argument := s.slot 1 "argument" readExpression
  s.checkRecord .aside "struct UnaryExpr" [operator.report, argument.report]
  argument.get

namespace Expression

def variants : Source.Variants := ⟨["FieldAccess", "Comparison", "BinaryExpr", "UnaryExpr"], false⟩

def read (origin : Origin) (s : Source) : Except Problem Expression := do
  let tagged ← s.readTagged origin "Expression" variants
  match tagged.variant with
  | some "FieldAccess" => return .field (← FieldPath.read .aside tagged.body)
  | some "Comparison" =>
    let (operator, left, right) ← readComparison tagged.body fun x _ =>
      Operand.readBy (read .aside x) x
    return .comparison operator left right
  | some "BinaryExpr" =>
    let (connective, left, right) ← readLogical tagged.body fun x _ => read .aside x
    return .logical connective left right
  | _ => return .negation (← readNegation tagged.body fun x _ => read .aside x)
termination_by s.depth
decreasing_by all_goals exact Nat.lt_of_lt_of_le (by assumption) tagged.depth_le

end Expression

def Operand.read (s : Source) : Except Problem Operand :=
  Operand.readBy (Expression.read .aside s) s

/-! ## Writing -/

/-- The entries of a conjunction or a disjunction, given its sides. -/
def logicalEntries (connective : Connective) (left right : Json) : Entries :=
  [("operator", connective.json), ("left", left), ("right", right)]

/-- The entries of a comparison, given its left side. -/
def comparisonEntries (operator : Operator) (left : Json) (right : Literal) : Entries :=
  [("operator", operator.json), ("left", left), ("right", right.json)]

/-- The entries of a negation, given what it negates. -/
def negationEntries (argument : Json) : Entries :=
  [("operator", .string "not"), ("argument", argument)]

/-- A variant record with the name of its variant in front. -/
def variantRecord (name : String) (entries : Entries) : Json :=
  .object (("type", .string name) :: entries)

mutual

def Expression.json : Expression → Json
  | .field path => variantRecord "FieldAccess" [path.entry]
  | .comparison operator left right =>
    variantRecord "Comparison" (comparisonEntries operator left.json right)
  | .logical connective left right =>
    variantRecord "BinaryExpr" (logicalEntries connective left.json right.json)
  | .negation argument => variantRecord "UnaryExpr" (negationEntries argument.json)

def Operand.json : Operand → Json
  | .expression e => e.json
  | .literal l => l.json

end

mutual

/-- An expression inside a message. -/
def Expression.text : Expression → String
  | .field path => path.text
  | .comparison operator left right => left.text ++ " " ++ operator.text ++ " " ++ right.text
  | .logical connective left right =>
    "(" ++ left.text ++ " " ++ connective.text ++ " " ++ right.text ++ ")"
  | .negation argument => "not " ++ argument.text

def Operand.text : Operand → String
  | .expression e => e.text
  | .literal l => l.text

end
end CalendarRules
