import CalendarRules.Declaration.Expression

/-!
# Display rules

How an event is shown: each rule sets one property to a value, which is a literal or computed from
the event by a condition or a template.  A document that is not a computed value is a literal.
-/

namespace CalendarRules

/-- The property that a display rule sets. -/
inductive DisplayProperty where
  | color
  | icon
  | title
  | description
  | other (name : String)
  deriving DecidableEq

namespace DisplayProperty

def name : DisplayProperty → String
  | .color => "color"
  | .icon => "icon"
  | .title => "title"
  | .description => "description"
  | .other name => name

def ofName (name : String) : DisplayProperty :=
  if name = "color" then .color
  else if name = "icon" then .icon
  else if name = "title" then .title
  else if name = "description" then .description
  else .other name

@[simp] theorem name_ofName (n : String) : (ofName n).name = n := by
  unfold ofName
  repeat' split
  all_goals simp_all [name]

end DisplayProperty

/-- A piece of a template. -/
inductive TemplatePart where
  | text (s : String)
  | field (path : FieldPath)
  /-- Anything else shows as nothing. -/
  | other (raw : Json)

namespace TemplatePart

def read (s : Source) : Except Problem TemplatePart :=
  match s.readString with
  | .ok t => .ok (.text t)
  | .error _ =>
    match FieldPath.read .aside s with
    | .ok path => .ok (.field path)
    | .error _ => s.readJson.map .other

def json : TemplatePart → Json
  | .text s => .string s
  | .field path => path.json
  | .other raw => raw

end TemplatePart

inductive DisplayValue where
  /-- One of two values; with no alternate the other one is the empty text. -/
  | conditional (condition : Expression) (consequent : DisplayValue)
      (alternate : Option DisplayValue)
  | template (parts : List TemplatePart)
  | literal (value : Json)

namespace DisplayValue

def variants : Source.Variants := ⟨["Conditional", "Template"], false⟩

/-- Reads the fields of a conditional value by means of a reader of values. -/
def readConditional (s : Source)
    (readValue : (x : Source) → x.depth < s.depth → Except Problem DisplayValue) :
    Except Problem DisplayValue := do
  let condition := s.slot 0 "condition" fun x _ => Expression.read .aside x
  let consequent := s.slot 1 "consequent" readValue
  let alternate := s.optionalSlot 2 "alternate" fun x h =>
    match x with
    | .null => .ok none
    | x => (readValue x h).map some
  s.checkRecord .aside "struct variant DisplayExpression::Conditional"
    [condition.report, consequent.report, alternate.report]
  return .conditional (← condition.get) (← consequent.get) (← alternate.getD none)

def readTemplate (s : Source) : Except Problem DisplayValue := do
  let parts := s.slot 0 "parts" fun x _ => Source.readList TemplatePart.read x
  s.checkRecord .aside "struct variant DisplayExpression::Template" [parts.report]
  return .template (← parts.get)

/-- Reads a computed value, or any value as a literal. -/
def read (origin : Origin) (s : Source) : Except Problem DisplayValue := do
  s.setAside origin
  let computed : Except Problem DisplayValue := do
    let tagged ← s.readTagged .aside "DisplayExpression" variants
    match tagged.variant with
    | some "Conditional" => readConditional tagged.body fun x _ => read .aside x
    | _ => readTemplate tagged.body
  match computed with
  | .ok value => return value
  | .error _ => return .literal (← s.readJson)
termination_by s.depth
decreasing_by exact Nat.lt_of_lt_of_le (by assumption) tagged.depth_le

def json : DisplayValue → Json
  | .conditional condition consequent none =>
    variantRecord "Conditional" [("condition", condition.json), ("consequent", consequent.json)]
  | .conditional condition consequent (some alternate) =>
    variantRecord "Conditional" [("condition", condition.json), ("consequent", consequent.json),
      ("alternate", alternate.json)]
  | .template parts => variantRecord "Template" [("parts", .array (parts.map TemplatePart.json))]
  | .literal value => value

end DisplayValue

structure DisplayRule where
  property : DisplayProperty
  value : DisplayValue

namespace DisplayRule

def read (origin : Origin) (s : Source) : Except Problem DisplayRule := do
  let property := s.slot 0 "name" fun x _ => x.readString.map DisplayProperty.ofName
  let value := s.slot 1 "value" fun x _ => DisplayValue.read origin x
  s.checkRecord origin "struct DisplayRule" [property.report, value.report]
  return ⟨← property.get, ← value.get⟩

def json (rule : DisplayRule) : Json :=
  .object [("name", .string rule.property.name), ("value", rule.value.json)]

end DisplayRule
end CalendarRules
