import CalendarRules.Declaration
import CalendarRules.Validation.Condition

/-!
# How an event looks

The title, color, icon and description of an event in a calendar, and any other property that
display rules set.  Every rule is evaluated against the event alone, and of several rules for one
property the last counts.
-/

namespace CalendarRules

structure Appearance where
  title : String
  color : String
  icon : Option Json
  description : Option String
  allDay : Option Bool
  /-- Properties of other names. -/
  extra : Entries

namespace Appearance

def json (a : Appearance) : Json :=
  .object <|
    [("title", .string a.title), ("color", .string a.color)] ++
    Entries.optional "icon" a.icon ++
    Entries.optional "description" (a.description.map .string) ++
    Entries.optional "allDay" (a.allDay.map .bool) ++
    Entries.optional "extra" (if a.extra.isEmpty then none else some (.object a.extra))

/-- The color of an event that has none. -/
def defaultColor : String := "#4285f4"

/-- The text of a property that is always a text; `null` is the empty one. -/
def propertyText (j : Json) : String := if j.isNull then "" else j.message

/-- Sets a property to a value.  The icon keeps the value as it is. -/
def set (property : DisplayProperty) (value : Json) (a : Appearance) : Appearance :=
  match property with
  | .color => { a with color := propertyText value }
  | .icon => { a with icon := some value }
  | .title => { a with title := propertyText value }
  | .description => { a with description := some (propertyText value) }
  | .other name => { a with extra := Entries.insert name value a.extra }

end Appearance

/-! ## Values of display rules -/

/-- What a part of a template shows.  Structures and missing fields show as nothing. -/
def TemplatePart.rendered (event : Event) (scope : Scope) : TemplatePart → String
  | .text s => s
  | .field path =>
    match event.field scope path with
    | .instant t => t.rendered
    | .json (.string s) => s
    | .json (.number n) => String.ofList n.toDouble.message
    | .json (.bool b) => if b then "true" else "false"
    | _ => ""
  | .other _ => ""

/-- The value of a display rule for an event. -/
def DisplayValue.evaluate (event : Event) (scope : Scope) : DisplayValue → Json
  | .literal value => value
  | .conditional condition consequent none =>
    if condition.holds event scope then consequent.evaluate event scope else .string ""
  | .conditional condition consequent (some alternate) =>
    if condition.holds event scope then consequent.evaluate event scope
    else alternate.evaluate event scope
  | .template parts => .string (String.join (parts.map (TemplatePart.rendered event scope)))

/-! ## Rendering -/

namespace Declaration

/-- The name of a type, which is its identifier if it has none of its own. -/
def displayName (d : Declaration) : String := if d.name = "" then d.id else d.name

/-- What an event is called. -/
def titleOf (d : Declaration) (event : Event) : String := event.title.getD d.displayName

/-- How an event looks before any rule. -/
def initialAppearance (d : Declaration) (event : Event) : Appearance where
  title := d.titleOf event
  color := Appearance.defaultColor
  icon := none
  description := some ""
  allDay := event.allDay
  extra := []

/-- How an event looks by the display rules of its declaration. -/
def render (d : Declaration) (event : Event) (scope : Scope) : Appearance :=
  d.display.foldl (fun a rule => a.set rule.property (rule.value.evaluate event scope))
    (d.initialAppearance event)

/-! ## Without evaluation -/

/-- The last text that a rule gives a property without evaluation. -/
def literalText? (d : Declaration) (property : DisplayProperty) : Option String :=
  d.display.foldl (fun found rule =>
    match rule.value with
    | .literal (.string s) => if rule.property = property then some s else found
    | _ => found) none

/-- How an event looks by the rules for color and icon that need no evaluation. -/
def renderLiterals (d : Declaration) (event : Event) : Appearance where
  title := d.titleOf event
  color := ((d.literalText? .color).or event.color).getD Appearance.defaultColor
  icon := (d.literalText? .icon).map .string
  description := some ""
  allDay := none
  extra := []

end Declaration
end CalendarRules
