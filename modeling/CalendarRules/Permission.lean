import CalendarRules.Declaration
import CalendarRules.Validation.Condition

/-!
# What may be done with an event

The first behavior rule for an action decides whether the acting user may take it.  An action
without a rule is not allowed; the four actions that every calendar knows have defaults of their
own, which `permissions` falls back to.
-/

namespace CalendarRules

/-- The actions that every calendar knows, and whether they are allowed. -/
structure Permissions where
  draggable : Bool
  resizable : Bool
  editable : Bool
  deletable : Bool
  deriving DecidableEq

namespace Permissions

/-- Events may be moved, edited and deleted, but not resized. -/
def default : Permissions := ⟨true, false, true, true⟩

def json (p : Permissions) : Json :=
  .object [("draggable", .bool p.draggable), ("resizable", .bool p.resizable),
    ("editable", .bool p.editable), ("deletable", .bool p.deletable)]

/-- Sets the permission of an action; other actions have none here. -/
def set (action : Action) (allowed : Bool) (p : Permissions) : Permissions :=
  match action with
  | .draggable => { p with draggable := allowed }
  | .resizable => { p with resizable := allowed }
  | .editable => { p with editable := allowed }
  | .deletable => { p with deletable := allowed }
  | .other _ => p

end Permissions

/-- What a behavior rule says about an event. -/
def BehaviorValue.allows (event : Event) (scope : Scope) : BehaviorValue → Bool
  | .flag allowed => allowed
  | .condition e => e.holds event scope

namespace Declaration

/-- The first rule for an action. -/
def behaviorFor? (d : Declaration) (action : Action) : Option BehaviorValue :=
  (d.behavior.find? fun rule => rule.action.name == action.name).map BehaviorRule.value

/-- The acting user may take an action. -/
def allows (d : Declaration) (event : Event) (scope : Scope) (action : Action) : Bool :=
  match d.behaviorFor? action with
  | some value => value.allows event scope
  | none => false

/-- The acting user may take an action, or the default of an action without a rule. -/
def allowsOr (d : Declaration) (event : Event) (scope : Scope) (action : Action)
    (default : Bool) : Bool :=
  if d.behavior.any fun rule => rule.action = action then d.allows event scope action
  else default

/-- All permissions of the acting user. -/
def permissions (d : Declaration) (event : Event) (scope : Scope) : Permissions where
  draggable := d.allowsOr event scope .draggable Permissions.default.draggable
  resizable := d.allowsOr event scope .resizable Permissions.default.resizable
  editable := d.allowsOr event scope .editable Permissions.default.editable
  deletable := d.allowsOr event scope .deletable Permissions.default.deletable

/-- The permissions that are known without evaluation: each flag sets its action, over the defaults.
-/
def literalPermissions (d : Declaration) : Permissions :=
  d.behavior.foldl (fun p rule =>
    match rule.value with
    | .flag allowed => p.set rule.action allowed
    | .condition _ => p) Permissions.default

end Declaration
end CalendarRules
