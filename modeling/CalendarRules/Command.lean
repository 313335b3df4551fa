import CalendarRules.Command.Arguments
import CalendarRules.Text.Digits

/-!
# Commands

What can be asked for on the command line: the schema of types, the validation, the look or the
permissions of an event, and the occurrences of a recurring one.  Documents are named by their
files; an event without a file comes from standard input.
-/

namespace CalendarRules

/-- An event, its type and the acting user. -/
structure Target where
  types : String
  /-- The type to use in place of the event's own. -/
  typeId : Option String
  event : Option String
  user : Option String

inductive Command where
  | schema (types : String) (typeId : Option String)
  | validate (target : Target) (events now : Option String)
  | render (target : Target)
  | can (action : String) (target : Target)
  | expand (event : Option String) (limit : Option Nat)

/-- A command, and the file that its result goes to if it is not standard output. -/
structure Invocation where
  command : Command
  output : Option String

namespace Command

def outputOption : OptionForm := { name := "output", letter := some 'o' }

/-- Options that may stand before and after the name of a command. -/
def commonOptions : List OptionForm :=
  [outputOption, { name := "verbose", letter := some 'v', takesValue := false }]

def typeOptions : List OptionForm := [{ name := "types" }, { name := "type" }]

def eventOption : OptionForm := { name := "event", letter := some 'e' }

def targetOptions : List OptionForm := typeOptions ++ [eventOption, { name := "user" }]

/-- A limit: a decimal number with an optional sign, at most 65535. -/
def limit? (text : String) : Option Nat :=
  let (negative, digits) := match text.toList with
    | '-' :: digits => (true, digits)
    | '+' :: digits => (false, digits)
    | digits => (false, digits)
  let n := Text.decimalValue digits
  if Text.isNumeral digits && n ≤ 65535 && (!negative || n == 0) then some n else none

/-- The level of a command line in front of the command. -/
def mainLevel : ArgumentLevel := ⟨commonOptions, true, none⟩

/-- The level of a command line after a command with options and so many operands. -/
def levelOf (options : List OptionForm) (operands : Nat) : ArgumentLevel :=
  ⟨options ++ commonOptions, false, some operands⟩

/-- The level of a command line after the command of a name. -/
def level? (name : String) : Option ArgumentLevel :=
  match name with
  | "schema" => some (levelOf typeOptions 0)
  | "validate" => some (levelOf (targetOptions ++ [{ name := "events" }, { name := "now" }]) 0)
  | "render" => some (levelOf targetOptions 0)
  | "can" => some (levelOf targetOptions 1)
  | "expand" =>
    let limit : OptionForm := { name := "limit", accepts := fun text => (limit? text).isSome }
    some (levelOf [eventOption, limit] 0)
  | _ => none

/-- The file or files that say what a command is about. -/
def target? (a : Arguments) : Option Target :=
  (a.get? "types").map fun types => ⟨types, a.get? "type", a.get? "event", a.get? "user"⟩

/-- The command of a name with its options and operands. -/
def ofArguments? (name : String) (a : Arguments) : Option Command :=
  match name, a.operands with
  | "schema", [] => (a.get? "types").map fun types => .schema types (a.get? "type")
  | "validate", [] => (target? a).map fun t => .validate t (a.get? "events") (a.get? "now")
  | "render", [] => (target? a).map .render
  | "can", [action] => (target? a).map (.can action)
  | "expand", [] => some (.expand (a.get? "event") ((a.get? "limit").bind limit?))
  | _, _ => none

/-- The word `help`, perhaps with a command to have it about. -/
def isHelp (words : List String) : Bool :=
  match words with
  | [] => true
  | [name] => name = "help" || (level? name).isSome
  | _ => false

end Command

/-- Reads a command line. -/
def Invocation.ofWords (words : List String) : Except Stop Invocation := do
  let outer ← Command.mainLevel.scan none .empty words
  match outer.operands with
  | [] => throw .misuse
  | name :: words =>
    if name = "help" then throw (if Command.isHelp words then .help else .misuse)
    match Command.level? name with
    | none => throw .misuse
    | some level =>
      let inner ← level.scan none .empty words
      match Command.ofArguments? name inner with
      | none => throw .misuse
      | some command => return ⟨command, (inner.get? "output").or (outer.get? "output")⟩

end CalendarRules
