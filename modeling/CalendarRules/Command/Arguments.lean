/-!
# Arguments of a command line

A command line is a list of words.  Options are written `--name value`, `--name=value`, or by a
letter as `-n value`, `-nvalue` or `-n=value`; options without a value may share a dash.  Any other
word is an operand, and so is every word after `--`.

An option counts once at each level.  A word that begins with a dash is no value of the option
before it, except a lone dash.

Words are judged one after the other, and the first one that is wrong, or that asks for help or for
the version, settles the matter.  What is missing shows only at the end.
-/

namespace CalendarRules

/-- How an option is written. -/
structure OptionForm where
  name : String
  letter : Option Char := none
  takesValue : Bool := true
  /-- The values that it takes. -/
  accepts : String → Bool := fun _ => true

/-- Why reading a command line stops before its end. -/
inductive Stop where
  /-- The words are no command line. -/
  | misuse
  /-- Help is asked for. -/
  | help
  /-- The version is asked for. -/
  | version
  deriving DecidableEq

/-- The options and operands of one level of a command line. -/
structure Arguments where
  settings : List (String × String)
  operands : List String

namespace Arguments

def empty : Arguments := ⟨[], []⟩

/-- The value of an option. -/
def get? (a : Arguments) (name : String) : Option String := a.settings.lookup name

/-- Sets an option that has not been set yet to a value that it takes. -/
def set (a : Arguments) (form : OptionForm) (value : String) : Except Stop Arguments :=
  if (a.get? form.name).isSome || !form.accepts value then .error .misuse
  else .ok { a with settings := a.settings ++ [(form.name, value)] }

/-- Adds operands of which there may be `most`. -/
def addOperands (a : Arguments) (most : Nat) (words : List String) : Except Stop Arguments :=
  let operands := a.operands ++ words
  if most < operands.length then .error .misuse else .ok { a with operands }

end Arguments

/-- What may be written at one level of a command line. -/
structure ArgumentLevel where
  forms : List OptionForm
  /-- The version may be asked for. -/
  hasVersion : Bool
  /-- The number of operands, if they belong to the level; else the first one ends it and begins the
  next level. -/
  capacity : Option Nat

namespace ArgumentLevel

/-- The options of a word of letters.  The last one may still wait for its value. -/
def scanLetters (level : ArgumentLevel) (found : Arguments) :
    List Char → Except Stop (Option OptionForm × Arguments)
  | [] => .ok (none, found)
  | c :: cs =>
    if c = 'h' then .error .help
    else if c = 'V' && level.hasVersion then .error .version
    else match level.forms.find? fun form => form.letter == some c with
      | none => .error .misuse
      | some form =>
        if form.takesValue then
          match cs with
          | [] => .ok (some form, found)
          | '=' :: value => do return (none, ← found.set form (String.ofList value))
          | value => do return (none, ← found.set form (String.ofList value))
        else do scanLetters level (← found.set form "") cs

/-- The option of a word with two dashes, given without them. -/
def scanName (level : ArgumentLevel) (found : Arguments) (cs : List Char) :
    Except Stop (Option OptionForm × Arguments) :=
  let name := String.ofList (cs.takeWhile (· ≠ '='))
  let value := cs.dropWhile (· ≠ '=')
  if name = "help" && value.isEmpty then .error .help
  else if name = "version" && value.isEmpty && level.hasVersion then .error .version
  else match level.forms.find? fun form => form.name == name with
    | none => .error .misuse
    | some form =>
      match form.takesValue, value with
      | true, [] => .ok (some form, found)
      | true, _ :: value => do return (none, ← found.set form (String.ofList value))
      | false, [] => do return (none, ← found.set form "")
      | false, _ :: _ => .error .misuse

/-- A word that begins with a dash and is not a lone one. -/
def isOption (word : String) : Bool :=
  match word.toList with
  | '-' :: _ :: _ => true
  | _ => false

/-- Goes through the words of a level.  An option may be waiting for its value. -/
def scan (level : ArgumentLevel) :
    Option OptionForm → Arguments → List String → Except Stop Arguments
  | some _, _, [] => .error .misuse
  | none, found, [] => .ok found
  | some form, found, word :: words =>
    if isOption word then .error .misuse
    else do scan level none (← found.set form word) words
  | none, found, word :: words =>
    match word.toList with
    | ['-', '-'] =>
      match level.capacity with
      | none => .error .misuse
      | some most => found.addOperands most words
    | '-' :: '-' :: cs => do
      let (waiting, found) ← level.scanName found cs
      scan level waiting found words
    | '-' :: c :: cs => do
      let (waiting, found) ← level.scanLetters found (c :: cs)
      scan level waiting found words
    | _ =>
      match level.capacity with
      | none => .ok { found with operands := word :: words }
      | some most => do scan level none (← found.addOperands most [word]) words

end ArgumentLevel
end CalendarRules
