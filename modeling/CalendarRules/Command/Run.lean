import CalendarRules.Appearance
import CalendarRules.Command
import CalendarRules.Permission
import CalendarRules.Recurrence.Expansion
import CalendarRules.Recurrence.Series
import CalendarRules.Schema
import CalendarRules.Validation

/-!
# Running commands

A command reads its documents, asks the library and gives one text.  The first document that cannot
be read ends it, with a message and without any result.  The files, standard input and the clock are
given, and so are the database of time zones and the engine for rules, so that a run is a function
of them.  A program that has no others takes the table of zones and the engine of this library.
-/

namespace CalendarRules

/-- What a command finds around it. -/
structure Surroundings where
  /-- The text of a file that can be read. -/
  file? : String → Option String
  input? : Option String
  /-- A file of that name can be written. -/
  isWritable : String → Bool
  clock : Instant

/-- Why a command fails. -/
inductive CommandFailure where
  | file (path : String)
  | input
  | declarations (path : String)
  | event
  | events (path : String)
  | user (path : String)
  | now (text : String)
  | unknownType (id : String) (declared : List String)
  | expansion (id : String)
  | output (path : String)
  /-- An occurrence would end outside the range of instants, which ends the program at once. -/
  | outOfRange

namespace CommandFailure

def message : CommandFailure → Option String
  | .file path => some ("Failed to read file: " ++ path)
  | .input => some "Failed to read from stdin"
  | .declarations path => some ("Failed to parse event type declarations: " ++ path)
  | .event => some "Failed to parse event"
  | .events path => some ("Failed to parse events (expected a JSON array): " ++ path)
  | .user path => some ("Failed to parse user: " ++ path)
  | .now text => some ("Invalid --now timestamp (expected RFC 3339): " ++ text)
  | .unknownType id declared =>
    some ("Unknown event type: '" ++ id ++ "'. Declared types: " ++ ", ".intercalate declared)
  | .expansion id => some ("Failed to expand event '" ++ id ++ "'")
  | .output path => some ("Failed to write file: " ++ path)
  | .outOfRange => none

def exitCode : CommandFailure → Nat
  | .outOfRange => 101
  | _ => 1

end CommandFailure

/-- The text that a command gives, and whether it is content. -/
structure Report where
  text : String
  succeeded : Bool := true

namespace Surroundings

def readFile (s : Surroundings) (path : String) : Except CommandFailure String :=
  match s.file? path with
  | some text => .ok text
  | none => .error (.file path)

/-- Reads a text and makes something of it, or fails with what is wrong about it. -/
def load {α : Type} (failure : CommandFailure) (read : String → Except Problem α) (text : String) :
    Except CommandFailure α :=
  match read text with
  | .ok a => .ok a
  | .error _ => .error failure

def loadTypes (s : Surroundings) (path : String) : Except CommandFailure (List Declaration) := do
  load (.declarations path) Declaration.listOfText (← s.readFile path)

def loadEvent (s : Surroundings) (path : Option String) : Except CommandFailure Event := do
  let text ← match path, s.input? with
    | some path, _ => s.readFile path
    | none, some text => .ok text
    | none, none => .error .input
  load .event Event.ofText text

def loadEvents (s : Surroundings) (path : Option String) : Except CommandFailure (List Event) :=
  match path with
  | some path => do load (.events path) Event.listOfText (← s.readFile path)
  | none => .ok []

def loadUser (s : Surroundings) (path : Option String) : Except CommandFailure (Option Json) :=
  match path with
  | some path => do
    let user ← load (.user path) (fun text => (Document.ofText text).read Source.readJson)
      (← s.readFile path)
    return some user
  | none => .ok none

def loadNow (now : Option String) : Except CommandFailure (Option Instant) :=
  match now with
  | some text =>
    match Instant.ofStrict text with
    | .ok t => .ok (some t)
    | .error _ => .error (.now text)
  | none => .ok none

end Surroundings

/-- The first declaration with an identifier. -/
def Declaration.find (ds : List Declaration) (id : String) : Except CommandFailure Declaration :=
  match ds.find? fun d => d.id == id with
  | some d => .ok d
  | none => .error (.unknownType id (ds.map Declaration.id))

/-- The event of a target, its declaration and the acting user. -/
def Target.load (t : Target) (s : Surroundings) :
    Except CommandFailure (Declaration × Event × Option Json) := do
  let ds ← s.loadTypes t.types
  let event ← s.loadEvent t.event
  let d ← Declaration.find ds (t.typeId.getD event.type)
  return (d, event, ← s.loadUser t.user)

/-- What a command gives. -/
def Command.report [TimeZones] [RuleEngine] (s : Surroundings) :
    Command → Except CommandFailure Report
  | .schema types none => do return ⟨(Declaration.schemas (← s.loadTypes types)).prettyText, true⟩
  | .schema types (some id) => do
    return ⟨(← Declaration.find (← s.loadTypes types) id).schema.prettyText, true⟩
  | .validate target events now => do
    let (d, event, user) ← target.load s
    let others ← s.loadEvents events
    let now ← Surroundings.loadNow now
    let verdict := d.validate event { clock := s.clock, now, others, user }
    return ⟨verdict.json.prettyText, verdict.valid⟩
  | .render target => do
    let (d, event, user) ← target.load s
    return ⟨(d.render event (.ofUser s.clock user)).json.prettyText, true⟩
  | .can action target => do
    let (d, event, user) ← target.load s
    let allowed := d.allows event (.ofUser s.clock user) (Action.ofName action)
    return ⟨if allowed then "true\n" else "false\n", true⟩
  | .expand event limit => do
    let event ← s.loadEvent event
    match event.occurrences (limit.getD Event.defaultLimit) with
    | .ok occurrences => return ⟨(Json.array (occurrences.map Occurrence.json)).prettyText, true⟩
    | .error .outOfRange => throw .outOfRange
    | .error _ => throw (.expansion event.id)

/-! ## Outcomes -/

/-- What is seen of a run. -/
structure Outcome where
  exitCode : Nat
  stdout : String := ""
  /-- The message of a failure. -/
  error : Option String := none
  /-- The file that was written and its text. -/
  written : Option (String × String) := none

def CommandFailure.outcome (f : CommandFailure) : Outcome :=
  { exitCode := f.exitCode, error := f.message }

/-- Runs a command and puts its text where it belongs. -/
def Invocation.run [TimeZones] [RuleEngine] (i : Invocation) (s : Surroundings) : Outcome :=
  match i.command.report s with
  | .error f => f.outcome
  | .ok report =>
    let exitCode := if report.succeeded then 0 else 1
    match i.output with
    | none => { exitCode, stdout := report.text }
    | some path =>
      if s.isWritable path then { exitCode, written := some (path, report.text) }
      else (CommandFailure.output path).outcome

/-- The answer to a question about the version. -/
def versionText : String := "evtype 0.1.0\n"

/-- Runs a command line. -/
def runWords [TimeZones] [RuleEngine] (words : List String) (s : Surroundings) : Outcome :=
  match Invocation.ofWords words with
  | .error .misuse => { exitCode := 2 }
  | .error .help => { exitCode := 0 }
  | .error .version => { exitCode := 0, stdout := versionText }
  | .ok i => i.run s

end CalendarRules
