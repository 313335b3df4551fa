import CalendarRules.Command.Run
import Std.Time.DateTime.Timestamp

/-!
# The program

Reads the files that the words of the command line name, standard input where an event comes from
there, and the clock; runs the command, and writes what it gives.
-/

namespace CalendarRules

/-- The files that name an event, its types and the acting user. -/
def Target.files (t : Target) : List String := t.types :: (t.event.toList ++ t.user.toList)

/-- The files that a command reads. -/
def Command.files : Command → List String
  | .schema types _ => [types]
  | .validate target events _ => target.files ++ events.toList
  | .render target => target.files
  | .can _ target => target.files
  | .expand event _ => event.toList

/-- The command takes its event from standard input. -/
def Command.readsInput : Command → Bool
  | .schema _ _ => false
  | .validate target _ _ => target.event.isNone
  | .render target => target.event.isNone
  | .can _ target => target.event.isNone
  | .expand event _ => event.isNone

/-- The text of a file, if it can be read. -/
def readFile? (path : String) : IO (Option String) := do
  try
    return some (← IO.FS.readFile path)
  catch _ => return none

/-- The text of standard input, if it can be read. -/
def readInput? : IO (Option String) := do
  try
    return String.fromUTF8? (← (← IO.getStdin).readBinToEnd)
  catch _ => return none

/-- The instant that the clock of the machine shows. -/
def readClock : IO (Option Instant) := do
  return Instant.ofSeconds? (← Std.Time.Timestamp.now).toSecondsSinceUnixEpoch.val 0

/-- What the machine has for a command. -/
def gather (command : Command) (clock : Instant) : IO Surroundings := do
  let files ← command.files.mapM fun path => do return (path, ← readFile? path)
  let input? ← if command.readsInput then readInput? else pure none
  return {
    file? := fun path => (files.lookup path).join
    input?
    isWritable := fun _ => true
    clock }

/-- Writes a file, and says whether that was possible. -/
def writeFile (path text : String) : IO Bool := do
  try
    IO.FS.writeFile path text
    return true
  catch _ => return false

/-- Shows an outcome and gives its exit code. -/
def present (outcome : Outcome) : IO UInt32 := do
  let outcome ← match outcome.written with
    | some (path, text) => do
      if ← writeFile path text then pure outcome
      else pure (CommandFailure.output path).outcome
    | none => pure outcome
  IO.print outcome.stdout
  if let some message := outcome.error then IO.eprintln ("Error: " ++ message)
  return outcome.exitCode.toUInt32

end CalendarRules

open CalendarRules in
def main (words : List String) : IO UInt32 := do
  let some clock ← readClock | return 101
  match Invocation.ofWords words with
  | .error _ =>
    present <| runWords words
      { file? := fun _ => none, input? := none, isWritable := fun _ => false, clock }
  | .ok invocation => present (invocation.run (← gather invocation.command clock))
