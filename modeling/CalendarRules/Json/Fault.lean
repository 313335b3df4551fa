/-!
# Broken text

Text that is not a document is either malformed or ends too early.  A fault that only shows when a
part is read, such as a number too large for a double, does not stop a reader that passes the part
over, and a reader that wants a name looks at the first character of a part and no further where
no name begins; `Break` keeps these judgements apart.
-/

namespace CalendarRules

/-- Why a text is not a document. -/
inductive Fault where
  | malformed
  /-- The text ends inside the document. -/
  | truncated
  deriving DecidableEq, Repr

/-- A place where a text breaks. -/
structure Break where
  /-- What a reader meets that wants the value. -/
  reading : Fault
  /-- What a reader meets that only wants to get past it. -/
  skipping : Option Fault
  /-- What a reader meets that wants one of a few names. -/
  naming : Fault
  deriving DecidableEq, Repr

/-- A place where the text cannot be followed any further. -/
def Break.final (fault : Fault) : Break := ⟨fault, some fault, fault⟩

end CalendarRules
