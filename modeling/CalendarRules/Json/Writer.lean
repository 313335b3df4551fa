import CalendarRules.Json

/-!
# Writing documents

A document is written either compactly, without any blank, or indented by two spaces a level.  In
strings the quote, the backslash and the control characters are escaped, the common ones by a
letter; every other character stands for itself.
-/

namespace CalendarRules
namespace Json

/-- A hexadecimal digit in lower case. -/
def hexDigit (d : Nat) : Char := if d < 10 then Text.digit d else Char.ofNat (87 + d)

/-- One character of a string as it is written. -/
def escape (c : Char) : List Char :=
  if c = '"' then ['\\', '"']
  else if c = '\\' then ['\\', '\\']
  else if c = '\n' then ['\\', 'n']
  else if c = '\r' then ['\\', 'r']
  else if c = '\t' then ['\\', 't']
  else if c = '\x08' then ['\\', 'b']
  else if c = '\x0c' then ['\\', 'f']
  else if c.toNat < 32 then ['\\', 'u', '0', '0', hexDigit (c.toNat / 16), hexDigit (c.toNat % 16)]
  else [c]

/-- A string between its quotes. -/
def quoted (s : String) : List Char := '"' :: s.toList.flatMap escape ++ ['"']

/-! ## Compact -/

mutual

/-- A document without blanks. -/
def compact : Json → List Char
  | .null => ['n', 'u', 'l', 'l']
  | .bool true => ['t', 'r', 'u', 'e']
  | .bool false => ['f', 'a', 'l', 's', 'e']
  | .number n => n.json
  | .string s => quoted s
  | .array items => '[' :: compactItems items ++ [']']
  | .object entries => '\x7b' :: compactEntries entries ++ ['\x7d']

def compactItems : List Json → List Char
  | [] => []
  | [x] => compact x
  | x :: y :: xs => compact x ++ ',' :: compactItems (y :: xs)

def compactEntries : List (String × Json) → List Char
  | [] => []
  | [(key, x)] => quoted key ++ ':' :: compact x
  | (key, x) :: y :: xs => quoted key ++ ':' :: compact x ++ ',' :: compactEntries (y :: xs)

end

/-! ## Indented -/

/-- The start of a line at a level. -/
def newLine (level : Nat) : List Char := '\n' :: List.replicate (2 * level) ' '

mutual

/-- A document with one item or entry per line.  Empty arrays and objects stay closed up. -/
def indented (level : Nat) : Json → List Char
  | .array [] => ['[', ']']
  | .array (x :: xs) => '[' :: indentedItems (level + 1) (x :: xs) ++ newLine level ++ [']']
  | .object [] => ['\x7b', '\x7d']
  | .object (x :: xs) =>
    '\x7b' :: indentedEntries (level + 1) (x :: xs) ++ newLine level ++ ['\x7d']
  | .null => compact .null
  | .bool b => compact (.bool b)
  | .number n => compact (.number n)
  | .string s => compact (.string s)

def indentedItems (level : Nat) : List Json → List Char
  | [] => []
  | [x] => newLine level ++ indented level x
  | x :: y :: xs => newLine level ++ indented level x ++ ',' :: indentedItems level (y :: xs)

def indentedEntries (level : Nat) : List (String × Json) → List Char
  | [] => []
  | [(key, x)] => newLine level ++ quoted key ++ ':' :: ' ' :: indented level x
  | (key, x) :: y :: xs =>
    newLine level ++ quoted key ++ ':' :: ' ' :: indented level x ++
      ',' :: indentedEntries level (y :: xs)

end

/-- The compact text of a document. -/
def text (j : Json) : String := String.ofList j.compact

/-- The indented text of a document, ended by a line break. -/
def prettyText (j : Json) : String := String.ofList (j.indented 0 ++ ['\n'])

/-- The text of a value inside a message: strings without quotes, doubles as they are read by
people, anything else as in a document. -/
def message : Json → String
  | .string s => s
  | .number n => String.ofList n.message
  | j => j.text

end Json
end CalendarRules
