import CalendarRules.Text.Digits
import CalendarRules.Text.Invisible

/-!
# Quotations in messages

A message quotes a text between double quotes.  Quotes and backslashes in it are escaped, line
breaks and tabs are written as letters, and a character that would not show is written by its number
between braces.
-/

namespace CalendarRules
namespace Text

/-- A number in hexadecimal digits, as few as possible. -/
def hexadecimal (n : Nat) : List Char := Nat.toDigits 16 n

/-- One character of a quotation. -/
def quotedChar (c : Char) : List Char :=
  if c = '"' || c = '\\' then ['\\', c]
  else if c = '\n' then ['\\', 'n']
  else if c = '\r' then ['\\', 'r']
  else if c = '\t' then ['\\', 't']
  else if c.toNat = 0 then ['\\', '0']
  else if isInvisible c then ['\\', 'u', '\x7b'] ++ hexadecimal c.toNat ++ ['\x7d']
  else [c]

/-- A text between quotes. -/
def quotation (s : String) : String :=
  String.ofList ('"' :: s.toList.flatMap quotedChar ++ ['"'])

end Text
end CalendarRules
