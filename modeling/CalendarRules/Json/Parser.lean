import CalendarRules.Json.Numeral
import CalendarRules.Json.Source
import CalendarRules.Text.Size

/-!
# From text to source

The scanner turns any text into a `Source`; where the text is broken, so is the source.  Each step
gives what it has scanned and the text after it, or the fault that keeps the text from being
followed any further.

## Two kinds of trouble

Some trouble stops the scanner: a missing bracket, a bad escape, a control character inside a
string.  Other trouble spoils only the part that it is in: a numeral out of range, half of a
surrogate pair, an array or object nested too deep.  The scanner goes on after such a part, and
leaves a `broken` node whose `skipping` is what a reader meets that passes it over.

## Fuel

Every call that does not take a character off the text hands it to one that does, so twice the
length of the text is enough fuel, and `Document.within` supplies it.
-/

namespace CalendarRules
namespace Source

/-- What was scanned, with the rest of the text or the reason why there is none. -/
abbrev Scanned (α : Type) := α × Except Fault (List Char)

/-- The blanks between the parts of a document. -/
def isGap (c : Char) : Bool := c = ' ' || c = '\n' || c = '\t' || c = '\r'

def skipGap (cs : List Char) : List Char := cs.dropWhile isGap

/-- Arrays and objects may be nested this deep. -/
def maxDepth : Nat := 127

/-- A place that the scanner cannot get past. -/
def stop (fault : Fault) : Scanned Source := (.broken (.final fault), .error fault)

/-! ## Literals and numbers -/

/-- Takes the rest of a literal off the text. -/
def scanLiteral (value : Source) : List Char → List Char → Scanned Source
  | [], cs => (value, .ok cs)
  | _ :: _, [] => (.broken ⟨.truncated, some .truncated, .malformed⟩, .error .truncated)
  | l :: ls, c :: cs => if c = l then scanLiteral value ls cs else stop .malformed

/-- Takes a number off the text.  To who passes it over, a numeral without its last digits is
malformed, even at the end of the text. -/
def scanNumber (cs : List Char) : Scanned Source :=
  match Numeral.scan cs with
  | .error fault => (.broken ⟨fault, some .malformed, .malformed⟩, .error fault)
  | .ok (numeral, cs) =>
    match numeral.value? with
    | some n => (.number n, .ok cs)
    | none => (.broken ⟨.malformed, none, .malformed⟩, .ok cs)

/-! ## Strings -/

def hexValue? (c : Char) : Option Nat :=
  if c.isDigit then some (Text.digitValue c)
  else if 'a' ≤ c && c ≤ 'f' then some (c.toNat - 87)
  else if 'A' ≤ c && c ≤ 'F' then some (c.toNat - 55)
  else none

/-- Takes the four digits of a `\u` escape.  A text with fewer than four bytes left ends too
early, whatever those bytes are. -/
def scanHex (cs : List Char) : Except Fault (Nat × List Char) :=
  match cs with
  | a :: b :: c :: d :: cs =>
    match hexValue? a, hexValue? b, hexValue? c, hexValue? d with
    | some a, some b, some c, some d => .ok (((a * 16 + b) * 16 + c) * 16 + d, cs)
    | _, _, _, _ => .error .malformed
  | cs => if Text.byteCount cs < 4 then .error .truncated else .error .malformed

/-- The character behind a one-letter escape. -/
def letterEscape? (c : Char) : Option Char :=
  if c = '"' || c = '\\' || c = '/' then some c
  else if c = 'b' then some '\x08'
  else if c = 'f' then some '\x0c'
  else if c = 'n' then some '\n'
  else if c = 'r' then some '\r'
  else if c = 't' then some '\t'
  else none

def isHighSurrogate (n : Nat) : Bool := 0xD800 ≤ n && n ≤ 0xDBFF

def isLowSurrogate (n : Nat) : Bool := 0xDC00 ≤ n && n ≤ 0xDFFF

/-- Takes a string off the text, its first quote gone.  `read` holds the characters so far in
reverse, `spoiled` the trouble that a reader has met in them. -/
def scanString : Nat → List Char → Option Fault → List Char → Scanned (Except Break String)
  | 0, _, _, _ => (.error (.final .truncated), .error .truncated)
  | fuel + 1, read, spoiled, cs =>
    let stop (fault : Fault) : Scanned (Except Break String) :=
      (.error ⟨spoiled.getD fault, some fault, spoiled.getD fault⟩, .error fault)
    let spoil := scanString fuel read (some (spoiled.getD .malformed))
    match cs with
    | [] => stop .truncated
    | '"' :: cs =>
      match spoiled with
      | none => (.ok (String.ofList read.reverse), .ok cs)
      | some fault => (.error ⟨fault, none, fault⟩, .ok cs)
    | ['\\'] => stop .truncated
    | '\\' :: 'u' :: cs =>
      match scanHex cs with
      | .error fault => stop fault
      | .ok (n, cs) =>
        if isLowSurrogate n then spoil cs
        else if isHighSurrogate n then
          match cs with
          | [] => stop .truncated
          | ['\\'] => stop .truncated
          | '\\' :: 'u' :: cs =>
            match scanHex cs with
            | .error fault => stop fault
            | .ok (m, cs) =>
              if isLowSurrogate m then
                let c := Char.ofNat (0x10000 + (n - 0xD800) * 0x400 + (m - 0xDC00))
                scanString fuel (c :: read) spoiled cs
              else spoil cs
          | cs => spoil cs
        else scanString fuel (Char.ofNat n :: read) spoiled cs
    | '\\' :: c :: cs =>
      match letterEscape? c with
      | some c => scanString fuel (c :: read) spoiled cs
      | none => stop .malformed
    | c :: cs => if c.toNat < 32 then stop .malformed else scanString fuel (c :: read) spoiled cs

/-! ## Values -/

mutual

/-- Takes a value off the text.  `level` is how much deeper it may be nested. -/
def scanValue : Nat → Nat → List Char → Scanned Source
  | 0, _, _ => stop .malformed
  | fuel + 1, level, cs =>
    let nested (scan : Nat → Scanned Source) : Scanned Source :=
      match level with
      | 0 =>
        let (x, rest) := scan 0
        (.broken ⟨.malformed, x.obstacle?, .malformed⟩, rest)
      | level + 1 => scan level
    match skipGap cs with
    | [] => stop .truncated
    | c :: cs =>
      if c = 'n' then scanLiteral .null ['u', 'l', 'l'] cs
      else if c = 't' then scanLiteral (.bool true) ['r', 'u', 'e'] cs
      else if c = 'f' then scanLiteral (.bool false) ['a', 'l', 's', 'e'] cs
      else if c = '"' then
        match scanString (cs.length + 1) [] none cs with
        | (.ok s, rest) => (.string s, rest)
        | (.error place, rest) => (.broken place, rest)
      else if c = '-' || c.isDigit then scanNumber (c :: cs)
      else if c = '[' then nested fun level =>
        match skipGap cs with
        | ']' :: cs => (.array [] none, .ok cs)
        | [] => (.array [] (some .truncated), .error .truncated)
        | cs =>
          let ((items, ending), rest) := scanItems fuel level cs
          (.array items ending, rest)
      else if c = '\x7b' then nested fun level =>
        match skipGap cs with
        | '\x7d' :: cs => (.object [] none, .ok cs)
        | cs =>
          let ((entries, ending), rest) := scanEntries fuel level cs
          (.object entries ending, rest)
      else stop .malformed

/-- Takes the items of an array up to its end, from the start of one on. -/
def scanItems : Nat → Nat → List Char → Scanned (List Source × Option Fault)
  | 0, _, _ => (([], some .malformed), .error .malformed)
  | fuel + 1, level, cs =>
    let (x, rest) := scanValue fuel level cs
    let stop (fault : Fault) : Scanned (List Source × Option Fault) :=
      (([x], some fault), .error fault)
    match rest with
    | .error fault => stop fault
    | .ok cs =>
      match skipGap cs with
      | [] => stop .truncated
      | ']' :: cs => (([x], none), .ok cs)
      | ',' :: cs =>
        match skipGap cs with
        | ']' :: _ =>
          (([x, .broken (.final .malformed)], some .malformed), .error .malformed)
        | cs =>
          let ((xs, ending), rest) := scanItems fuel level cs
          ((x :: xs, ending), rest)
      | _ => stop .malformed

/-- Takes the entries of an object up to its end, from the start of a key on.  Where no key can be
read there are no more entries, and the last one holds what stands in place of its key. -/
def scanEntries :
    Nat → Nat → List Char → Scanned (List (Except Break String × Source) × Option Fault)
  | 0, _, _ => (([], some .malformed), .error .malformed)
  | fuel + 1, level, cs =>
    let stop (key : Except Break String) (x : Source) (fault : Fault) :
        Scanned (List (Except Break String × Source) × Option Fault) :=
      (([(key, x)], some fault), .error fault)
    match cs with
    | [] => stop (.error (.final .truncated)) (.broken (.final .truncated)) .truncated
    | '"' :: cs =>
      let (key, rest) := scanString (cs.length + 1) [] none cs
      match rest, key with
      | .error fault, .error place => stop key (.broken place) fault
      | .error fault, .ok _ => stop key .null fault
      | .ok cs, _ =>
        match skipGap cs with
        | [] => stop key (.broken (.final .truncated)) .truncated
        | ':' :: cs =>
          let (x, rest) := scanValue fuel level cs
          match rest with
          | .error fault => stop key x fault
          | .ok cs =>
            match skipGap cs with
            | [] => stop key x .truncated
            | '\x7d' :: cs => (([(key, x)], none), .ok cs)
            | ',' :: cs =>
              let ((xs, ending), rest) := scanEntries fuel level (skipGap cs)
              (((key, x) :: xs, ending), rest)
            | _ => stop key x .malformed
        | _ => stop key (.broken (.final .malformed)) .malformed
    | cs => stop (.error (.final .malformed)) (scanValue fuel (level + 1) cs).1 .malformed

end

end Source

/-- A text as a source, and what comes after it. -/
structure Document where
  root : Source
  /-- Trouble after the end of the document. -/
  trailing : Option Fault

/-- The document that a text holds, nested up to a given depth. -/
def Document.within (maxDepth : Nat) (text : String) : Document :=
  let cs := text.toList
  let (root, rest) := Source.scanValue (2 * cs.length + 2) maxDepth cs
  match rest with
  | .error _ => ⟨root, none⟩
  | .ok cs => ⟨root, if (Source.skipGap cs).isEmpty then none else some .malformed⟩

/-- The document that a text holds. -/
def Document.ofText (text : String) : Document := Document.within Source.maxDepth text

/-- The document as a value. -/
def Document.json (document : Document) : Except Fault Json := do
  let j ← document.root.json
  match document.trailing with
  | some fault => .error fault
  | none => .ok j

/-- The value of a text. -/
def Json.ofText (text : String) : Except Fault Json := (Document.ofText text).json

end CalendarRules
