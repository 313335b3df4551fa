import CalendarRules.Power
import CalendarRules.Text.Blank
import CalendarRules.Text.Digits
import CalendarRules.Text.Size
import CalendarRules.Time.Instant

/-!
# Reading instants

Two readers of timestamps with a zone offset.  The strict one takes the standard form only: four
digits for the year and two for every other number, single separators, and an offset `Z` or
`±hh:mm`.  The relaxed one takes what people write: fewer digits, blanks around the separators of
the date and of the time, a sign before the year and then any number of digits, `UTC` for the
offset, and an offset with blanks or colons, or nothing, between hours and minutes.

Both allow second 60, the leap second, in any minute, and keep nine digits of a fraction.

## The first fault

Both go from left to right and report the first thing that is wrong, but they differ in when a
number counts as wrong.  The strict reader looks at the length of the text first, judges the date as
soon as it has been read, the time of day after its fraction, and the size of the offset when
nothing follows it.  The relaxed reader judges every number by its own bounds as it comes, and only
at the very end whether the date exists.
-/

namespace CalendarRules

/-- Why a timestamp cannot be read. -/
inductive TimestampFault where
  | tooShort
  | invalid
  | outOfRange
  /-- The instant lies outside the range once the offset is taken off. -/
  | impossible
  | trailing
  deriving DecidableEq

def TimestampFault.message : TimestampFault → String
  | .tooShort => "premature end of input"
  | .invalid => "input contains invalid characters"
  | .outOfRange => "input is out of range"
  | .impossible => "no possible date and time matching input"
  | .trailing => "trailing input"

namespace Timestamp

/-- What is read off the front of a text, with the text after it. -/
abbrev Taken (α : Type) := α × List Char

/-- Takes at least `least` and at most `most` digits. -/
def takeNumber (least most : Nat) (cs : List Char) : Except TimestampFault (Taken Nat) :=
  if Text.byteCount cs < least then .error .tooShort
  else
    let ds := (cs.take most).takeWhile Char.isDigit
    if ds.length < least then .error .invalid
    else if 9223372036854775808 ≤ Text.decimalValue ds then .error .outOfRange
    else .ok (Text.decimalValue ds, cs.drop ds.length)

/-- Takes a separator. -/
def takeMark (mark : Char) : List Char → Except TimestampFault (List Char)
  | [] => .error .tooShort
  | c :: cs => if c = mark then .ok cs else .error .invalid

/-- A number between two bounds. -/
def within (low high n : Nat) : Except TimestampFault Nat :=
  if low ≤ n ∧ n ≤ high then .ok n else .error .outOfRange

/-- Takes what stands between date and time. -/
def takeDateEnd : List Char → Except TimestampFault (List Char)
  | [] => .error .tooShort
  | c :: cs => if c = 'T' || c = 't' || c = ' ' then .ok cs else .error .invalid

/-- Takes the fraction of a second, in nanoseconds. -/
def takeFraction : List Char → Except TimestampFault (Taken Nat)
  | '.' :: cs => do
    let (n, rest) ← takeNumber 1 9 cs
    let digits := cs.length - rest.length
    return (n * tenPow (9 - digits), rest.dropWhile Char.isDigit)
  | cs => .ok (0, cs)

/-- Takes two characters that have to be digits; the second may be told apart by its range. -/
def takeTwoDigits (cs : List Char) : Except TimestampFault (Taken Nat) :=
  match cs with
  | a :: b :: cs =>
    if a.isDigit && b.isDigit then .ok (10 * Text.digitValue a + Text.digitValue b, cs)
    else .error .invalid
  | cs => if Text.byteCount cs < 2 then .error .tooShort else .error .invalid

/-- Takes an offset in seconds: `Z`, or a sign, hours, a gap and minutes. -/
def takeOffset (takeGap : List Char → Except TimestampFault (List Char)) (cs : List Char) :
    Except TimestampFault (Taken Int) :=
  let signed (negative : Bool) (cs : List Char) : Except TimestampFault (Taken Int) := do
    let (hours, cs) ← takeTwoDigits cs
    let cs ← takeGap cs
    let (minutes, cs) ← takeTwoDigits cs
    if 60 ≤ minutes then throw .outOfRange
    let seconds : Int := hours * 3600 + minutes * 60
    return (if negative then -seconds else seconds, cs)
  match cs with
  | [] => .error .tooShort
  | c :: cs =>
    if c = 'Z' || c = 'z' then .ok (0, cs)
    else if c = '+' then signed false cs
    else if c = '-' || c = '\u2212' then signed true cs
    else .error .invalid

/-! ## Date and time of day -/

/-- A time of day as clocks show it. -/
structure Clock where
  hour : Nat
  minute : Nat
  /-- Sixty in a leap second. -/
  second : Nat
  nano : Nat

/-- The instant at which clocks that are `offset` seconds ahead show a date and a time of day. -/
def Clock.instant? (clock : Clock) (date : Date) (offset : Int) : Option Instant :=
  let leap := clock.second = 60
  let second : Int := clock.hour * 3600 + clock.minute * 60 + if leap then 59 else clock.second
  let nano := if leap then 1000000000 + clock.nano else clock.nano
  Instant.ofSeconds? (date.toDay * 86400 + second - offset) nano

/-! ## The strict form -/

/-- Takes exactly so many digits. -/
def takeDigits (count : Nat) (cs : List Char) : Except TimestampFault (Taken Nat) :=
  let ds := (cs.take count).takeWhile Char.isDigit
  if ds.length = count then .ok (Text.decimalValue ds, cs.drop count) else .error .invalid

/-- Takes a date, which has to exist. -/
def takeStrictDate (cs : List Char) : Except TimestampFault (Taken Date) := do
  let (year, cs) ← takeDigits 4 cs
  let cs ← takeMark '-' cs
  let (month, cs) ← takeDigits 2 cs
  let cs ← takeMark '-' cs
  let (day, cs) ← takeDigits 2 cs
  match Date.ofParts? year month day with
  | some date => return (date, cs)
  | none => throw .outOfRange

/-- Takes a time of day with its fraction. -/
def takeStrictClock (cs : List Char) : Except TimestampFault (Taken Clock) := do
  let (hour, cs) ← takeDigits 2 cs
  let cs ← takeMark ':' cs
  let (minute, cs) ← takeDigits 2 cs
  let cs ← takeMark ':' cs
  let (second, cs) ← takeDigits 2 cs
  let (nano, cs) ← takeFraction cs
  if 24 ≤ hour ∨ 60 ≤ minute ∨ 60 < second then throw .outOfRange
  return (⟨hour, minute, second, nano⟩, cs)

/-- Bytes of the shortest date and time of day. -/
def leastLength : Nat := 19

/-- Reads a text in the strict form. -/
def readStrict (cs : List Char) : Except TimestampFault Instant := do
  if Text.byteCount cs < leastLength then throw .tooShort
  let (date, cs) ← takeStrictDate cs
  let cs ← takeDateEnd cs
  let (clock, cs) ← takeStrictClock cs
  let (offset, cs) ← takeOffset (takeMark ':') cs
  if !cs.isEmpty then throw .trailing
  if 86400 ≤ offset.natAbs then throw .outOfRange
  match clock.instant? date offset with
  | some t => return t
  | none => throw .impossible

/-! ## The relaxed form -/

/-- The parts of a timestamp as they are read. -/
structure Parts where
  year : Int
  month : Nat
  day : Nat
  clock : Clock
  /-- Seconds by which the local time is ahead. -/
  offset : Int

/-- Years that a date can have. -/
def yearInRange (year : Int) : Bool := -262143 ≤ year && year ≤ 262142

/-- The instant with the given parts. -/
def Parts.toInstant (p : Parts) : Except TimestampFault Instant :=
  match Date.ofParts? p.year p.month p.day with
  | none => .error .outOfRange
  | some date =>
    if !yearInRange p.year || 86400 ≤ p.offset.natAbs then .error .outOfRange
    else match p.clock.instant? date p.offset with
      | some t => .ok t
      | none => .error .impossible

/-- Takes a year: four digits at most, or a sign and any number of them. -/
def takeYear (cs : List Char) : Except TimestampFault (Taken Int) := do
  let (year, cs) ← match Text.trimStart cs with
    | '-' :: cs => (takeNumber 1 cs.length cs).map fun (n, cs) => (-(n : Int), cs)
    | '+' :: cs => (takeNumber 1 cs.length cs).map fun (n, cs) => ((n : Int), cs)
    | cs => (takeNumber 1 4 cs).map fun (n, cs) => ((n : Int), cs)
  if year < -2147483648 ∨ 2147483648 ≤ year then throw .outOfRange
  return (year, cs)

/-- Takes one or two digits after any blanks. -/
def takeShort (low high : Nat) (cs : List Char) : Except TimestampFault (Taken Nat) := do
  let (n, cs) ← takeNumber 1 2 (Text.trimStart cs)
  return (← within low high n, cs)

/-- Takes a separator after any blanks. -/
def takeLooseMark (mark : Char) (cs : List Char) : Except TimestampFault (List Char) :=
  takeMark mark (Text.trimStart cs)

/-- Takes `UTC` in any case, or an offset with any blanks and colons inside it. -/
def takeLooseOffset (cs : List Char) : Except TimestampFault (Taken Int) :=
  if (cs.take 3).map Char.toUpper = ['U', 'T', 'C'] then .ok (0, cs.drop 3)
  else takeOffset (fun cs => .ok (cs.dropWhile fun c => c = ':' || Text.isBlank c)) cs

/-- Takes a timestamp in the relaxed form. -/
def takeRelaxed (cs : List Char) : Except TimestampFault (Taken Parts) := do
  let (year, cs) ← takeYear cs
  let cs ← takeLooseMark '-' cs
  let (month, cs) ← takeShort 1 12 cs
  let cs ← takeLooseMark '-' cs
  let (day, cs) ← takeShort 1 31 cs
  let cs ← takeDateEnd cs
  let (hour, cs) ← takeShort 0 23 cs
  let cs ← takeLooseMark ':' cs
  let (minute, cs) ← takeShort 0 59 cs
  let cs ← takeLooseMark ':' cs
  let (second, cs) ← takeShort 0 60 cs
  let (nano, cs) ← takeFraction cs
  let (offset, cs) ← takeLooseOffset (Text.trimStart cs)
  return (⟨year, month, day, ⟨hour, minute, second, nano⟩, offset⟩, cs)

end Timestamp

namespace Instant

/-- Reads a timestamp in the standard form. -/
def ofStrict (text : String) : Except TimestampFault Instant := Timestamp.readStrict text.toList

/-- Reads a timestamp in the relaxed form; blanks may follow it. -/
def ofRelaxed (text : String) : Except TimestampFault Instant := do
  let (parts, rest) ← Timestamp.takeRelaxed text.toList
  if !(Text.trimStart rest).isEmpty then throw .trailing
  parts.toInstant

end Instant
end CalendarRules
