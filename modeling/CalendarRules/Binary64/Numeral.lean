import CalendarRules.Binary64
import CalendarRules.Text.Blank
import CalendarRules.Text.Digits

/-!
# Numbers written as text

A string counts as a number when it is a decimal numeral: an optional sign, digits with an optional
point among them, and an optional power of ten.  Its value is the double nearest to the number
written.
-/

namespace CalendarRules
namespace Binary64

/-- The double nearest to `digits * 10 ^ exponent`.  Numbers from `10^400` on overflow and numbers
below `10^-400` vanish, so powers of ten beyond those are never computed. -/
def ofDecimal (negative : Bool) (digits : Nat) (exponent : Int) : Binary64 :=
  if digits = 0 then ofRatio negative 0 1
  else if 400 < exponent then .infinite negative
  else if exponent + (digits.log2 / 3 + 1 : Nat) < -400 then ofRatio negative 0 1
  else ofRatio negative (digits * tenPow exponent.toNat * unitsPerOne) (tenPow (-exponent).toNat)

/-- Takes a sign off a text; `true` for a minus. -/
def takeSign : List Char → Bool × List Char
  | '-' :: cs => (true, cs)
  | '+' :: cs => (false, cs)
  | cs => (false, cs)

/-- The power of ten at the end of a numeral: nothing, or `e` and a signed number. -/
def exponent? : List Char → Option Int
  | [] => some 0
  | c :: cs =>
    if c = 'e' || c = 'E' then
      let (negative, ds) := takeSign cs
      if Text.isNumeral ds then
        some (if negative then -(Text.decimalValue ds : Int) else Text.decimalValue ds)
      else none
    else none

/-- The double that a numeral denotes. -/
def ofNumeral? (cs : List Char) : Option Binary64 :=
  let (negative, cs) := takeSign cs
  let whole := cs.takeWhile Char.isDigit
  let cs := cs.dropWhile Char.isDigit
  let (fraction, cs) := match cs with
    | '.' :: cs => (cs.takeWhile Char.isDigit, cs.dropWhile Char.isDigit)
    | cs => ([], cs)
  if whole.isEmpty && fraction.isEmpty then none
  else (exponent? cs).map fun e =>
    ofDecimal negative (Text.decimalValue (whole ++ fraction)) (e - fraction.length)

/-- The finite number that a string denotes, blanks around it aside; a blank string counts as
zero. -/
def ofText? (s : String) : Option Finite64 :=
  let cs := Text.trim s.toList
  if cs.isEmpty then some .zero else (ofNumeral? cs).bind finite?

end Binary64
end CalendarRules
