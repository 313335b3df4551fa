import CalendarRules.Binary64.Numeral
import CalendarRules.Json.Number
import CalendarRules.Json.Fault

/-!
# Numerals in a document

A numeral is scanned into its parts first and valued afterwards, because its grammar and its range
are judged at different times: a numeral that is passed over must be well formed but may be too
large.

## The value of a numeral with a point or an exponent

The digits are gathered into a whole number for as long as it fits 64 bits; later digits of the
whole part count as powers of ten only, later digits of the fraction not at all.  That number is
rounded to a double and then multiplied, or divided, by the double nearest to the power of ten.  The
result may differ from the double nearest to the numeral in the last bit, and it is the value
nonetheless.
-/

namespace CalendarRules

/-- The parts of a numeral. -/
structure Numeral where
  negative : Bool
  whole : List Char
  /-- The digits after the point, of which there is at least one if there is a point. -/
  fraction : Option (List Char)
  /-- The exponent with its sign. -/
  exponent : Option (Bool × List Char)

namespace Numeral

/-! ## Scanning -/

/-- Takes one or more digits. -/
def scanDigits (cs : List Char) : Except Fault (List Char × List Char) :=
  match cs with
  | [] => .error .truncated
  | c :: _ =>
    if c.isDigit then .ok (cs.takeWhile Char.isDigit, cs.dropWhile Char.isDigit)
    else .error .malformed

/-- Takes the whole part, in which a zero stands alone. -/
def scanWhole (cs : List Char) : Except Fault (List Char × List Char) :=
  match cs with
  | '0' :: c :: cs => if c.isDigit then .error .malformed else .ok (['0'], c :: cs)
  | cs => scanDigits cs

def scanFraction (cs : List Char) : Except Fault (Option (List Char) × List Char) :=
  match cs with
  | '.' :: cs => (scanDigits cs).map fun (ds, cs) => (some ds, cs)
  | cs => .ok (none, cs)

def scanExponent (cs : List Char) : Except Fault (Option (Bool × List Char) × List Char) :=
  match cs with
  | c :: cs =>
    if c = 'e' || c = 'E' then
      let (negative, cs) := Binary64.takeSign cs
      (scanDigits cs).map fun (ds, cs) => (some (negative, ds), cs)
    else .ok (none, c :: cs)
  | [] => .ok (none, [])

/-- Takes a numeral off the front of a text. -/
def scan (cs : List Char) : Except Fault (Numeral × List Char) := do
  let (negative, cs) := match cs with
    | '-' :: cs => (true, cs)
    | cs => (false, cs)
  let (whole, cs) ← scanWhole cs
  let (fraction, cs) ← scanFraction cs
  let (exponent, cs) ← scanExponent cs
  return (⟨negative, whole, fraction, exponent⟩, cs)

/-! ## Value -/

/-- Extends a number by digits while it fits 64 bits; also gives the digits left over. -/
def gather : Nat → List Char → Nat × List Char
  | n, [] => (n, [])
  | n, d :: ds =>
    let n' := 10 * n + Text.digitValue d
    if n' < 18446744073709551616 then gather n' ds else (n, d :: ds)

/-- The double nearest to a power of ten with an exponent up to 308. -/
def powerOfTen (exponent : Nat) : Finite64 :=
  ((Binary64.ofDecimal false 1 exponent).finite?).getD .one

/-- A positive double times a power of ten.  Divisions by `10^308` come first where the exponent
asks for more than one; two of them bring any 64-bit number to zero.  Overflow has no result. -/
def scale : Nat → Finite64 → Int → Option Finite64
  | 0, x, _ => some x
  | divisions + 1, x, e =>
    if e.natAbs ≤ 308 then
      if 0 ≤ e then (x.mul (powerOfTen e.natAbs)).finite?
      else (x.div (powerOfTen e.natAbs)).finite?
    else if x.isZero then some x
    else if 0 ≤ e then none
    else ((x.div (powerOfTen 308)).finite?).bind fun y => scale divisions y (e + 308)

/-- The largest exponent that is read; a larger one overflows or vanishes at once. -/
def maxExponent : Nat := 2147483647

def withSign (negative : Bool) (x : Finite64) : Finite64 :=
  ⟨negative, x.magnitude, x.representable⟩

/-- The double for a gathered number and a power of ten, given the exponent part. -/
def double? (n : Nat) (places : Int) (exponent : Option (Bool × List Char)) : Option Finite64 :=
  let x := ((Binary64.ofNat n).finite?).getD .zero
  match exponent with
  | none => scale 4 x places
  | some (negative, ds) =>
    let e := Text.decimalValue ds
    if maxExponent < e then
      if n = 0 || negative then some .zero else none
    else scale 4 x (if negative then places - e else places + e)

/-- The value of a numeral; `none` if it is too large for a double. -/
def value? (numeral : Numeral) : Option Number :=
  let (n, left) := gather 0 numeral.whole
  let places : Int := left.length
  let float (x : Option Finite64) := x.map fun x => .float (withSign numeral.negative x)
  match numeral.fraction, numeral.exponent with
  | none, none =>
    let i : Int := if numeral.negative then -n else n
    if h : IntegerRange i ∧ left = [] ∧ ¬(numeral.negative = true ∧ n = 0) then some (.int i h.1)
    else float (double? n places none)
  | fraction, exponent =>
    let ds := fraction.getD []
    let (n, ignored) := gather n ds
    float (double? n (places - (ds.length - ignored.length)) exponent)

end Numeral
end CalendarRules
