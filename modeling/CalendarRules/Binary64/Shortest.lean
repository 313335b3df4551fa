import CalendarRules.Binary64
import CalendarRules.Text.Digits

/-!
# The shortest decimal that reads back

A double is written with the fewest digits that still round to it.  All reals between the midpoints
to its two neighbours round to it, the midpoints themselves exactly when its last bit is zero.  So
the text of a double is found on the decimal grids: going from coarse to fine, the first grid
with a point in that interval wins, and of two points on it the nearer one.

The interval is scaled by four, which makes its ends whole numbers of units.  A point of a grid
lies in the interval only if one of the value's two neighbours on that grid does, so
two candidates are tried per grid.

## Layout

`Decimal.plain` places the point without an exponent.  JSON numbers keep `.0` on whole values and
turn to exponents outside `10^-5 .. 10^16`; numbers inside messages never do either.
-/

namespace CalendarRules

/-- The positive number `digits * 10 ^ exponent`. -/
structure Decimal where
  digits : Nat
  exponent : Int
  deriving DecidableEq

/-- Which of two equally near decimals is written. -/
inductive Tie where
  | up
  | even

namespace Decimal

/-- The reals that round to a magnitude, in quarters of a unit. -/
structure Cell where
  value : Nat
  low : Nat
  high : Nat
  /-- The ends belong to the interval. -/
  closed : Bool

/-- The interval of a positive magnitude.  Below a power of two the neighbour is half as far. -/
def Cell.ofMagnitude (m : Nat) : Cell :=
  let step := twoPow (m.log2 - 52)
  let below := if m.log2 > 52 && m == twoPow m.log2 then step else 2 * step
  ⟨4 * m, 4 * m - below, 4 * m + 2 * step, m / step % 2 == 0⟩

def Cell.contains (c : Cell) (factor point : Nat) : Bool :=
  if c.closed then c.low * factor ≤ point && point ≤ c.high * factor
  else c.low * factor < point && point < c.high * factor

/-- The nearest point in the interval on the grid of multiples of `10 ^ exponent`. -/
def Cell.onGrid (c : Cell) (tie : Tie) (exponent : Int) : Option Nat :=
  let spacing := 4 * unitsPerOne * tenPow exponent.toNat
  let factor := tenPow (-exponent).toNat
  let value := c.value * factor
  let k := value / spacing
  match c.contains factor (k * spacing), c.contains factor ((k + 1) * spacing) with
  | true, true =>
    let left := value - k * spacing
    let right := (k + 1) * spacing - value
    if left < right then some k
    else if right < left then some (k + 1)
    else match tie with
      | .up => some (k + 1)
      | .even => some (k + k % 2)
  | true, false => some k
  | false, true => some (k + 1)
  | false, false => none

/-- The first grid with a point in the interval, from `10 ^ exponent` downwards. -/
def Cell.coarsest (c : Cell) (tie : Tie) : Nat → Int → Decimal
  | 0, exponent =>
    ⟨c.value * tenPow (-exponent).toNat / (4 * unitsPerOne * tenPow exponent.toNat), exponent⟩
  | grids + 1, exponent =>
    match c.onGrid tie exponent with
    | some digits => ⟨digits, exponent⟩
    | none => c.coarsest tie grids (exponent - 1)

/-- The shortest decimal that rounds to a positive magnitude.  The search starts above the
first digit, where no grid has a point, and seventeen digits always suffice. -/
def shortest (tie : Tie) (magnitude : Nat) : Decimal :=
  let start := ((magnitude.log2 : Int) - 1074) * 30103 / 100000 + 2
  (Cell.ofMagnitude magnitude).coarsest tie 24 start

/-! ## Layout -/

/-- All digits, with zeros in place of an exponent. -/
def plain (d : Decimal) : List Char :=
  let ds := Text.decimal d.digits
  if 0 ≤ d.exponent then ds ++ List.replicate d.exponent.toNat '0'
  else
    let places := (-d.exponent).toNat
    if places < ds.length then ds.take (ds.length - places) ++ '.' :: ds.drop (ds.length - places)
    else '0' :: '.' :: List.replicate (places - ds.length) '0' ++ ds

/-- One digit before the point, and the exponent with its sign. -/
def scientific (d : Decimal) : List Char :=
  let ds := Text.decimal d.digits
  let e : Int := d.exponent + ds.length - 1
  let mantissa := match ds with
    | first :: second :: rest => first :: '.' :: second :: rest
    | ds => ds
  mantissa ++ 'e' :: (if 0 ≤ e then '+' :: Text.decimal e.toNat else Text.integer e)

/-- Plain for decimal exponents from -5 to 15, whole values with `.0`; else scientific. -/
def json (d : Decimal) : List Char :=
  let e : Int := d.exponent + (Text.decimal d.digits).length - 1
  if -5 ≤ e && e ≤ 15 then
    if 0 ≤ d.exponent then d.plain ++ ['.', '0'] else d.plain
  else d.scientific

end Decimal

/-- The text of a double in a JSON document. -/
def Finite64.json (x : Finite64) : List Char :=
  let sign := if x.negative then ['-'] else []
  sign ++ (if x.isZero then ['0', '.', '0'] else (Decimal.shortest .even x.magnitude).json)

/-- `10^15` in units of `2^-1074`: whole numbers from here on are printed as doubles. -/
def messageIntegerBound : Nat := tenPow 15 * unitsPerOne

/-- The text of a double inside a message: an integer where it is whole and below `10^15`, else
its shortest digits without an exponent. -/
def Finite64.message (x : Finite64) : List Char :=
  if x.isWhole && x.magnitude < messageIntegerBound then Text.integer x.truncate
  else (if x.negative then ['-'] else []) ++ (Decimal.shortest .up x.magnitude).plain

def Binary64.message : Binary64 → String
  | .finite x => String.ofList x.message
  | .infinite negative => if negative then "-inf" else "inf"

end CalendarRules
