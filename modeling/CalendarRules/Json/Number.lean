import CalendarRules.Binary64.Shortest

/-!
# Numbers of a document

A number is an integer where it is written as one and fits 64 bits, signed or unsigned; any other
number is a double.  The two stay apart for ever: `1` and `1.0` are different numbers of a document,
though they denote the same value.
-/

namespace CalendarRules

/-- The integers that are kept as such: those of 64 bits, signed or unsigned. -/
def IntegerRange (i : Int) : Prop := -9223372036854775808 ≤ i ∧ i < 18446744073709551616

instance (i : Int) : Decidable (IntegerRange i) := inferInstanceAs (Decidable (_ ∧ _))

inductive Number where
  | int (value : Int) (inRange : IntegerRange value)
  | float (value : Finite64)
  deriving DecidableEq

namespace Number

theorem natAbs_lt {i : Int} (h : IntegerRange i) : i.natAbs < twoPow 128 := by
  obtain ⟨h1, h2⟩ := h
  refine Nat.lt_of_le_of_lt (m := 18446744073709551616) ?_ (by decide)
  omega

/-- The value as a double; integers past 53 bits are rounded. -/
def toDouble : Number → Finite64
  | .int i h => .ofInt i (natAbs_lt h)
  | .float x => x

/-- The text of a number in a document. -/
def json : Number → List Char
  | .int i _ => Text.integer i
  | .float x => x.json

/-- The text of a number inside a message. -/
def message : Number → List Char
  | .int i _ => Text.integer i
  | .float x => x.message

/-- Equality of numbers of a document: an integer never equals a double, and the two zeros among
the doubles are equal. -/
def same : Number → Number → Bool
  | .int i _, .int j _ => i == j
  | .float x, .float y => x.toInt == y.toInt
  | _, _ => false

end Number
end CalendarRules
