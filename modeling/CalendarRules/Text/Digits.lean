/-!
# Decimal digits

Natural numbers as lists of the ten digits, in both directions.  Calendar stamps need a fixed
number of digits, numerals and counts need as few as possible; both are built from `decimal`,
whose value is read back by `decimalValue`.
-/

namespace CalendarRules
namespace Text

/-- The digit of a number below ten. -/
def digit (d : Nat) : Char := Char.ofNat (48 + d)

/-- What a digit counts for. -/
def digitValue (c : Char) : Nat := c.toNat - 48

/-- The number that a list of digits spells. -/
def decimalValue (cs : List Char) : Nat := cs.foldl (fun n c => 10 * n + digitValue c) 0

/-- A number in as few digits as possible. -/
def decimal (n : Nat) : List Char :=
  if n < 10 then [digit n] else decimal (n / 10) ++ [digit (n % 10)]

/-- A number with zeros in front up to a given width. -/
def paddedDecimal (width n : Nat) : List Char :=
  let ds := decimal n
  List.replicate (width - ds.length) '0' ++ ds

/-- An integer: a minus sign where it is negative, then its digits. -/
def integer (i : Int) : List Char :=
  if i < 0 then '-' :: decimal i.natAbs else decimal i.natAbs

/-- All characters are digits, and there is at least one. -/
def isNumeral (cs : List Char) : Bool := !cs.isEmpty && cs.all Char.isDigit

@[simp] theorem decimalValue_nil : decimalValue [] = 0 := rfl

theorem decimalValue_concat (cs : List Char) (c : Char) :
    decimalValue (cs ++ [c]) = 10 * decimalValue cs + digitValue c := by
  simp [decimalValue]

end Text
end CalendarRules
