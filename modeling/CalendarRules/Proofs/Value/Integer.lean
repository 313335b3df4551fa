import CalendarRules.Proofs.Binary64.Integer
import CalendarRules.Value.Comparison

/-!
# Comparing integers

Integers are compared as their nearest doubles.  Rounding keeps the order of two integers or makes
them equal, and it makes them equal only where both are at least `2^53` in size.  So every operator
gives what it gives for the integers themselves, except for two integers that share their nearest
double: it takes these for equal (`Operator.compare_integers`).
-/

namespace CalendarRules

namespace Value

/-- An integer of a document as a value. -/
def ofInt (i : Int) (h : IntegerRange i) : Value := .json (.number (.int i h))

end Value

namespace Operator

/-- The comparison of two integers that an operator stands for. -/
def ofIntegers : Operator → Int → Int → Bool
  | .is, i, j | .equals, i, j => i == j
  | .isNot, i, j | .notEquals, i, j => i != j
  | .greater, i, j => j < i
  | .atLeast, i, j => j ≤ i
  | .less, i, j => i < j
  | .atMost, i, j => i ≤ j
  | .unknown _, _, _ => false

variable {op : Operator} {i j k l : Int}

/-- The order of two integers decides every operator. -/
theorem ofIntegers_congr (hlt : i < j ↔ k < l) (hgt : j < i ↔ l < k) :
    op.ofIntegers i j = op.ofIntegers k l := by
  have heq : (i == j) = (k == l) := by
    rw [Bool.eq_iff_iff, beq_iff_eq, beq_iff_eq]
    omega
  cases op with
  | is | equals => exact heq
  | isNot | notEquals => exact congrArg Bool.not heq
  | greater => exact decide_eq_decide.2 hgt
  | less => exact decide_eq_decide.2 hlt
  | atLeast =>
    refine decide_eq_decide.2 ?_
    rw [← Int.not_lt, ← Int.not_lt, hlt]
  | atMost =>
    refine decide_eq_decide.2 ?_
    rw [← Int.not_lt, ← Int.not_lt, hgt]
  | unknown => rfl

theorem relates_numbers (op : Operator) (m n : Number) :
    op.relates (.json (.number m)) (.json (.number n)) =
      op.ofIntegers m.toDouble.toInt n.toDouble.toInt := by
  cases op <;> rfl

theorem compare_numbers (op : Operator) (m n : Number) :
    op.compare (.json (.number m)) (.json (.number n)) =
      op.ofIntegers m.toDouble.toInt n.toDouble.toInt := relates_numbers op m n

/-- Every operator compares two integers exactly, unless they share their nearest double: then it
takes them for equal.  Different integers share their nearest double only from `2^53` on. -/
theorem compare_integers (op : Operator) {i j : Int} (hi : IntegerRange i) (hj : IntegerRange j) :
    (op.compare (.ofInt i hi) (.ofInt j hj) =
      if (Number.int i hi).toDouble = (Number.int j hj).toDouble then op.ofIntegers i i
      else op.ofIntegers i j) ∧
    ((Number.int i hi).toDouble = (Number.int j hj).toDouble → i ≠ j →
      twoPow 53 ≤ i.natAbs ∧ twoPow 53 ≤ j.natAbs) := by
  have hdoubles : op.compare (.ofInt i hi) (.ofInt j hj) = _ :=
    compare_numbers op (.int i hi) (.int j hj)
  constructor
  · rw [hdoubles]
    split_ifs with hshared
    · rw [hshared]
      exact ofIntegers_congr (iff_of_false (Int.lt_irrefl _) (Int.lt_irrefl _))
        (iff_of_false (Int.lt_irrefl _) (Int.lt_irrefl _))
    · have hlt : (Number.int i hi).toDouble.toInt < (Number.int j hj).toDouble.toInt ↔ i < j :=
        Finite64.toInt_ofInt_lt_iff (Number.natAbs_lt hi) (Number.natAbs_lt hj)
          fun h => absurd h hshared
      have hgt : (Number.int j hj).toDouble.toInt < (Number.int i hi).toDouble.toInt ↔ j < i :=
        Finite64.toInt_ofInt_lt_iff (Number.natAbs_lt hj) (Number.natAbs_lt hi)
          fun h => absurd h.symm hshared
      exact ofIntegers_congr hlt hgt
  · intro hshared hne
    constructor
    · by_contra hlt
      exact hne (Finite64.eq_of_ofInt_eq (Number.natAbs_lt hi) (Number.natAbs_lt hj)
        (Nat.lt_of_not_le hlt) hshared)
    · by_contra hlt
      exact hne (Finite64.eq_of_ofInt_eq (Number.natAbs_lt hj) (Number.natAbs_lt hi)
        (Nat.lt_of_not_le hlt) hshared.symm).symm

theorem compare_integers_ends :
    less.compare (.ofInt (-9223372036854775808) (by decide))
      (.ofInt 18446744073709551615 (by decide)) = true := by
  have h := (compare_integers less (i := -9223372036854775808) (j := 18446744073709551615)
    (by decide) (by decide)).1
  rw [if_neg (by decide +kernel)] at h
  exact h

theorem equals_integers_neighbours :
    equals.compare (.ofInt 9007199254740993 (by decide)) (.ofInt 9007199254740992 (by decide)) =
        true ∧
      equals.ofIntegers 9007199254740993 9007199254740992 = false := by
  decide +kernel

end Operator
end CalendarRules
