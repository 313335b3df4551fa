import CalendarRules.Power

/-!
# Doubles, counted in units of the smallest one

Numbers with a point are doubles: they have 53 significant bits, and the smallest positive one is
`2^-1074`.  Every finite double is therefore a whole number of units of `2^-1074`, and this module
stores it that way.  Order and equality of doubles are then order and equality of integers, a
product or a quotient is an exact ratio of naturals, and rounding is one function on such ratios.

## Which magnitudes are doubles

A magnitude of `m` units is a double when it lies below `2^2098` units (that is, below `2^1024`)
and its last significant bit is at most 52 places below its first: `Representable m`.
`representable_rounded` shows that `rounded` lands there unless it overflows.

## Infinities

An operation on doubles may overflow, and the infinity it gives can still be compared and printed.
There is no value for "not a number": the one operation that could give it, the remainder, says so
in its type.  `toInt` places the infinities just outside the finite range, so that it orders all
values.
-/

namespace CalendarRules

/-- The number of units of `2^-1074` in one. -/
def unitsPerOne : Nat := twoPow 1074

/-- `2^1024` in units of `2^-1074`, the first magnitude that is too large for a double. -/
def overflow : Nat := twoPow 2098

theorem unitsPerOne_pos : 0 < unitsPerOne := by
  unfold unitsPerOne; exact twoPow_pos 1074

theorem overflow_pos : 0 < overflow := by
  unfold overflow; exact twoPow_pos 2098

/-- A magnitude in units of `2^-1074` that a double can hold: below `2^1024`, with at most 53
significant bits. -/
def Representable (magnitude : Nat) : Prop :=
  magnitude < overflow ∧ twoPow (magnitude.log2 - 52) ∣ magnitude

instance (magnitude : Nat) : Decidable (Representable magnitude) :=
  inferInstanceAs (Decidable (_ ∧ _))

/-- A finite double.  The two zeros differ in their sign only. -/
structure Finite64 where
  negative : Bool
  /-- Its distance from zero in units of `2^-1074`. -/
  magnitude : Nat
  representable : Representable magnitude
  deriving DecidableEq

/-- A double other than "not a number". -/
inductive Binary64 where
  | finite (value : Finite64)
  | infinite (negative : Bool)
  deriving DecidableEq

/-! ## Rounding -/

/-- The integer nearest to `num / den`; a tie goes to the even neighbour. -/
def nearest (num den : Nat) : Nat :=
  let q := num / den
  let r := num % den
  if 2 * r < den then q else if den < 2 * r then q + 1 else q + q % 2

/-- The magnitude with 53 significant bits nearest to `num / den` units. -/
def rounded (num den : Nat) : Nat :=
  let step := twoPow ((num / den).log2 - 52)
  nearest num (den * step) * step

theorem nearest_le (num den bound : Nat) (h : num ≤ bound * den) (hb : 0 < bound) :
    nearest num den ≤ bound := by
  unfold nearest
  have hq := Nat.div_add_mod num den
  rcases Nat.eq_zero_or_pos den with rfl | hd
  · simp at h; subst h; simp
  · have hr := Nat.mod_lt num hd
    simp only
    generalize hqd : num / den = q at *
    generalize num % den = r at *
    have hqb : q ≤ bound := by
      rw [← hqd]; exact Nat.div_le_of_le_mul (by rw [Nat.mul_comm]; exact h)
    rcases Nat.lt_or_eq_of_le hqb with hlt | rfl
    · split
      · omega
      · split
        · omega
        · have : q % 2 ≤ 1 := by omega
          omega
    · have hcomm : den * q = q * den := Nat.mul_comm _ _
      have : r = 0 := by omega
      subst this
      simp [hd]

theorem nearest_zero_le (num : Nat) : nearest num 0 ≤ 1 := by
  unfold nearest
  simp
  split <;> omega

/-- The significant bits of a rounded ratio number at most 53, or are the first number of 54. -/
theorem significand_le (num den : Nat) :
    nearest num (den * twoPow ((num / den).log2 - 52)) ≤ twoPow 53 := by
  rcases Nat.eq_zero_or_pos den with rfl | hd
  · rw [Nat.zero_mul]
    exact Nat.le_trans (nearest_zero_le num) (twoPow_pos 53)
  · apply nearest_le _ _ _ _ (twoPow_pos 53)
    have h1 : num / den < twoPow ((num / den).log2 + 1) := lt_twoPow_log2 _
    generalize (num / den).log2 = k at *
    have h2 : num < twoPow (k + 1) * den := (Nat.div_lt_iff_lt_mul hd).1 h1
    have h3 : twoPow (k + 1) ≤ twoPow 53 * twoPow (k - 52) := by
      rw [← twoPow_add]
      exact twoPow_le_twoPow (by omega)
    calc num ≤ twoPow (k + 1) * den := Nat.le_of_lt h2
      _ ≤ (twoPow 53 * twoPow (k - 52)) * den := Nat.mul_le_mul_right _ h3
      _ = twoPow 53 * (den * twoPow (k - 52)) := by
        rw [Nat.mul_assoc, Nat.mul_comm (twoPow (k - 52)) den]

theorem dvd_of_significand_le (q k : Nat) (h : q ≤ twoPow 53) :
    twoPow ((q * twoPow k).log2 - 52) ∣ q * twoPow k := by
  rcases Nat.eq_zero_or_pos q with rfl | hq
  · rw [Nat.zero_mul]
    exact Nat.dvd_zero _
  · have hlog : (q * twoPow k).log2 ≤ q.log2 + k := by
      have h1 : q * twoPow k ≠ 0 := Nat.ne_of_gt (Nat.mul_pos hq (twoPow_pos k))
      have h2 : q * twoPow k < twoPow (q.log2 + 1) * twoPow k :=
        Nat.mul_lt_mul_of_pos_right (lt_twoPow_log2 q) (twoPow_pos k)
      rw [← twoPow_add] at h2
      have h3 := (log2_lt_iff h1).2 h2
      omega
    rcases Nat.lt_or_eq_of_le h with hlt | rfl
    · have : q.log2 < 53 := (log2_lt_iff (Nat.ne_of_gt hq)).2 hlt
      exact Nat.dvd_trans (twoPow_dvd_twoPow (by omega)) (Nat.dvd_mul_left _ _)
    · rw [log2_twoPow] at hlog
      rw [← twoPow_add] at hlog ⊢
      exact twoPow_dvd_twoPow (by omega)

/-- Rounding gives a magnitude that a double can hold, unless it overflows. -/
theorem representable_rounded {num den : Nat} (h : rounded num den < overflow) :
    Representable (rounded num den) :=
  ⟨h, dvd_of_significand_le _ _ (significand_le num den)⟩

theorem rounded_le (num den : Nat) : rounded num den ≤ twoPow (max 52 (num / den).log2 + 1) := by
  unfold rounded
  simp only
  refine Nat.le_trans (Nat.mul_le_mul_right _ (significand_le num den)) ?_
  rw [← twoPow_add]
  exact twoPow_le_twoPow (by omega)

theorem rounded_lt_overflow {num den : Nat} (h : (num / den).log2 ≤ 2096) :
    rounded num den < overflow := by
  refine Nat.lt_of_le_of_lt (rounded_le num den) ?_
  unfold overflow
  exact twoPow_lt_twoPow (by omega)

/-- The double nearest to `num / den` units, or the infinity of its sign. -/
def Binary64.ofRatio (negative : Bool) (num den : Nat) : Binary64 :=
  if h : rounded num den < overflow then
    .finite ⟨negative, rounded num den, representable_rounded h⟩
  else .infinite negative

/-! ## Finite doubles -/

namespace Finite64

/-- The number itself, in units of `2^-1074`. -/
def toInt (x : Finite64) : Int := if x.negative then -x.magnitude else x.magnitude

def zero : Finite64 := ⟨false, 0, overflow_pos, Nat.dvd_zero _⟩

instance : Inhabited Finite64 := ⟨zero⟩

theorem twoPow_mul_unitsPerOne (k : Nat) : twoPow k * unitsPerOne = twoPow (k + 1074) :=
  (twoPow_add k 1074).symm

theorem log2_mul_unitsPerOne_le {n k : Nat} (h : n < twoPow k) (hk : k ≤ 1000) :
    (n * unitsPerOne).log2 ≤ 2096 := by
  rcases Nat.eq_zero_or_pos n with rfl | hn
  · rw [Nat.zero_mul, Nat.log2_zero]; decide
  · have h1 := Nat.mul_lt_mul_of_pos_right h unitsPerOne_pos
    rw [twoPow_mul_unitsPerOne] at h1
    have h2 := (log2_lt_iff (Nat.ne_of_gt (Nat.mul_pos hn unitsPerOne_pos))).2 h1
    omega

/-- The double nearest to an integer of at most 128 bits. -/
def ofInt (i : Int) (h : i.natAbs < twoPow 128) : Finite64 :=
  ⟨i < 0, rounded (i.natAbs * unitsPerOne) 1, representable_rounded <| rounded_lt_overflow <| by
    rw [Nat.div_one]
    exact log2_mul_unitsPerOne_le h (by decide)⟩

def one : Finite64 := ofInt 1 (by decide)

/-- The two zeros are one number. -/
def isZero (x : Finite64) : Bool := x.magnitude == 0

/-- The nearest double to a product. -/
def mul (x y : Finite64) : Binary64 :=
  .ofRatio (x.negative != y.negative) (x.magnitude * y.magnitude) unitsPerOne

/-- The nearest double to a quotient by a number other than zero. -/
def div (x y : Finite64) : Binary64 :=
  .ofRatio (x.negative != y.negative) (x.magnitude * unitsPerOne) y.magnitude

/-- No part after the point. -/
def isWhole (x : Finite64) : Bool := x.magnitude % unitsPerOne == 0

/-- The number without its part after the point. -/
def truncate (x : Finite64) : Int :=
  let n : Int := (x.magnitude / unitsPerOne : Nat)
  if x.negative then -n else n

end Finite64

/-! ## Doubles -/

namespace Binary64

/-- The number in units of `2^-1074`, with the infinities next to the finite range.  Order and
equality of doubles are those of these integers. -/
def toInt : Binary64 → Int
  | .finite x => x.toInt
  | .infinite negative => if negative then -overflow else overflow

@[simp] theorem toInt_finite (x : Finite64) : (finite x).toInt = x.toInt := rfl

/-- Same number; the two zeros are equal. -/
def same (x y : Binary64) : Bool := x.toInt == y.toInt

def lt (x y : Binary64) : Bool := x.toInt < y.toInt

def le (x y : Binary64) : Bool := x.toInt ≤ y.toInt

/-- The finite double, if it is one. -/
def finite? : Binary64 → Option Finite64
  | .finite x => some x
  | .infinite _ => none

/-- A whole number as a double. -/
def ofNat (n : Nat) : Binary64 := ofRatio false (n * unitsPerOne) 1

def ofInt (i : Int) : Binary64 := ofRatio (i < 0) (i.natAbs * unitsPerOne) 1

/-- Product with a positive whole number. -/
def mulNat (x : Binary64) (n : Nat) : Binary64 :=
  match x with
  | .finite x => ofRatio x.negative (x.magnitude * n) 1
  | .infinite negative => .infinite negative

/-- Quotient by a positive whole number. -/
def divNat (x : Binary64) (n : Nat) : Binary64 :=
  match x with
  | .finite x => ofRatio x.negative x.magnitude n
  | .infinite negative => .infinite negative

/-- The nearest whole number; a half goes away from zero. -/
def round : Binary64 → Binary64
  | .finite x =>
    ofRatio x.negative ((x.magnitude + unitsPerOne / 2) / unitsPerOne * unitsPerOne) 1
  | .infinite negative => .infinite negative

/-- What is left of `x` after taking away `y` as often as it goes into it, with the sign of `x`.
There is no answer for an infinite `x`, nor for a zero `y`. -/
def rem : Binary64 → Binary64 → Option Binary64
  | .infinite _, _ => none
  | .finite x, .infinite _ => some (.finite x)
  | .finite x, .finite y =>
    if y.isZero then none else some (ofRatio x.negative (x.magnitude % y.magnitude) 1)

end Binary64
end CalendarRules
