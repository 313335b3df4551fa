import CalendarRules.Json.Number
import CalendarRules.Proofs.Binary64.Order

/-!
# Integers among doubles

An integer of at most `2^53` has at most 53 significant bits or is the first that has 54, so it is a
double itself (`rounded_mul_unitsPerOne`).  Past that, integers share their nearest doubles, but
none of them shares its double with an integer below `2^53`, because rounding keeps it on its side
of `2^53` (`Finite64.eq_of_ofInt_eq`).

A number of a document is an integer or a double, and in either form it stands for an exact number
(`Number.units`).  Its double keeps the order of these (`Number.toInt_toDouble_mono`).
-/

namespace CalendarRules

theorem spacing_dvd_mul_unitsPerOne {n : Nat} (h : n ≤ twoPow 53) :
    spacing (n * unitsPerOne) ∣ n * unitsPerOne := dvd_of_significand_le n 1074 h

theorem rounded_mul_unitsPerOne {n : Nat} (h : n ≤ twoPow 53) :
    rounded (n * unitsPerOne) 1 = n * unitsPerOne := rounded_eq_self (spacing_dvd_mul_unitsPerOne h)

/-- No such integer is past the infinities. -/
theorem mul_unitsPerOne_lt_overflow {n : Nat} (h : n ≤ twoPow 53) : n * unitsPerOne < overflow := by
  calc n * unitsPerOne ≤ twoPow 53 * unitsPerOne := Nat.mul_le_mul_right _ h
    _ = twoPow (53 + 1074) := Finite64.twoPow_mul_unitsPerOne 53
    _ < overflow := twoPow_lt_twoPow (by decide)

theorem clipped_mul_unitsPerOne {n : Nat} (h : n ≤ twoPow 53) :
    clipped 1 (n * unitsPerOne) = n * unitsPerOne := by
  rw [clipped, rounded_mul_unitsPerOne h]
  exact Nat.min_eq_left (Nat.le_of_lt (mul_unitsPerOne_lt_overflow h))

/-- A whole number is not rounded below a smaller one that 53 bits can hold. -/
theorem le_rounded_mul_unitsPerOne {k n : Nat} (hk : k ≤ twoPow 53) (h : k ≤ n) :
    k * unitsPerOne ≤ rounded (n * unitsPerOne) 1 := by
  refine le_rounded_of_le Nat.one_pos (spacing_dvd_mul_unitsPerOne hk) ?_
  rw [Nat.mul_one]
  exact Nat.mul_le_mul_right _ h

theorem rounded_pos {n : Nat} (h : 0 < n) : 0 < rounded (n * unitsPerOne) 1 := by
  have hone := le_rounded_mul_unitsPerOne (by decide) h
  rw [Nat.succ_mul, Nat.zero_mul, Nat.zero_add] at hone
  exact Nat.lt_of_lt_of_le unitsPerOne_pos hone

namespace Finite64

theorem natAbs_toInt (x : Finite64) : x.toInt.natAbs = x.magnitude := by
  rw [toInt]
  split <;> omega

variable {i j : Int} {hi : i.natAbs < twoPow 128} {hj : j.natAbs < twoPow 128}

theorem toInt_ofInt_of_nonneg (h : 0 ≤ i) :
    (ofInt i hi).toInt = rounded (i.natAbs * unitsPerOne) 1 := by
  simp only [toInt, ofInt, decide_eq_true_eq]
  exact if_neg (Int.not_lt.2 h)

theorem toInt_ofInt_of_neg (h : i < 0) :
    (ofInt i hi).toInt = -(rounded (i.natAbs * unitsPerOne) 1 : Int) := by
  simp only [toInt, ofInt, decide_eq_true_eq]
  exact if_pos h

/-- No integer that is kept as such overflows. -/
theorem finite_ofInt (hi : i.natAbs < twoPow 128) : Binary64.finite (ofInt i hi) = .ofInt i := by
  have hlt : rounded (i.natAbs * unitsPerOne) 1 < overflow := (ofInt i hi).representable.1
  rw [Binary64.ofInt, Binary64.ofRatio, dif_pos hlt, ofInt]

theorem toInt_ofInt_mono (h : i ≤ j) : (ofInt i hi).toInt ≤ (ofInt j hj).toInt := by
  have hmono := Binary64.toInt_ofInt_mono h
  rwa [← finite_ofInt hi, ← finite_ofInt hj] at hmono

/-- The nearest double of an integer has its sign, so that it is known from the number it denotes.
-/
theorem ofInt_eq_of_toInt_eq (h : (ofInt i hi).toInt = (ofInt j hj).toInt) :
    ofInt i hi = ofInt j hj := by
  have hsign : ∀ {k : Int} (hk : k.natAbs < twoPow 128), k < 0 ↔ (ofInt k hk).toInt < 0 := by
    intro k hk
    rcases Int.lt_or_le k 0 with hneg | hpos
    · have hpos := rounded_pos (n := k.natAbs) (by omega)
      rw [toInt_ofInt_of_neg hneg]
      omega
    · rw [toInt_ofInt_of_nonneg hpos]
      omega
  have hiff : i < 0 ↔ j < 0 := by rw [hsign hi, h, hsign hj]
  have hmagnitude : rounded (i.natAbs * unitsPerOne) 1 = rounded (j.natAbs * unitsPerOne) 1 := by
    rcases Int.lt_or_le i 0 with hneg | hpos
    · rw [toInt_ofInt_of_neg hneg, toInt_ofInt_of_neg (hiff.1 hneg)] at h
      omega
    · rw [toInt_ofInt_of_nonneg hpos, toInt_ofInt_of_nonneg (by omega)] at h
      omega
  simp only [ofInt, hmagnitude, hiff]

/-- An integer below `2^53` shares its nearest double with no other integer. -/
theorem eq_of_ofInt_eq (hi : i.natAbs < twoPow 128) (hj : j.natAbs < twoPow 128)
    (hlt : i.natAbs < twoPow 53) (h : ofInt i hi = ofInt j hj) : i = j := by
  have hsign : decide (i < 0) = decide (j < 0) := congrArg Finite64.negative h
  have hmagnitude : rounded (i.natAbs * unitsPerOne) 1 = rounded (j.natAbs * unitsPerOne) 1 :=
    congrArg Finite64.magnitude h
  rw [rounded_mul_unitsPerOne (Nat.le_of_lt hlt)] at hmagnitude
  have hle : j.natAbs ≤ twoPow 53 := by
    -- Rounding would keep a larger integer at `2^53` or above.
    by_contra hgt
    have hmono := le_rounded_mul_unitsPerOne (Nat.le_refl _) (Nat.le_of_not_le hgt)
    rw [← hmagnitude] at hmono
    exact absurd hlt (Nat.not_lt.2 (Nat.le_of_mul_le_mul_right hmono unitsPerOne_pos))
  rw [rounded_mul_unitsPerOne hle] at hmagnitude
  have habs : i.natAbs = j.natAbs := Nat.eq_of_mul_eq_mul_right unitsPerOne_pos hmagnitude
  rw [decide_eq_decide] at hsign
  omega

/-- Where two integers have different nearest doubles, these are in their order. -/
theorem toInt_ofInt_lt_iff (hi : i.natAbs < twoPow 128) (hj : j.natAbs < twoPow 128)
    (h : ofInt i hi = ofInt j hj → i = j) :
    (ofInt i hi).toInt < (ofInt j hj).toInt ↔ i < j := by
  constructor
  · intro hlt
    by_contra hge
    exact absurd (toInt_ofInt_mono (Int.not_lt.1 hge)) (Int.not_le.2 hlt)
  · intro hlt
    refine Int.lt_iff_le_and_ne.2 ⟨toInt_ofInt_mono (Int.le_of_lt hlt), fun heq => ?_⟩
    exact absurd (h (ofInt_eq_of_toInt_eq heq)) (Int.ne_of_lt hlt)

end Finite64

namespace Number

/-- The number itself, in units of `2^-1074`. -/
def units : Number → Int
  | .int i _ => i * unitsPerOne
  | .float x => x.toInt

/-- The double of a number is its magnitude, clipped, with its sign. -/
theorem exists_signed (n : Number) : ∃ negative magnitude, n.units = signed negative magnitude ∧
    n.toDouble.toInt = signed negative (clipped 1 magnitude) := by
  cases n with
  | int i h =>
    refine ⟨i < 0, i.natAbs * unitsPerOne, ?_, ?_⟩
    · rw [signed_mul, signed_natAbs, units]
    · rw [← Binary64.toInt_ofInt, ← Finite64.finite_ofInt (natAbs_lt h)]
      rfl
  | float x =>
    refine ⟨x.negative, x.magnitude, rfl, ?_⟩
    rw [clipped_magnitude]
    rfl

theorem toInt_toDouble_mono {m n : Number} (h : m.units ≤ n.units) :
    m.toDouble.toInt ≤ n.toDouble.toInt := by
  obtain ⟨a, k, hm, hm'⟩ := m.exists_signed
  obtain ⟨b, l, hn, hn'⟩ := n.exists_signed
  rw [hm, hn] at h
  rw [hm', hn']
  exact signed_le_signed (clipped_mono Nat.one_pos) (clipped_zero 1) h

/-- A whole number up to `2^53` is its own double. -/
theorem toInt_toDouble_of_le {n : Number} {k : Nat} (hk : k ≤ twoPow 53)
    (h : n.units = (k * unitsPerOne : Nat)) : n.toDouble.toInt = (k * unitsPerOne : Nat) := by
  obtain ⟨negative, magnitude, hunits, hdouble⟩ := n.exists_signed
  rw [hunits] at h
  rw [hdouble, signed_eq_natCast (clipped_zero 1) h, clipped_mul_unitsPerOne hk]

end Number

/-! ## Exact products and quotients -/

namespace Binary64

theorem toInt_ofInt_pos {i : Int} (h : 0 < i) : 0 < (ofInt i).toInt := by
  have hone : (ofInt 1).toInt = (1 * unitsPerOne : Nat) := by
    rw [toInt_ofInt, Int.natAbs_one, clipped_mul_unitsPerOne (by decide)]
    exact if_neg (by decide)
  have hmono := toInt_ofInt_mono (show 1 ≤ i by omega)
  have hpos := unitsPerOne_pos
  omega

theorem toInt_ofInt_nonpos_iff {i : Int} : (ofInt i).toInt ≤ 0 ↔ i ≤ 0 := by
  constructor
  · intro h
    by_contra hpos
    exact absurd (toInt_ofInt_pos (not_le.1 hpos)) (not_lt.2 h)
  · intro h
    have hzero : (ofInt 0).toInt = 0 := by
      rw [toInt_ofInt, Int.natAbs_zero, Nat.zero_mul, clipped_zero]
      rfl
    exact hzero ▸ toInt_ofInt_mono h

/-- So is an integer with a sign. -/
theorem toInt_ofInt_of_le {i : Int} (h : i.natAbs ≤ twoPow 53) :
    (ofInt i).toInt = i * unitsPerOne := by
  rw [toInt_ofInt, clipped_mul_unitsPerOne h, signed_mul, signed_natAbs]

variable {n k : Nat}

/-- A product that is a whole number up to `2^53` is exact. -/
theorem toInt_mulNat_of_le {x : Finite64} (h : n * k ≤ twoPow 53)
    (hx : x.toInt = (n * unitsPerOne : Nat)) :
    ((finite x).mulNat k).toInt = (n * k * unitsPerOne : Nat) := by
  have hproduct := signed_eq_natCast (f := fun m => clipped 1 (m * k))
    (by rw [Nat.zero_mul, clipped_zero]) hx
  rw [mulNat, toInt_ofRatio, hproduct, Nat.mul_right_comm, clipped_mul_unitsPerOne h]

/-- So is the quotient by which it comes back. -/
theorem toInt_divNat_of_le {x : Binary64} (hk : 0 < k) (h : n * k ≤ twoPow 53)
    (hx : x.toInt = (n * k * unitsPerOne : Nat)) :
    (x.divNat k).toInt = (n * unitsPerOne : Nat) := by
  obtain ⟨x, rfl⟩ := exists_finite_of_natAbs_lt (x := x) <| by
    rw [hx, Int.natAbs_natCast]
    exact mul_unitsPerOne_lt_overflow h
  have hn : n ≤ twoPow 53 := Nat.le_trans (Nat.le_mul_of_pos_right n hk) h
  rw [divNat, toInt_ofRatio, signed_eq_natCast (clipped_zero k) hx, Nat.mul_right_comm, clipped,
    rounded_mul_eq_self hk (spacing_dvd_mul_unitsPerOne hn),
    Nat.min_eq_left (Nat.le_of_lt (mul_unitsPerOne_lt_overflow hn))]

/-- The remainder of whole numbers up to `2^53` is exact. -/
theorem exists_rem_of_le {x y : Finite64} (hk : 0 < k) (h : n ≤ twoPow 53)
    (hx : x.toInt = (n * unitsPerOne : Nat)) (hy : y.toInt = (k * unitsPerOne : Nat)) :
    ∃ z : Finite64, (finite x).rem (finite y) = some (.finite z) ∧
      z.toInt = (n % k * unitsPerOne : Nat) := by
  have hdivisor : y.magnitude = k * unitsPerOne := by
    rw [← y.natAbs_toInt, hy, Int.natAbs_natCast]
  have hzero : y.isZero = false := by
    rw [Finite64.isZero, hdivisor]
    exact beq_false_of_ne (Nat.ne_of_gt (Nat.mul_pos hk unitsPerOne_pos))
  have hsmall : n % k ≤ twoPow 53 := Nat.le_trans (Nat.mod_le n k) h
  have hremainder := signed_eq_natCast (f := fun i => clipped 1 (i % (k * unitsPerOne)))
    (by rw [Nat.zero_mod, clipped_zero]) hx
  rw [Nat.mul_mod_mul_right, clipped_mul_unitsPerOne hsmall, ← toInt_ofRatio] at hremainder
  obtain ⟨z, hz⟩ := exists_finite_of_natAbs_lt <| by
    rw [hremainder, Int.natAbs_natCast]
    exact mul_unitsPerOne_lt_overflow hsmall
  refine ⟨z, ?_, ?_⟩
  · rw [rem, hzero, if_neg Bool.false_ne_true, hdivisor, hz]
  · rw [hz, toInt_finite] at hremainder
    exact hremainder

end Binary64
end CalendarRules
