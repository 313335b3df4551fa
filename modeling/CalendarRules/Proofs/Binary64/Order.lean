import CalendarRules.Proofs.Binary64.Rounding
import Mathlib.Order.MinMax

/-!
# Operations that keep the order of doubles

A double is a sign and a magnitude.  A function of the magnitude that grows with it and leaves zero
alone keeps the order of the signed numbers (`signed_le_signed`).  Scaling by a whole number is such
a function, and so are rounding to 53 bits and stopping at the infinities, so that multiplying or
dividing by a positive whole number and going to the nearest whole number all keep the order of
doubles, overflow included.  So does the step from an integer to its nearest double.
-/

namespace CalendarRules

/-- A magnitude with a sign. -/
def signed (negative : Bool) (n : Nat) : Int := if negative then -n else n

theorem signed_le_signed {f : Nat → Nat} (hf : Monotone f) (hzero : f 0 = 0) {a b : Bool}
    {m n : Nat} (h : signed a m ≤ signed b n) : signed a (f m) ≤ signed b (f n) := by
  cases a <;> cases b <;> simp only [signed, if_true, Bool.false_eq_true, if_false] at h ⊢
  · have := hf (show m ≤ n by omega)
    omega
  · obtain ⟨rfl, rfl⟩ : m = 0 ∧ n = 0 := by omega
    omega
  · omega
  · have := hf (show n ≤ m by omega)
    omega

theorem signed_eq_zero_iff {negative : Bool} {n : Nat} : signed negative n = 0 ↔ n = 0 := by
  unfold signed
  split <;> omega

/-- A sign that is not seen stays unseen under a function that leaves zero alone. -/
theorem signed_eq_natCast {f : Nat → Nat} (hzero : f 0 = 0) {negative : Bool} {m n : Nat}
    (h : signed negative m = (n : Int)) : signed negative (f m) = (f n : Int) := by
  cases negative with
  | false =>
    obtain rfl : m = n := Int.ofNat_inj.1 h
    rfl
  | true =>
    have hneg : -(m : Int) = n := h
    obtain ⟨rfl, rfl⟩ : m = 0 ∧ n = 0 := by omega
    rw [hzero]
    rfl

theorem signed_natAbs (i : Int) : signed (i < 0) i.natAbs = i := by
  unfold signed
  split_ifs with h <;> simp only [decide_eq_true_eq] at h <;> omega

theorem signed_mul (negative : Bool) (m n : Nat) :
    signed negative (m * n) = signed negative m * n := by
  cases negative with
  | false => exact Int.natCast_mul m n
  | true =>
    show -((m * n : Nat) : Int) = -(m : Int) * n
    rw [Int.natCast_mul, Int.neg_mul]

/-! ## Stopping at the infinities -/

/-- A ratio as a magnitude of doubles, which ends with infinity. -/
def clipped (den num : Nat) : Nat := min (rounded num den) overflow

theorem clipped_mono {den : Nat} (hd : 0 < den) : Monotone (clipped den) := fun _ _ h =>
  min_le_min (rounded_mono hd h) le_rfl

theorem clipped_zero (den : Nat) : clipped den 0 = 0 := by
  rw [clipped, rounded_zero, Nat.zero_min]

/-- A magnitude of a double stays what it is. -/
theorem clipped_magnitude (x : Finite64) : clipped 1 x.magnitude = x.magnitude := by
  rw [clipped, rounded_eq_self x.representable.2]
  exact Nat.min_eq_left (Nat.le_of_lt x.representable.1)

namespace Binary64

variable {x y : Binary64}

theorem lt_iff : x.lt y = true ↔ x.toInt < y.toInt := decide_eq_true_iff

theorem lt_eq_false_iff : x.lt y = false ↔ y.toInt ≤ x.toInt := by
  rw [← Bool.not_eq_true, lt_iff, not_lt]

theorem toInt_ofRatio (negative : Bool) (num den : Nat) :
    (ofRatio negative num den).toInt = signed negative (clipped den num) := by
  unfold ofRatio clipped
  split
  next h => rw [Nat.min_eq_left (Nat.le_of_lt h)]; rfl
  next h => rw [Nat.min_eq_right (Nat.le_of_not_lt h)]; rfl

theorem toInt_ofRatio_mono {a b : Bool} {m n den : Nat} (hd : 0 < den)
    (h : signed a m ≤ signed b n) : (ofRatio a m den).toInt ≤ (ofRatio b n den).toInt := by
  rw [toInt_ofRatio, toInt_ofRatio]
  exact signed_le_signed (clipped_mono hd) (clipped_zero den) h

/-- The infinities are the ends of the order. -/
theorem toInt_bounds (x : Binary64) : -(overflow : Int) ≤ x.toInt ∧ x.toInt ≤ overflow := by
  cases x with
  | finite x =>
    have hlt := x.representable.1
    rw [toInt_finite, Finite64.toInt]
    split <;> omega
  | infinite negative =>
    rw [toInt]
    split <;> omega

theorem toInt_finite_bounds (x : Finite64) : -(overflow : Int) < x.toInt ∧ x.toInt < overflow := by
  have hlt := x.representable.1
  rw [Finite64.toInt]
  split <;> omega

/-- What lies between the infinities is finite. -/
theorem exists_finite_of_natAbs_lt (h : x.toInt.natAbs < overflow) :
    ∃ y : Finite64, x = .finite y := by
  cases x with
  | finite y => exact ⟨y, rfl⟩
  | infinite negative =>
    rw [toInt] at h
    split at h <;> omega

/-- A function that keeps the infinities and the order of finite doubles keeps the order. -/
theorem toInt_mono_of_finite {f : Binary64 → Binary64}
    (hinfinite : ∀ negative, f (.infinite negative) = .infinite negative)
    (hfinite : ∀ x y : Finite64, x.toInt ≤ y.toInt → (f (.finite x)).toInt ≤ (f (.finite y)).toInt)
    (h : x.toInt ≤ y.toInt) : (f x).toInt ≤ (f y).toInt := by
  have hpos := overflow_pos
  cases x with
  | finite x =>
    cases y with
    | finite y => exact hfinite x y h
    | infinite negative =>
      have hbounds := toInt_finite_bounds x
      cases negative with
      | false =>
        rw [hinfinite]
        exact (toInt_bounds _).2
      | true =>
        have hlow : x.toInt ≤ -(overflow : Int) := h
        omega
  | infinite negative =>
    rw [hinfinite]
    cases negative with
    | false =>
      have hhigh : (overflow : Int) ≤ y.toInt := h
      cases y with
      | finite y =>
        have hbounds := toInt_finite_bounds y
        rw [toInt_finite] at hhigh
        omega
      | infinite negative =>
        rw [hinfinite]
        exact h
    | true => exact (toInt_bounds _).1

/-! ## Operations -/

theorem toInt_mulNat_mono (n : Nat) (h : x.toInt ≤ y.toInt) :
    (x.mulNat n).toInt ≤ (y.mulNat n).toInt := by
  refine toInt_mono_of_finite (f := fun x => x.mulNat n) (fun _ => rfl) (fun x y h => ?_) h
  exact toInt_ofRatio_mono Nat.one_pos
    (signed_le_signed (f := fun m => m * n) (fun _ _ h => Nat.mul_le_mul_right n h)
      (Nat.zero_mul n) h)

theorem toInt_divNat_mono {n : Nat} (hn : 0 < n) (h : x.toInt ≤ y.toInt) :
    (x.divNat n).toInt ≤ (y.divNat n).toInt :=
  toInt_mono_of_finite (f := fun x => x.divNat n) (fun _ => rfl)
    (fun _ _ h => toInt_ofRatio_mono hn h) h

theorem toInt_round_mono (h : x.toInt ≤ y.toInt) : x.round.toInt ≤ y.round.toInt := by
  refine toInt_mono_of_finite (f := round) (fun _ => rfl) (fun x y h => ?_) h
  refine toInt_ofRatio_mono Nat.one_pos
    (signed_le_signed (f := fun m => (m + unitsPerOne / 2) / unitsPerOne * unitsPerOne) ?_ ?_ h)
  · intro m n hmn
    exact Nat.mul_le_mul_right _ (Nat.div_le_div_right (Nat.add_le_add_right hmn _))
  · have hhalf : unitsPerOne / 2 < unitsPerOne := Nat.div_lt_self unitsPerOne_pos (by decide)
    simp only [Nat.zero_add, Nat.div_eq_of_lt hhalf, Nat.zero_mul]

/-- Zero stays zero. -/
theorem toInt_mulNat_zero {x : Finite64} (n : Nat) (h : x.toInt = 0) :
    ((finite x).mulNat n).toInt = 0 := by
  rw [mulNat, toInt_ofRatio, signed_eq_zero_iff.1 h, Nat.zero_mul, clipped_zero, signed_eq_zero_iff]

theorem toInt_divNat_zero (n : Nat) (h : x.toInt = 0) : (x.divNat n).toInt = 0 := by
  have hpos := overflow_pos
  cases x with
  | finite x =>
    rw [divNat, toInt_ofRatio, signed_eq_zero_iff.1 h, clipped_zero, signed_eq_zero_iff]
  | infinite negative =>
    rw [toInt] at h
    split at h <;> omega

/-! ## Integers and numbers of a document -/

theorem toInt_ofInt (i : Int) :
    (ofInt i).toInt = signed (i < 0) (clipped 1 (i.natAbs * unitsPerOne)) :=
  toInt_ofRatio _ _ _

theorem toInt_ofInt_mono {i j : Int} (h : i ≤ j) : (ofInt i).toInt ≤ (ofInt j).toInt := by
  refine toInt_ofRatio_mono Nat.one_pos
    (signed_le_signed (f := fun m => m * unitsPerOne) ?_ (Nat.zero_mul _) ?_)
  · exact fun _ _ h => Nat.mul_le_mul_right _ h
  · rw [signed_natAbs, signed_natAbs]
    exact h

end Binary64
end CalendarRules
