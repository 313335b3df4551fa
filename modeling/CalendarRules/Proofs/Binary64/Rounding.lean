import CalendarRules.Binary64
import Mathlib.Data.Nat.Basic

/-!
# Rounding to 53 bits

Rounding leaves a magnitude alone that a double can hold (`rounded_eq_self`), and it never turns the
order of two ratios with the same denominator around (`rounded_mono`).  Both come from the nearest
multiple: multiples of the spacing are their own, and numbers in order have nearest multiples in
order.  Where the spacing of the larger ratio is wider, a power of two lies between the two.

So a ratio that lies between two doubles is not rounded past either of them
(`rounded_between_steps`).
-/

namespace CalendarRules

/-! ## The nearest multiple -/

theorem nearest_mul (k : Nat) {den : Nat} (hd : 0 < den) : nearest (k * den) den = k := by
  unfold nearest
  rw [Nat.mul_mod_left, Nat.mul_div_cancel k hd]
  exact if_pos hd

theorem nearest_zero (den : Nat) : nearest 0 den = 0 := by
  simp [nearest]

theorem nearest_eq_or (num den : Nat) :
    nearest num den = num / den ∧ 2 * (num % den) ≤ den ∨
      nearest num den = num / den + 1 ∧ den ≤ 2 * (num % den) := by
  unfold nearest
  simp only
  split_ifs with hbelow habove
  · exact .inl ⟨rfl, by omega⟩
  · exact .inr ⟨rfl, by omega⟩
  · rcases Nat.mod_two_eq_zero_or_one (num / den) with heven | hodd
    · exact .inl ⟨by omega, by omega⟩
    · exact .inr ⟨by omega, by omega⟩

/-- Two numbers between the same multiples are on the same sides of the midpoint, or in order. -/
theorem nearest_mono {m n : Nat} (h : m ≤ n) (den : Nat) : nearest m den ≤ nearest n den := by
  have hq : m / den ≤ n / den := Nat.div_le_div_right h
  rcases Nat.lt_or_eq_of_le hq with hlt | heq
  · rcases nearest_eq_or m den with ⟨hm, -⟩ | ⟨hm, -⟩ <;>
    rcases nearest_eq_or n den with ⟨hn, -⟩ | ⟨hn, -⟩ <;>
    omega
  · have hr : m % den ≤ n % den := by
      have hm := Nat.div_add_mod m den
      have hn := Nat.div_add_mod n den
      rw [heq] at hm
      omega
    unfold nearest
    simp only [heq]
    split_ifs <;> omega

/-! ## Rounding to 53 bits -/

/-- The distance of neighbours around a magnitude. -/
def spacing (n : Nat) : Nat := twoPow (n.log2 - 52)

theorem rounded_eq (num den : Nat) : rounded num den =
    nearest num (den * spacing (num / den)) * spacing (num / den) := rfl

theorem rounded_zero (den : Nat) : rounded 0 den = 0 := by
  rw [rounded_eq, nearest_zero, Nat.zero_mul]

/-- What a double can hold is the rounding of every ratio that it equals. -/
theorem rounded_mul_eq_self {n den : Nat} (hd : 0 < den) (h : spacing n ∣ n) :
    rounded (n * den) den = n := by
  obtain ⟨k, hk⟩ := h
  have hpos : 0 < den * spacing n := Nat.mul_pos hd (twoPow_pos _)
  rw [rounded_eq, Nat.mul_div_cancel n hd]
  generalize spacing n = step at hk hpos ⊢
  have hnum : n * den = k * (den * step) := by
    rw [hk, Nat.mul_comm step k, Nat.mul_assoc, Nat.mul_comm step den]
  rw [hnum, nearest_mul k hpos, hk, Nat.mul_comm]

/-- What a double can hold is its own rounding. -/
theorem rounded_eq_self {n : Nat} (h : spacing n ∣ n) : rounded n 1 = n := by
  have hone := rounded_mul_eq_self Nat.one_pos h
  rwa [Nat.mul_one] at hone

/-- The power of two below a magnitude is below its rounding as well. -/
theorem twoPow_log2_le_rounded {num den : Nat} (hd : 0 < den) (h : 52 ≤ (num / den).log2) :
    twoPow (num / den).log2 ≤ rounded num den := by
  have hne : num / den ≠ 0 := by
    intro hzero
    rw [hzero] at h
    exact absurd h (by decide)
  have hpow : twoPow (num / den).log2 = twoPow 52 * spacing (num / den) := by
    rw [spacing, ← twoPow_add, Nat.add_sub_cancel' h]
  have hle : twoPow 52 * (den * spacing (num / den)) ≤ num := by
    have hdiv : twoPow 52 * spacing (num / den) ≤ num / den := hpow ▸ Nat.log2_self_le hne
    calc twoPow 52 * (den * spacing (num / den))
        = twoPow 52 * spacing (num / den) * den := by
          rw [Nat.mul_comm den, Nat.mul_assoc]
      _ ≤ num / den * den := Nat.mul_le_mul_right _ hdiv
      _ ≤ num := Nat.div_mul_le_self num den
  rw [hpow, rounded_eq]
  refine Nat.mul_le_mul_right _ ?_
  rw [← nearest_mul (twoPow 52) (Nat.mul_pos hd (twoPow_pos ((num / den).log2 - 52)))]
  exact nearest_mono hle _

theorem log2_mono {m n : Nat} (h : m ≤ n) : m.log2 ≤ n.log2 := by
  rcases Nat.eq_zero_or_pos m with rfl | hm
  · exact Nat.zero_le _
  · exact (Nat.le_log2 (by omega)).2 (Nat.le_trans (Nat.log2_self_le (by omega)) h)

theorem rounded_mono {den : Nat} (hd : 0 < den) {m n : Nat} (h : m ≤ n) :
    rounded m den ≤ rounded n den := by
  rcases Nat.lt_or_ge ((m / den).log2 - 52) ((n / den).log2 - 52) with hlt | hge
  · -- A power of two lies between the two.
    calc rounded m den ≤ twoPow (max 52 (m / den).log2 + 1) := rounded_le m den
      _ ≤ twoPow (n / den).log2 := twoPow_le_twoPow (by omega)
      _ ≤ rounded n den := twoPow_log2_le_rounded hd (by omega)
  · have hlog := log2_mono (Nat.div_le_div_right (c := den) h)
    have hstep : spacing (m / den) = spacing (n / den) := by
      rw [spacing, spacing]
      congr 1
      omega
    rw [rounded_eq, rounded_eq, hstep]
    exact Nat.mul_le_mul_right _ (nearest_mono h _)

/-! ## Between two doubles -/

section Bounds

variable {num den n : Nat} (hd : 0 < den)

include hd

theorem rounded_le_of_le (hn : spacing n ∣ n) (h : num ≤ n * den) : rounded num den ≤ n := by
  calc rounded num den ≤ rounded (n * den) den := rounded_mono hd h
    _ = n := rounded_mul_eq_self hd hn

theorem le_rounded_of_le (hn : spacing n ∣ n) (h : n * den ≤ num) : n ≤ rounded num den := by
  calc n = rounded (n * den) den := (rounded_mul_eq_self hd hn).symm
    _ ≤ rounded num den := rounded_mono hd h

/-- On a grid of steps of a power of two, a ratio is rounded to the step below it, to the step above
it or to a double between the two, as long as 53 bits are enough to count the steps. -/
theorem rounded_between_steps {j k : Nat} (hk : k + 1 ≤ twoPow 53)
    (hlow : k * twoPow j * den ≤ num) (hhigh : num ≤ (k + 1) * twoPow j * den) :
    k * twoPow j ≤ rounded num den ∧ rounded num den ≤ (k + 1) * twoPow j :=
  ⟨le_rounded_of_le hd (dvd_of_significand_le k j (Nat.le_of_succ_le hk)) hlow,
    rounded_le_of_le hd (dvd_of_significand_le (k + 1) j hk) hhigh⟩

end Bounds

end CalendarRules
