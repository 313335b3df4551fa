import CalendarRules.Power
import CalendarRules.Text.Blank
import CalendarRules.Text.Digits
import Mathlib.Data.List.Basic

/-!
# Digits read back

A number that is written in decimal digits reads back as itself, with or without zeros in front, and
its text has nothing in it but digits.  The width of a padded number is exact as long as the number
fits it.
-/

namespace CalendarRules
namespace Text

/-! ## One digit -/

theorem isDigit_iff (c : Char) : c.isDigit = true ↔ 48 ≤ c.toNat ∧ c.toNat ≤ 57 := by
  simp only [Char.isDigit, Bool.and_eq_true, decide_eq_true_eq, ge_iff_le, UInt32.le_iff_toNat_le]
  exact Iff.rfl

theorem toNat_digit {d : Nat} (h : d < 10) : (digit d).toNat = 48 + d := by
  have hv : (48 + d).isValidChar := Or.inl (by omega)
  rw [digit, Char.ofNat, dif_pos hv]
  rfl

theorem isDigit_digit {d : Nat} (h : d < 10) : (digit d).isDigit = true := by
  rw [isDigit_iff, toNat_digit h]
  omega

theorem digitValue_digit {d : Nat} (h : d < 10) : digitValue (digit d) = d := by
  rw [digitValue, toNat_digit h]
  omega

/-- No digit is blank. -/
theorem isBlank_eq_false_of_isDigit {c : Char} (h : c.isDigit = true) : isBlank c = false := by
  rw [isDigit_iff] at h
  simp only [isBlank, Bool.or_eq_false_iff, Bool.and_eq_false_iff, beq_eq_false_iff_ne,
    decide_eq_false_iff_not]
  omega

/-! ## Numbers in as few digits as possible -/

theorem decimal_of_lt {n : Nat} (h : n < 10) : decimal n = [digit n] := by
  rw [decimal, if_pos h]

theorem decimal_of_le {n : Nat} (h : 10 ≤ n) :
    decimal n = decimal (n / 10) ++ [digit (n % 10)] := by
  rw [decimal, if_neg (by omega)]

theorem decimal_ne_nil (n : Nat) : decimal n ≠ [] := by
  rw [decimal]
  split <;> simp

theorem isDigit_of_mem_decimal (n : Nat) : ∀ c ∈ decimal n, c.isDigit = true := by
  induction n using Nat.strongRecOn with
  | _ n ih =>
    intro c hc
    rcases Nat.lt_or_ge n 10 with h | h
    · rw [decimal_of_lt h, List.mem_singleton] at hc
      rw [hc]
      exact isDigit_digit h
    · rw [decimal_of_le h, List.mem_append, List.mem_singleton] at hc
      rcases hc with hc | rfl
      · exact ih (n / 10) (by omega) c hc
      · exact isDigit_digit (by omega)

/-- A number has no sign in front. -/
theorem decimal_ne_minus_cons (n : Nat) (cs : List Char) : decimal n ≠ '-' :: cs := by
  intro heq
  cases isDigit_of_mem_decimal n '-' (heq ▸ List.mem_cons_self)

theorem isNumeral_decimal (n : Nat) : isNumeral (decimal n) = true := by
  rw [isNumeral, Bool.and_eq_true, Bool.not_eq_true', List.isEmpty_eq_false_iff]
  exact ⟨decimal_ne_nil n, List.all_eq_true.2 (isDigit_of_mem_decimal n)⟩

theorem decimalValue_decimal (n : Nat) : decimalValue (decimal n) = n := by
  induction n using Nat.strongRecOn with
  | _ n ih =>
    rcases Nat.lt_or_ge n 10 with h | h
    · rw [decimal_of_lt h]
      exact (Nat.zero_add _).trans (digitValue_digit h)
    · rw [decimal_of_le h, decimalValue_concat, ih (n / 10) (by omega), digitValue_digit (by omega)]
      omega

/-- Only zero is written with a zero in front. -/
theorem head?_decimal_ne_zero {n : Nat} (h : 0 < n) : (decimal n).head? ≠ some '0' := by
  induction n using Nat.strongRecOn with
  | _ n ih =>
    rcases Nat.lt_or_ge n 10 with hn | hn
    · rw [decimal_of_lt hn, List.head?_cons]
      intro hz
      have hz' := congrArg Char.toNat (Option.some.inj hz)
      rw [toNat_digit hn] at hz'
      have : ('0' : Char).toNat = 48 := rfl
      omega
    · rw [decimal_of_le hn, List.head?_append_of_ne_nil _ (decimal_ne_nil _)]
      exact ih (n / 10) (by omega) (by omega)

theorem length_decimal_le {n k : Nat} (hk : 0 < k) (h : n < tenPow k) :
    (decimal n).length ≤ k := by
  induction k generalizing n with
  | zero => omega
  | succ k ih =>
    rcases Nat.lt_or_ge n 10 with hn | hn
    · rw [decimal_of_lt hn]
      exact Nat.succ_le_succ (Nat.zero_le k)
    · have hpow : tenPow (k + 1) = tenPow k * 10 := tenPow_add k 1
      rcases Nat.eq_zero_or_pos k with rfl | hk
      · have : tenPow 0 = 1 := rfl
        omega
      · rw [decimal_of_le hn, List.length_append]
        exact Nat.succ_le_succ (ih hk (by omega))

/-! ## Numbers of a fixed width -/

/-- Zeros in front do not count. -/
theorem decimalValue_zeros_append (k : Nat) (cs : List Char) :
    decimalValue (List.replicate k '0' ++ cs) = decimalValue cs := by
  induction k with
  | zero => rfl
  | succ k ih => exact ih

theorem decimalValue_paddedDecimal (width n : Nat) :
    decimalValue (paddedDecimal width n) = n := by
  rw [paddedDecimal, decimalValue_zeros_append, decimalValue_decimal]

theorem isDigit_of_mem_paddedDecimal (width n : Nat) :
    ∀ c ∈ paddedDecimal width n, c.isDigit = true := by
  intro c hc
  rw [paddedDecimal, List.mem_append] at hc
  rcases hc with hc | hc
  · rw [List.eq_of_mem_replicate hc]
    rfl
  · exact isDigit_of_mem_decimal n c hc

theorem paddedDecimal_ne_nil (width n : Nat) : paddedDecimal width n ≠ [] := by
  rw [paddedDecimal]
  exact List.append_ne_nil_of_right_ne_nil _ (decimal_ne_nil n)

theorem le_length_paddedDecimal (width n : Nat) : width ≤ (paddedDecimal width n).length := by
  rw [paddedDecimal, List.length_append, List.length_replicate]
  omega

theorem length_paddedDecimal {width n : Nat} (hw : 0 < width) (h : n < tenPow width) :
    (paddedDecimal width n).length = width := by
  have := length_decimal_le hw h
  rw [paddedDecimal, List.length_append, List.length_replicate]
  omega

end Text
end CalendarRules
