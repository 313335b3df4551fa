import CalendarRules.Proofs.Binary64.Integer
import CalendarRules.Proofs.Text.Decimal

/-!
# The text of an integer that went through a double

The reals that round to an integer up to `2^53` lie between its neighbours.  So the integer itself
is on the first decimal grid with a point among them: a coarser grid of whole numbers has only
multiples of ten, and of these none but the integer can be in reach (`Decimal.Cell.Singles`).  The
search therefore ends at the integer without its last zeros (`Decimal.Cell.Singles.coarsest_eq`),
and layout puts the zeros back.

A message about the nearest double of such an integer shows the digits of the integer
(`Finite64.message_ofInt`).  Doubles that are one number, such as the two zeros, have one text
(`Binary64.message_congr`).
-/

namespace CalendarRules

theorem tenPow_succ (k : Nat) : tenPow (k + 1) = tenPow k * 10 := rfl

theorem tenPow_toNat_neg (k : Nat) : tenPow (-(k : Int)).toNat = 1 := by
  rw [show (-(k : Int)).toNat = 0 by omega]
  rfl

/-! ## Zeros at the end -/

theorem Text.decimal_mul_tenPow {n : Nat} (hn : 0 < n) (k : Nat) :
    decimal (n * tenPow k) = decimal n ++ List.replicate k '0' := by
  induction k with
  | zero => rw [show tenPow 0 = 1 from rfl, Nat.mul_one, List.replicate_zero, List.append_nil]
  | succ k ih =>
    have hpos : 0 < n * tenPow k := Nat.mul_pos hn (tenPow_pos k)
    rw [tenPow_succ, ← Nat.mul_assoc, decimal_of_le (by omega), Nat.mul_div_cancel _ (by decide),
      Nat.mul_mod_left, ih, List.append_assoc, List.replicate_succ']
    rfl

namespace Decimal

/-- A whole number without its last zeros is laid out with them. -/
theorem plain_div_tenPow {n k : Nat} (hn : 0 < n) (h : tenPow k ∣ n) :
    plain ⟨n / tenPow k, k⟩ = Text.decimal n := by
  obtain ⟨m, rfl⟩ := h
  have hm : 0 < m := Nat.pos_of_mul_pos_left hn
  rw [Nat.mul_div_cancel_left m (tenPow_pos k), Nat.mul_comm (tenPow k) m,
    Text.decimal_mul_tenPow hm]
  simp only [plain, Int.natCast_nonneg, if_true, Int.toNat_natCast]

/-! ## The grids of whole numbers -/

/-- A cell around a whole number that no other multiple of ten is in. -/
structure Cell.Singles (c : Cell) (n : Nat) : Prop where
  value : c.value = 4 * unitsPerOne * n
  mem : c.contains 1 (4 * unitsPerOne * n) = true
  eq_of_mem : ∀ k, c.contains 1 (4 * unitsPerOne * (10 * k)) = true → 10 * k = n

namespace Cell.Singles

variable {c : Cell} {n e : Nat}

theorem onGrid_of_dvd (h : c.Singles n) (hdvd : tenPow e ∣ n) (tie : Tie) :
    c.onGrid tie e = some (n / tenPow e) := by
  obtain ⟨k, rfl⟩ := hdvd
  have hspacing : 0 < 4 * unitsPerOne * tenPow e :=
    Nat.mul_pos (Nat.mul_pos (by decide) unitsPerOne_pos) (tenPow_pos e)
  have hpoint : 4 * unitsPerOne * (tenPow e * k) = k * (4 * unitsPerOne * tenPow e) := by
    rw [← Nat.mul_assoc, Nat.mul_comm]
  have hmem : c.contains 1 (k * (4 * unitsPerOne * tenPow e)) = true := hpoint ▸ h.mem
  have hvalue := h.value
  rw [hpoint] at hvalue
  rw [Nat.mul_div_cancel_left k (tenPow_pos e)]
  unfold onGrid
  simp only [Int.toNat_natCast, tenPow_toNat_neg, Nat.mul_one, hvalue,
    Nat.mul_div_cancel k hspacing, hmem, Nat.sub_self]
  cases c.contains 1 ((k + 1) * (4 * unitsPerOne * tenPow e)) with
  | false => rfl
  | true =>
    have hright : k * (4 * unitsPerOne * tenPow e) < (k + 1) * (4 * unitsPerOne * tenPow e) :=
      Nat.mul_lt_mul_of_pos_right (Nat.lt_succ_self k) hspacing
    exact if_pos (Nat.sub_pos_of_lt hright)

theorem onGrid_of_not_dvd (h : c.Singles n) (hdvd : ¬tenPow (e + 1) ∣ n) (tie : Tie) :
    c.onGrid tie ((e + 1 : Nat) : Int) = none := by
  have houtside : ∀ k, c.contains 1 (k * (4 * unitsPerOne * tenPow (e + 1))) = false := by
    intro k
    have hpoint : k * (4 * unitsPerOne * tenPow (e + 1)) =
        4 * unitsPerOne * (10 * (k * tenPow e)) := by
      rw [tenPow_succ]
      generalize unitsPerOne = unit
      ac_rfl
    rw [hpoint, Bool.eq_false_iff]
    intro hmem
    refine hdvd ⟨k, ?_⟩
    rw [← h.eq_of_mem _ hmem, tenPow_succ]
    ac_rfl
  unfold onGrid
  simp only [Int.toNat_natCast, tenPow_toNat_neg, houtside]

/-- The search on the grids of whole numbers ends at the number, without some of its last zeros. -/
theorem coarsest_eq (h : c.Singles n) (tie : Tie) {fuel : Nat} (hfuel : e < fuel) :
    ∃ k, tenPow k ∣ n ∧ c.coarsest tie fuel e = ⟨n / tenPow k, k⟩ := by
  induction e generalizing fuel with
  | zero =>
    cases fuel with
    | zero => exact absurd hfuel (Nat.not_lt_zero 0)
    | succ grids =>
      have hone : tenPow 0 ∣ n := Nat.one_dvd n
      refine ⟨0, hone, ?_⟩
      rw [coarsest, h.onGrid_of_dvd hone]
  | succ e ih =>
    cases fuel with
    | zero => exact absurd hfuel (Nat.not_lt_zero _)
    | succ grids =>
      by_cases hdvd : tenPow (e + 1) ∣ n
      · refine ⟨e + 1, hdvd, ?_⟩
        rw [coarsest, h.onGrid_of_dvd hdvd]
      · rw [coarsest, h.onGrid_of_not_dvd hdvd]
        have hnext : ((e + 1 : Nat) : Int) - 1 = e := by omega
        simp only [hnext]
        exact ih (Nat.lt_of_succ_lt_succ hfuel)

end Cell.Singles

/-! ## The cell of an integer -/

namespace Cell

theorem contains_ofMagnitude_self {m : Nat} (hm : 0 < m) :
    (ofMagnitude m).contains 1 (4 * m) = true := by
  have hstep : 0 < twoPow (m.log2 - 52) := twoPow_pos _
  simp only [contains, ofMagnitude, Nat.mul_one]
  split_ifs <;> simp only [Bool.and_eq_true, decide_eq_true_eq] <;> omega

/-- A cell reaches half as far as the next magnitudes, or less. -/
theorem bounds_of_contains {m point : Nat} (h : (ofMagnitude m).contains 1 point = true) :
    4 * m ≤ point + 2 * spacing m ∧ point ≤ 4 * m + 2 * spacing m := by
  simp only [contains, ofMagnitude, Nat.mul_one] at h
  simp only [spacing]
  split_ifs at h <;> simp only [Bool.and_eq_true, decide_eq_true_eq] at h <;> omega

theorem near_of_contains {n k t : Nat} (ht : spacing (n * unitsPerOne) ≤ t * unitsPerOne)
    (h : (ofMagnitude (n * unitsPerOne)).contains 1 (4 * (k * unitsPerOne)) = true) :
    2 * n ≤ 2 * k + t ∧ 2 * k ≤ 2 * n + t := by
  obtain ⟨hlow, hhigh⟩ := bounds_of_contains h
  constructor
  · refine Nat.le_of_mul_le_mul_right (c := unitsPerOne) ?_ unitsPerOne_pos
    rw [Nat.add_mul, Nat.mul_assoc, Nat.mul_assoc]
    omega
  · refine Nat.le_of_mul_le_mul_right (c := unitsPerOne) ?_ unitsPerOne_pos
    rw [Nat.add_mul, Nat.mul_assoc, Nat.mul_assoc]
    omega

end Cell

theorem spacing_mul_unitsPerOne_le {n : Nat} (hn : 0 < n) (k : Nat) (h : n < twoPow (k + 53)) :
    spacing (n * unitsPerOne) ≤ twoPow k * unitsPerOne := by
  have hlt : n * unitsPerOne < twoPow (k + 53 + 1074) := by
    rw [twoPow_add]
    exact Nat.mul_lt_mul_of_pos_right h unitsPerOne_pos
  have hlog := (log2_lt_iff (Nat.ne_of_gt (Nat.mul_pos hn unitsPerOne_pos))).2 hlt
  rw [spacing, Finite64.twoPow_mul_unitsPerOne]
  exact twoPow_le_twoPow (by omega)

/-- What rounds to an integer below `2^53` is nearer to it than its neighbours.  At `2^53` the
neighbours are in reach, but none of them is a multiple of ten. -/
theorem singles_ofMagnitude {n : Nat} (hn : 0 < n) (h : n ≤ twoPow 53) :
    (Cell.ofMagnitude (n * unitsPerOne)).Singles n := by
  have hpoint : ∀ k, 4 * unitsPerOne * k = 4 * (k * unitsPerOne) := by
    intro k
    rw [Nat.mul_assoc, Nat.mul_comm unitsPerOne k]
  refine ⟨?_, ?_, fun k hmem => ?_⟩
  · rw [hpoint]
    rfl
  · rw [hpoint]
    exact Cell.contains_ofMagnitude_self (Nat.mul_pos hn unitsPerOne_pos)
  · rw [hpoint] at hmem
    rcases Nat.lt_or_eq_of_le h with hlt | rfl
    · have hnear := Cell.near_of_contains (spacing_mul_unitsPerOne_le hn 0 hlt) hmem
      have hone : twoPow 0 = 1 := rfl
      omega
    · have hnear := Cell.near_of_contains
        (spacing_mul_unitsPerOne_le hn 1 (twoPow_lt_twoPow (by decide))) hmem
      have htwo : twoPow 1 = 2 := rfl
      have hlimit : twoPow 53 = 9007199254740992 := rfl
      omega

/-- The shortest decimal of an integer up to `2^53` is laid out as the integer. -/
theorem plain_shortest {n : Nat} (hn : 0 < n) (h : n ≤ twoPow 53) (tie : Tie) :
    (shortest tie (n * unitsPerOne)).plain = Text.decimal n := by
  have hlow : 1074 ≤ (n * unitsPerOne).log2 := by
    rw [← log2_twoPow 1074]
    exact log2_mono (Nat.le_mul_of_pos_left _ hn)
  have hhigh : (n * unitsPerOne).log2 < 1128 := by
    rw [log2_lt_iff (Nat.ne_of_gt (Nat.mul_pos hn unitsPerOne_pos)),
      ← Finite64.twoPow_mul_unitsPerOne 54]
    exact Nat.mul_lt_mul_of_pos_right (Nat.lt_of_le_of_lt h (twoPow_lt_twoPow (by decide)))
      unitsPerOne_pos
  obtain ⟨start, hstart, hfuel⟩ : ∃ start : Nat,
      (((n * unitsPerOne).log2 : Int) - 1074) * 30103 / 100000 + 2 = start ∧ start < 24 :=
    ⟨((((n * unitsPerOne).log2 : Int) - 1074) * 30103 / 100000 + 2).toNat, by omega, by omega⟩
  obtain ⟨k, hdvd, hfound⟩ := (singles_ofMagnitude hn h).coarsest_eq tie hfuel
  unfold shortest
  simp only [hstart, hfound]
  exact plain_div_tenPow hn hdvd

end Decimal

namespace Finite64

/-- A message shows an integer up to `2^53` by its own digits, though it went through a double. -/
theorem message_ofInt {i : Int} (hi : i.natAbs < twoPow 128) (h : i.natAbs ≤ twoPow 53) :
    (ofInt i hi).message = Text.integer i := by
  have hmagnitude : (ofInt i hi).magnitude = i.natAbs * unitsPerOne := rounded_mul_unitsPerOne h
  have hnegative : (ofInt i hi).negative = decide (i < 0) := rfl
  have hwhole : (ofInt i hi).isWhole = true := by
    simp only [isWhole, hmagnitude, Nat.mul_mod_left, beq_self_eq_true]
  have htruncate : (ofInt i hi).truncate = i := by
    simp only [truncate, hmagnitude, hnegative, Nat.mul_div_cancel _ unitsPerOne_pos,
      decide_eq_true_eq]
    split_ifs <;> omega
  unfold message
  rw [hwhole, Bool.true_and, htruncate, hmagnitude, hnegative]
  split_ifs with hbound hneg
  · rfl
  all_goals
    have hpos : 0 < i.natAbs := by
      rcases Nat.eq_zero_or_pos i.natAbs with hzero | hpos
      · rw [hzero, Nat.zero_mul, decide_eq_true_eq] at hbound
        exact absurd (Nat.mul_pos (tenPow_pos 15) unitsPerOne_pos) hbound
      · exact hpos
    rw [Decimal.plain_shortest hpos h, Text.integer]
  · rw [if_pos (of_decide_eq_true hneg)]
    rfl
  · rw [if_neg (fun hlt => hneg (decide_eq_true hlt))]
    rfl

/-! ## Doubles that are one number -/

theorem message_of_magnitude_eq_zero {x : Finite64} (h : x.magnitude = 0) :
    x.message = Text.integer 0 := by
  have hwhole : x.isWhole = true := by rw [isWhole, h, Nat.zero_mod]; rfl
  have hbound : x.magnitude < messageIntegerBound := by
    rw [h]
    exact Nat.mul_pos (tenPow_pos 15) unitsPerOne_pos
  have htruncate : x.truncate = 0 := by
    rw [truncate, h, Nat.zero_div]
    split <;> rfl
  rw [message, hwhole, Bool.true_and, if_pos (decide_eq_true hbound), htruncate]

/-- Doubles that are one number are shown alike. -/
theorem message_congr {x y : Finite64} (h : x.toInt = y.toInt) : x.message = y.message := by
  obtain ⟨a, m, hm⟩ := x
  obtain ⟨b, n, hn⟩ := y
  rw [toInt, toInt] at h
  by_cases hsign : a = b
  · subst hsign
    obtain rfl : m = n := by
      dsimp only at h
      split at h <;> omega
    rfl
  · obtain ⟨rfl, rfl⟩ : m = 0 ∧ n = 0 := by
      cases a <;> cases b <;> simp at hsign h <;> omega
    rw [message_of_magnitude_eq_zero rfl, message_of_magnitude_eq_zero rfl]

end Finite64

theorem Binary64.message_congr {x y : Binary64} (h : x.toInt = y.toInt) :
    x.message = y.message := by
  have hpos := overflow_pos
  cases x with
  | finite x =>
    cases y with
    | finite y => exact congrArg String.ofList (Finite64.message_congr h)
    | infinite negative =>
      have hbounds := toInt_finite_bounds x
      rw [toInt_finite, toInt] at h
      split at h <;> omega
  | infinite negative =>
    cases y with
    | finite y =>
      have hbounds := toInt_finite_bounds y
      rw [toInt_finite, toInt] at h
      split at h <;> omega
    | infinite negative' =>
      cases negative <;> cases negative'
      · rfl
      · have hopposite : (overflow : Int) = -overflow := h
        omega
      · have hopposite : -(overflow : Int) = overflow := h
        omega
      · rfl

end CalendarRules
