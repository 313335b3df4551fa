import CalendarRules.Proofs.Text.Decimal
import Mathlib.Data.Char
import Mathlib.Data.List.Induction
import Mathlib.Data.List.Lex

/-!
# Numbers in the order of their texts

The first digit of a number weighs more than all digits behind it together.  So two numbers that are
written in the same number of digits are in the order of their texts, the order in which a
dictionary has them (`Text.Spells.lt_iff`), and they are one number only if they are one text.

Texts that are put together from parts are compared part by part, as long as the parts have one
length in both (`Text.append_lt_append_iff`).
-/

namespace CalendarRules

/-- Of two numbers with a rest below the base, the rests count only where the others are equal. -/
theorem mul_add_lt_mul_add_iff {a b m n base : Nat} (hm : m < base) (hn : n < base) :
    a * base + m < b * base + n ↔ a < b ∨ a = b ∧ m < n := by
  rcases Nat.lt_trichotomy a b with hlt | rfl | hgt
  · have hmul := Nat.mul_le_mul_right base (Nat.succ_le_of_lt hlt)
    rw [Nat.succ_mul] at hmul
    exact iff_of_true (by omega) (.inl hlt)
  · omega
  · have hmul := Nat.mul_le_mul_right base (Nat.succ_le_of_lt hgt)
    rw [Nat.succ_mul] at hmul
    exact iff_of_false (by omega) (by omega)

namespace Text

theorem decimalValue_cons (c : Char) (cs : List Char) :
    decimalValue (c :: cs) = digitValue c * tenPow cs.length + decimalValue cs := by
  induction cs using List.reverseRecOn with
  | nil => simp [decimalValue, tenPow]
  | append_singleton cs d ih =>
    have hpow : tenPow (cs.length + 1) = tenPow cs.length * 10 := tenPow_add cs.length 1
    rw [← List.cons_append, decimalValue_concat, decimalValue_concat, ih, List.length_append,
      List.length_singleton, hpow, ← Nat.mul_assoc]
    omega

theorem digitValue_lt {c : Char} (h : c.isDigit = true) : digitValue c < 10 := by
  have := (isDigit_iff c).1 h
  rw [digitValue]
  omega

theorem decimalValue_lt {cs : List Char} (h : ∀ c ∈ cs, c.isDigit = true) :
    decimalValue cs < tenPow cs.length := by
  induction cs with
  | nil => decide
  | cons c cs ih =>
    obtain ⟨hc, hcs⟩ := List.forall_mem_cons.1 h
    have hpow : tenPow (cs.length + 1) = tenPow cs.length * 10 := tenPow_add cs.length 1
    have hhead := Nat.mul_le_mul_right (tenPow cs.length) (Nat.le_of_lt_succ (digitValue_lt hc))
    have htail := ih hcs
    rw [decimalValue_cons, List.length_cons, hpow]
    omega

theorem digitValue_lt_iff {c d : Char} (hc : c.isDigit = true) (hd : d.isDigit = true) :
    digitValue c < digitValue d ↔ c < d := by
  have hc := (isDigit_iff c).1 hc
  have hd := (isDigit_iff d).1 hd
  rw [digitValue, digitValue, Char.lt_def, UInt32.lt_iff_toNat_lt]
  show _ ↔ c.toNat < d.toNat
  omega

theorem digitValue_eq_iff {c d : Char} (hc : c.isDigit = true) (hd : d.isDigit = true) :
    digitValue c = digitValue d ↔ c = d := by
  have hc := (isDigit_iff c).1 hc
  have hd := (isDigit_iff d).1 hd
  rw [digitValue, digitValue, ← Char.toNat_inj]
  omega

section

variable {cs ds : List Char} (hlength : cs.length = ds.length)
  (hcs : ∀ c ∈ cs, c.isDigit = true) (hds : ∀ d ∈ ds, d.isDigit = true)
include hlength hcs hds

/-- In one width, numbers are in the order of their texts. -/
theorem decimalValue_lt_iff : decimalValue cs < decimalValue ds ↔ cs < ds := by
  induction cs generalizing ds with
  | nil =>
    obtain rfl := List.length_eq_zero_iff.1 hlength.symm
    simp
  | cons c cs ih =>
    cases ds with
    | nil => cases hlength
    | cons d ds =>
      obtain ⟨hc, hcs⟩ := List.forall_mem_cons.1 hcs
      obtain ⟨hd, hds⟩ := List.forall_mem_cons.1 hds
      have hlength := Nat.succ.inj hlength
      have hcsLt : decimalValue cs < tenPow ds.length := hlength ▸ decimalValue_lt hcs
      have hdsLt := decimalValue_lt hds
      rw [List.cons_lt_cons_iff, ← ih hlength hcs hds, decimalValue_cons, decimalValue_cons,
        hlength, mul_add_lt_mul_add_iff hcsLt hdsLt, digitValue_lt_iff hc hd,
        digitValue_eq_iff hc hd]

theorem eq_of_decimalValue_eq (h : decimalValue cs = decimalValue ds) : cs = ds := by
  rcases lt_trichotomy cs ds with hlt | heq | hgt
  · exact absurd h (Nat.ne_of_lt ((decimalValue_lt_iff hlength hcs hds).2 hlt))
  · exact heq
  · exact absurd h.symm (Nat.ne_of_lt ((decimalValue_lt_iff hlength.symm hds hcs).2 hgt))

end

/-! ## Numbers in a width of digits -/

/-- The text is a number in a width of digits. -/
def Spells (width n : Nat) (cs : List Char) : Prop :=
  cs.length = width ∧ (∀ c ∈ cs, c.isDigit = true) ∧ decimalValue cs = n

theorem spells_paddedDecimal {width n : Nat} (hw : 0 < width) (h : n < tenPow width) :
    Spells width n (paddedDecimal width n) :=
  ⟨length_paddedDecimal hw h, isDigit_of_mem_paddedDecimal width n,
    decimalValue_paddedDecimal width n⟩

namespace Spells

variable {width m n : Nat} {cs ds : List Char}

theorem lt_tenPow (h : Spells width n cs) : n < tenPow width := by
  obtain ⟨rfl, hdigits, rfl⟩ := h
  exact decimalValue_lt hdigits

theorem lt_iff (hm : Spells width m cs) (hn : Spells width n ds) : cs < ds ↔ m < n := by
  obtain ⟨rfl, hcs, rfl⟩ := hm
  obtain ⟨hlength, hds, rfl⟩ := hn
  exact (decimalValue_lt_iff hlength.symm hcs hds).symm

theorem eq_iff (hm : Spells width m cs) (hn : Spells width n ds) : cs = ds ↔ m = n := by
  obtain ⟨rfl, hcs, rfl⟩ := hm
  obtain ⟨hlength, hds, rfl⟩ := hn
  exact ⟨congrArg decimalValue, eq_of_decimalValue_eq hlength.symm hcs hds⟩

end Spells

/-! ## Parts of texts -/

/-- Texts are compared at the first part in which they differ, if the parts before are equally long.
-/
theorem append_lt_append_iff {as bs cs ds : List Char} (h : as.length = cs.length) :
    as ++ bs < cs ++ ds ↔ as < cs ∨ as = cs ∧ bs < ds := by
  induction as generalizing cs with
  | nil =>
    obtain rfl := List.length_eq_zero_iff.1 h.symm
    simp
  | cons a as ih =>
    cases cs with
    | nil => cases h
    | cons c cs =>
      rw [List.cons_append, List.cons_append, List.cons_lt_cons_iff, ih (Nat.succ.inj h),
        List.cons_lt_cons_iff, List.cons.injEq]
      tauto

end Text
end CalendarRules
