import CalendarRules.Proofs.Validation.Equality
import CalendarRules.Proofs.Value.Integer

/-!
# Rules on remainders repeat

A rule on a remainder divides two doubles.  Whole numbers up to `2^53` are doubles themselves, and
so is what one of them leaves of another, so that the remainder is exact
(`Rule.violations_modulo_eq`).  How a number is written does not matter to any comparison, so the
rule says of a number what the comparison of its remainder says, and the same of any two numbers
that are a multiple of the modulus apart (`Rule.violations_modulo_periodic`).
-/

namespace CalendarRules

namespace Number

variable {n : Number} {k : Nat}

/-- The number is the natural number `k`, with or without a point. -/
def Denotes (n : Number) (k : Nat) : Prop := n.units = (k * unitsPerOne : Nat)

theorem denotes_int (k : Nat) (h : IntegerRange k) : (int k h).Denotes k :=
  (Int.natCast_mul k unitsPerOne).symm

theorem Denotes.toInt_toDouble (h : n.Denotes k) (hk : k ≤ twoPow 53) :
    n.toDouble.toInt = (k * unitsPerOne : Nat) := toInt_toDouble_of_le hk h

end Number

/-- Natural numbers up to `2^53` are integers of a document. -/
theorem Json.exists_ofNat_eq {k : Nat} (h : k ≤ twoPow 53) :
    ∃ hk : IntegerRange k, Json.ofNat k = .number (.int k hk) := by
  have hpow : twoPow 53 = 9007199254740992 := by decide
  have hk : IntegerRange k := by
    unfold IntegerRange
    omega
  refine ⟨hk, ?_⟩
  rw [Json.ofNat, Json.ofInt, dif_pos hk]

/-- No operator sees how a number is written. -/
theorem Operator.compare_number_congr (op : Operator) {m n : Number}
    (h : m.toDouble.toInt = n.toDouble.toInt) (v : Value) :
    op.compare (.json (.number m)) v = op.compare (.json (.number n)) v := by
  have hequal : equals.compare (.json (.number m)) (.json (.number n)) = true := by
    rw [compare_numbers, h]
    exact beq_self_eq_true _
  exact (compare_congr op v (Value.wellFormed_json (Json.wellFormed_number m))
    (Value.wellFormed_json (Json.wellFormed_number n)) hequal).1

/-- A key of the payload that has been set leads to what it was set to. -/
theorem Event.field_withExtra (e : Event) (scope : Scope) (key : String) (j : Json) :
    (e.withExtra key j).field scope ⟨["extra", key]⟩ = .json j := by
  rw [field_extra, withExtra, Entries.get?_insert, if_pos rfl]
  rfl

namespace Rule

variable {e e' : Event} {scope scope' : Scope} {path : FieldPath} {modulus n n' : Number}
  {m a k : Nat}

/-- A rule on the remainder of a whole number compares the exact remainder. -/
theorem violations_modulo_eq (operator : Operator) (right : Literal) (hm : 0 < m)
    (hmost : m ≤ twoPow 53) (ha : a ≤ twoPow 53) (hmodulus : modulus.Denotes m)
    (hn : n.Denotes a) (hfield : e.field scope path = .json (.number n)) :
    (modulo path (.value (.number modulus)) operator right).violations e scope =
      if operator.compare (.json (.ofNat (a % m))) right.toValue then []
      else [path.text ++ " modulo " ++ (Literal.value (.number modulus)).text ++ " must be " ++
        operator.text ++ " " ++ right.text] := by
  obtain ⟨hrange, hnat⟩ := Json.exists_ofNat_eq (Nat.le_trans (Nat.mod_le a m) ha)
  have hdivisor := hmodulus.toInt_toDouble hmost
  obtain ⟨z, hz, hremainder⟩ :=
    Binary64.exists_rem_of_le hm ha (hn.toInt_toDouble ha) hdivisor
  have hnonzero : modulus.toDouble.isZero = false := by
    rw [Finite64.isZero, ← Finite64.natAbs_toInt, hdivisor, Int.natAbs_natCast]
    exact beq_false_of_ne (Nat.ne_of_gt (Nat.mul_pos hm unitsPerOne_pos))
  have hexact := operator.compare_number_congr (m := .float z) (n := .int (a % m : Nat) hrange)
    (hremainder.trans ((Number.denotes_int (a % m) hrange).toInt_toDouble
      (Nat.le_trans (Nat.mod_le a m) ha)).symm) right.toValue
  have hmeasure : (Value.json (.number n)).measure? = some (.finite n.toDouble) := rfl
  have hnumber : (Literal.value (.number modulus)).toValue.toNumber? = some modulus.toDouble := rfl
  rw [violations, moduloViolations, hfield, hnat, ← hexact]
  simp only [Value.isUndefined, Bool.false_eq_true, if_false, hmeasure, hnumber, hnonzero, hz]
  rfl

/-- A rule on a remainder says the same of two numbers that are a multiple of the modulus apart:
that the comparison of their exact remainder holds, or that it does not. -/
theorem violations_modulo_periodic (operator : Operator) (right : Literal) (hm : 0 < m)
    (hmost : m ≤ twoPow 53) (hlast : a + k * m ≤ twoPow 53) (hmodulus : modulus.Denotes m)
    (hn : n.Denotes a) (hn' : n'.Denotes (a + k * m))
    (hfield : e.field scope path = .json (.number n))
    (hfield' : e'.field scope' path = .json (.number n')) :
    (modulo path (.value (.number modulus)) operator right).violations e scope =
        (modulo path (.value (.number modulus)) operator right).violations e' scope' ∧
      ((modulo path (.value (.number modulus)) operator right).violations e scope = [] ↔
        operator.compare (.json (.ofNat (a % m))) right.toValue = true) := by
  have hfirst := violations_modulo_eq operator right hm hmost (by omega) hmodulus hn hfield
  have hsecond := violations_modulo_eq operator right hm hmost hlast hmodulus hn' hfield'
  rw [Nat.add_mul_mod_self_right] at hsecond
  refine ⟨hfirst.trans hsecond.symm, ?_⟩
  rw [hfirst]
  cases operator.compare (.json (.ofNat (a % m))) right.toValue with
  | true => simp
  | false => simp

/-- The duty that comes round with the weeks. -/
def duty : Event where
  id := "1"
  type := "duty"
  start := ⟨20468, 28800, 0, by decide⟩
  finish := ⟨20468, 64800, 0, by decide⟩

/-- The first week and the last one that is exact are one modulus apart. -/
theorem violations_modulo_periodic_duty :
    (modulo ⟨["extra", "week"]⟩ (.value (.number (.int 9007199254740991 (by decide)))) .atMost
        (.value (.string "1.5"))).violations
        (duty.withExtra "week" (.number (.int 1 (by decide)))) { clock := duty.start } =
      (modulo ⟨["extra", "week"]⟩ (.value (.number (.int 9007199254740991 (by decide)))) .atMost
        (.value (.string "1.5"))).violations
        (duty.withExtra "week" (.number (.int 9007199254740992 (by decide))))
        { clock := duty.finish } ∧
    (modulo ⟨["extra", "week"]⟩ (.value (.number (.int 9007199254740991 (by decide)))) .atMost
        (.value (.string "1.5"))).violations
        (duty.withExtra "week" (.number (.int 1 (by decide)))) { clock := duty.start } = [] := by
  have hholds : Operator.atMost.compare (.json (.ofNat (1 % 9007199254740991)))
      (Literal.value (.string "1.5")).toValue = true := by
    decide +kernel
  obtain ⟨hsame, hnil⟩ := violations_modulo_periodic (m := 9007199254740991) (a := 1) (k := 1)
    .atMost (.value (.string "1.5")) (by decide) (by decide) (by decide)
    (Number.denotes_int 9007199254740991 (by decide)) (Number.denotes_int 1 (by decide))
    (Number.denotes_int 9007199254740992 (by decide))
    (Event.field_withExtra duty { clock := duty.start } "week" _)
    (Event.field_withExtra duty { clock := duty.finish } "week" _)
  exact ⟨hsame, hnil.2 hholds⟩

end Rule
end CalendarRules
