import CalendarRules.Proofs.Value.Scale

/-!
# Equality of values

Equality is that of the representations on one scale, so it is an equivalence there and hence
everywhere.  Equal values also stand for equal numbers, and every operator looks at the
representations only through equality and through these numbers.  So equal values can replace one
another on either side of any comparison (`Operator.equals_laws`).

## Which values

That the equality of objects is an equivalence needs their keys to be distinct.  The readers see to
that (`Json.wellFormed_of_ofText`), and `Value.WellFormed` says it of a value.
-/

namespace CalendarRules
namespace Value

variable {u v w x y : Value} {i j : Json}

/-- No object of a value repeats a key. -/
def WellFormed (v : Value) : Prop := ∀ j, v = json j → j.WellFormed

theorem wellFormed_json (h : j.WellFormed) : (json j).WellFormed := by
  intro k hk
  rw [← json.inj hk]
  exact h

theorem wellFormed_undefined : undefined.WellFormed := fun _ h => Value.noConfusion h

/-! ## Equality of representations -/

theorem same_number_iff {m : Number} : (json (.number m)).same (json j) = true ↔
    ∃ n, j = .number n ∧ m.toDouble.toInt = n.toDouble.toInt := by
  constructor
  · intro h
    cases j with
    | number n => exact ⟨n, rfl, beq_iff_eq.1 h⟩
    | null | bool _ | string _ | array _ | object _ => simp [same, Json.same] at h
  · rintro ⟨n, rfl, h⟩
    exact beq_iff_eq.2 h

/-- Documents other than numbers are equal as documents. -/
theorem same_json_of_ne (h : ∀ m, i ≠ .number m) : (json i).same (json j) = i.same j := by
  cases i with
  | number m => exact absurd rfl (h m)
  | null | bool _ | string _ | array _ | object _ => rfl

/-- What equals a document that is no number is no number. -/
theorem ne_number_of_same (hi : ∀ m, i ≠ .number m) (h : i.same j = true) : ∀ n, j ≠ .number n := by
  rintro n rfl
  cases i with
  | number m => exact hi m rfl
  | null | bool _ | string _ | array _ | object _ => simp [Json.same] at h

theorem exists_of_same_json (h : (json i).same v = true) : ∃ j, v = json j := by
  cases v with
  | json j => exact ⟨j, rfl⟩
  | undefined | instant _ => cases i <;> cases h

theorem eq_undefined_of_same (h : undefined.same v = true) : v = undefined := by
  cases v with
  | undefined => rfl
  | json _ | instant _ => cases h

theorem same_json_refl (h : j.WellFormed) : (json j).same (json j) = true := by
  by_cases hj : ∃ m, j = .number m
  · obtain ⟨m, rfl⟩ := hj
    exact same_number_iff.2 ⟨m, rfl, rfl⟩
  · rw [same_json_of_ne (not_exists.1 hj)]
    exact Json.same_refl h

theorem same_symm (hu : u.WellFormed) (hv : v.WellFormed) (h : u.same v = true) :
    v.same u = true := by
  cases u with
  | instant t => cases v <;> cases h
  | undefined => rw [eq_undefined_of_same h]; rfl
  | json i =>
    obtain ⟨j, rfl⟩ := exists_of_same_json h
    by_cases hi : ∃ m, i = .number m
    · obtain ⟨m, rfl⟩ := hi
      obtain ⟨n, rfl, hmn⟩ := same_number_iff.1 h
      exact same_number_iff.2 ⟨m, rfl, hmn.symm⟩
    · rw [same_json_of_ne (not_exists.1 hi)] at h
      rw [same_json_of_ne (ne_number_of_same (not_exists.1 hi) h)]
      exact Json.same_symm (hu i rfl) (hv j rfl) h

theorem same_trans (huv : u.same v = true) (hvw : v.same w = true) : u.same w = true := by
  cases u with
  | instant t => cases v <;> cases huv
  | undefined => rw [eq_undefined_of_same huv] at hvw; exact hvw
  | json i =>
    obtain ⟨j, rfl⟩ := exists_of_same_json huv
    obtain ⟨k, rfl⟩ := exists_of_same_json hvw
    by_cases hi : ∃ m, i = .number m
    · obtain ⟨m, rfl⟩ := hi
      obtain ⟨n, rfl, hmn⟩ := same_number_iff.1 huv
      obtain ⟨o, rfl, hno⟩ := same_number_iff.1 hvw
      exact same_number_iff.2 ⟨o, rfl, hmn.trans hno⟩
    · rw [same_json_of_ne (not_exists.1 hi)] at huv ⊢
      rw [same_json_of_ne (ne_number_of_same (not_exists.1 hi) huv)] at hvw
      exact Json.same_trans huv hvw

/-- Equal values stand for equal numbers. -/
theorem units?_of_same (h : u.same v = true) : u.units? = v.units? := by
  cases u with
  | instant t => cases v <;> cases h
  | undefined => rw [eq_undefined_of_same h]
  | json i =>
    obtain ⟨j, rfl⟩ := exists_of_same_json h
    by_cases hi : ∃ m, i = .number m
    · obtain ⟨m, rfl⟩ := hi
      obtain ⟨n, rfl, hmn⟩ := same_number_iff.1 h
      exact congrArg some hmn
    · rw [same_json_of_ne (not_exists.1 hi)] at h
      cases i with
      | number m => exact absurd ⟨m, rfl⟩ hi
      | null => rw [Json.eq_null_of_same h]
      | bool b => rw [Json.eq_bool_of_same h]
      | string s => rw [Json.same_string_iff.1 h]
      | array xs =>
        obtain ⟨ys, rfl, -⟩ := Json.exists_of_same_array h
        rfl
      | object xs =>
        obtain ⟨ys, rfl⟩ := Json.exists_of_same_object h
        rfl

/-! ## Representations -/

theorem exists_of_ofDouble (a : Binary64) : ∃ j, ofDouble a = json j ∧ j.WellFormed := by
  refine ⟨.ofDouble a, rfl, ?_⟩
  cases a with
  | finite x => exact Json.wellFormed_number _
  | infinite negative => exact Json.wellFormed_null

/-- On its scale a value is nothing or a document. -/
theorem onScale_cases (hv : v.WellFormed) :
    v.onScale = undefined ∨ ∃ j, v.onScale = json j ∧ j.WellFormed := by
  obtain ⟨a, -, -, -, h⟩ | ⟨a, -, -, -, h⟩ | ⟨-, -, -, h⟩ := scale_cases v
  · rw [h]
    exact .inr (exists_of_ofDouble a)
  · rw [h]
    exact .inr (exists_of_ofDouble a)
  · rw [h]
    cases v with
    | undefined => exact .inl rfl
    | json j => exact .inr ⟨j, rfl, hv j rfl⟩
    | instant t => exact .inr ⟨_, rfl, Json.wellFormed_number _⟩

theorem wellFormed_onScale (hv : v.WellFormed) : v.onScale.WellFormed := by
  obtain h | ⟨j, h, hj⟩ := onScale_cases hv
  · rw [h]
    exact wellFormed_undefined
  · rw [h]
    exact wellFormed_json hj

theorem onScale_same_refl (hv : v.WellFormed) : v.onScale.same v.onScale = true := by
  obtain h | ⟨j, h, hj⟩ := onScale_cases hv
  · rw [h]
    rfl
  · rw [h]
    exact same_json_refl hj

/-- Equality of well-formed values does not look at which of two equal values it is given. -/
theorem same_congr (hu : u.WellFormed) (hv : v.WellFormed) (h : u.same v = true) :
    u.same w = v.same w := by
  rw [Bool.eq_iff_iff]
  exact ⟨same_trans (same_symm hu hv h), same_trans h⟩

theorem same_congr_right (hu : u.WellFormed) (hv : v.WellFormed) (h : u.same v = true) :
    w.same u = w.same v := by
  rw [Bool.eq_iff_iff]
  exact ⟨fun hw => same_trans hw h, fun hw => same_trans hw (same_symm hu hv h)⟩

end Value

namespace Operator

variable {u v w x y : Value}

/-- Every operator looks at representations only through equality and their numbers. -/
theorem relates_congr (op : Operator) (hu : u.WellFormed) (hv : v.WellFormed)
    (h : u.same v = true) : op.relates u w = op.relates v w ∧ op.relates w u = op.relates w v := by
  have hunits := Value.units?_of_same h
  have horder : ∀ {relation : Finite64 → Finite64 → Bool} (r : Int → Int → Prop),
      (∀ a b, relation a b = true ↔ r a.toInt b.toInt) →
      Value.numbersSatisfy relation u w = Value.numbersSatisfy relation v w ∧
        Value.numbersSatisfy relation w u = Value.numbersSatisfy relation w v :=
    fun r hr => ⟨Value.numbersSatisfy_congr r hr hunits rfl,
      Value.numbersSatisfy_congr r hr rfl hunits⟩
  cases op with
  | is | equals => exact ⟨Value.same_congr hu hv h, Value.same_congr_right hu hv h⟩
  | isNot | notEquals =>
    exact ⟨congrArg not (Value.same_congr hu hv h), congrArg not (Value.same_congr_right hu hv h)⟩
  | greater => exact horder (fun m n => n < m) fun a b => decide_eq_true_iff
  | atLeast => exact horder (fun m n => n ≤ m) fun a b => decide_eq_true_iff
  | less => exact horder (· < ·) fun a b => decide_eq_true_iff
  | atMost => exact horder (· ≤ ·) fun a b => decide_eq_true_iff
  | unknown _ => exact ⟨rfl, rfl⟩

theorem equals_iff :
    Operator.equals.compare x y = true ↔ x.scale = y.scale ∧ x.onScale.same y.onScale = true := by
  rw [compare_eq]
  split_ifs with h
  · exact ⟨fun hs => ⟨h, hs⟩, fun hs => hs.2⟩
  · exact ⟨fun hs => (Bool.false_ne_true hs).elim, fun hs => absurd hs.1 h⟩

theorem compare_congr (op : Operator) (z : Value) (hx : x.WellFormed) (hy : y.WellFormed)
    (h : Operator.equals.compare x y = true) :
    op.compare x z = op.compare y z ∧ op.compare z x = op.compare z y := by
  obtain ⟨hscale, hsame⟩ := equals_iff.1 h
  rw [compare_eq, compare_eq, compare_eq, compare_eq, hscale]
  obtain ⟨hleft, hright⟩ := op.relates_congr (w := z.onScale) (Value.wellFormed_onScale hx)
    (Value.wellFormed_onScale hy) hsame
  rw [hleft, hright]
  exact ⟨rfl, rfl⟩

/-- Equality is an equivalence of values, and equal values can replace one another on either side of
every operator. -/
theorem equals_laws (x y z : Value) (hx : x.WellFormed) (hy : y.WellFormed) :
    equals.compare x x = true ∧
    (equals.compare x y = true → equals.compare y x = true) ∧
    (equals.compare x y = true → equals.compare y z = true → equals.compare x z = true) ∧
    (equals.compare x y = true → ∀ op : Operator,
      op.compare x z = op.compare y z ∧ op.compare z x = op.compare z y) := by
  refine ⟨?_, ?_, ?_, fun h op => op.compare_congr z hx hy h⟩
  · exact equals_iff.2 ⟨rfl, Value.onScale_same_refl hx⟩
  · intro h
    obtain ⟨hscale, hsame⟩ := equals_iff.1 h
    exact equals_iff.2 ⟨hscale.symm, Value.same_symm (Value.wellFormed_onScale hx)
      (Value.wellFormed_onScale hy) hsame⟩
  · intro hxy hyz
    obtain ⟨hscale, hsame⟩ := equals_iff.1 hxy
    obtain ⟨hscale', hsame'⟩ := equals_iff.1 hyz
    exact equals_iff.2 ⟨hscale.trans hscale', Value.same_trans hsame hsame'⟩

/-- Two spellings of one clock time come before the same values. -/
theorem equals_laws_clock :
    equals.compare (.json (.string "9:30")) (.json (.string "09:30")) = true ∧
    less.compare (.json (.string "9:30")) (.json (.string "10:00")) =
      less.compare (.json (.string "09:30")) (.json (.string "10:00")) := by
  have h : equals.compare (.json (.string "9:30")) (.json (.string "09:30")) = true := by
    decide +kernel
  obtain ⟨-, -, -, hcongr⟩ := equals_laws (.json (.string "9:30")) (.json (.string "09:30"))
    (.json (.string "10:00")) (Value.wellFormed_json (Json.wellFormed_string _))
    (Value.wellFormed_json (Json.wellFormed_string _))
  exact ⟨h, (hcongr h .less).1⟩

end Operator
end CalendarRules
