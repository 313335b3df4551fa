import CalendarRules.Proofs.Json.Same
import CalendarRules.Proofs.Text.Spelling
import CalendarRules.Value.Comparison

/-!
# The three scales of values

The representation in which two values are compared depends on both of them, which hides the order
that they are in.  But no string is a date and a clock time at once, and neither spells a number.
So every value has one scale of its own and one representation there (`Value.scale`,
`Value.onScale`), and every comparison is settled by these: values of one scale compare by their
representations, and values of different scales are neither equal nor ordered
(`Operator.compare_eq`).
-/

namespace CalendarRules

/-- Dates, clock times, and everything else. -/
inductive Scale where
  | date
  | clock
  | plain
  deriving DecidableEq

/-- How an operator compares values that have nothing in common. -/
def Operator.apart : Operator → Bool
  | .isNot | .notEquals => true
  | _ => false

namespace Value

/-- The scale on which a value is compared. -/
def scale (v : Value) : Scale :=
  if v.date?.isSome then .date else if v.clock?.isSome then .clock else .plain

/-- What represents a value on its scale. -/
def onScale (v : Value) : Value :=
  match v.date?, v.clock? with
  | some a, _ => ofDouble a
  | none, some a => ofDouble a
  | none, none => v.flattened

/-- The number that a value stands for, in units of the smallest double. -/
def units? (v : Value) : Option Int := v.toNumber?.map Finite64.toInt

variable {v x y : Value}

/-- A relation of doubles that is one of the numbers they denote. -/
theorem numbersSatisfy_iff {relation : Finite64 → Finite64 → Bool} {r : Int → Int → Prop}
    (hr : ∀ a b, relation a b = true ↔ r a.toInt b.toInt) :
    numbersSatisfy relation x y = true ↔
      ∃ m n, x.units? = some m ∧ y.units? = some n ∧ r m n := by
  unfold numbersSatisfy units?
  cases x.toNumber? with
  | none => simp
  | some a =>
    cases y.toNumber? with
    | none => simp
    | some b => simp [hr]

theorem numbersSatisfy_congr {u v : Value} {relation : Finite64 → Finite64 → Bool}
    (r : Int → Int → Prop) (hr : ∀ a b, relation a b = true ↔ r a.toInt b.toInt)
    (hu : u.units? = x.units?) (hv : v.units? = y.units?) :
    numbersSatisfy relation u v = numbersSatisfy relation x y := by
  rw [Bool.eq_iff_iff]
  rw [numbersSatisfy_iff hr, numbersSatisfy_iff hr, hu, hv]

/-! ## Dates and clock times among values -/

theorem exists_of_date? {a : Binary64} (h : v.date? = some a) :
    ∃ s d, v = json (.string s) ∧ Date.ofText? s = some d := by
  obtain ⟨d, hd, -⟩ := Option.map_eq_some_iff.1 h
  obtain ⟨s, hs, hd⟩ := Option.bind_eq_some_iff.1 hd
  unfold asString? Json.asString? at hs
  split at hs
  next j =>
    split at hs
    next => cases hs; exact ⟨s, d, rfl, hd⟩
    next => cases hs
  next => cases hs

theorem exists_of_clock? {a : Binary64} (h : v.clock? = some a) :
    ∃ s t, v = json (.string s) ∧ ClockTime.ofText? s = some t := by
  obtain ⟨t, ht, -⟩ := Option.map_eq_some_iff.1 h
  obtain ⟨s, hs, ht⟩ := Option.bind_eq_some_iff.1 ht
  unfold asString? Json.asString? at hs
  split at hs
  next j =>
    split at hs
    next => cases hs; exact ⟨s, t, rfl, ht⟩
    next => cases hs
  next => cases hs

/-- No date is a clock time. -/
theorem clock?_of_date? {a : Binary64} (h : v.date? = some a) : v.clock? = none := by
  obtain ⟨s, d, rfl, hd⟩ := exists_of_date? h
  show (ClockTime.ofText? s).map ClockTime.minutes = none
  rw [Date.clock?_of_ofText? hd, Option.map_none]

/-- A value off the plain scale is a string that spells no number. -/
theorem exists_of_scale_ne (h : v.scale ≠ .plain) :
    ∃ s, v = json (.string s) ∧ Binary64.ofText? s = none := by
  unfold scale at h
  split at h
  next hdate =>
    obtain ⟨a, ha⟩ := Option.isSome_iff_exists.1 hdate
    obtain ⟨s, d, rfl, hd⟩ := exists_of_date? ha
    exact ⟨s, rfl, Date.number?_of_ofText? hd⟩
  next =>
    split at h
    next hclock =>
      obtain ⟨a, ha⟩ := Option.isSome_iff_exists.1 hclock
      obtain ⟨s, t, rfl, ht⟩ := exists_of_clock? ha
      exact ⟨s, rfl, ClockTime.number?_of_ofText? ht⟩
    next => exact absurd rfl h

/-- The scales of a value, with what it is there. -/
theorem scale_cases (v : Value) :
    (∃ a, v.scale = .date ∧ v.date? = some a ∧ v.clock? = none ∧ v.onScale = ofDouble a) ∨
    (∃ a, v.scale = .clock ∧ v.date? = none ∧ v.clock? = some a ∧ v.onScale = ofDouble a) ∨
    (v.scale = .plain ∧ v.date? = none ∧ v.clock? = none ∧ v.onScale = v.flattened) := by
  unfold scale onScale
  cases hdate : v.date? with
  | some a => exact .inl ⟨a, rfl, rfl, clock?_of_date? hdate, rfl⟩
  | none =>
    cases hclock : v.clock? with
    | some a => exact .inr (.inl ⟨a, rfl, rfl, rfl, rfl⟩)
    | none => exact .inr (.inr ⟨rfl, rfl, rfl, rfl⟩)

/-! ## The common representation -/

theorem aligned_of_scale_eq (h : x.scale = y.scale) : x.aligned y = (x.onScale, y.onScale) := by
  unfold aligned
  obtain ⟨a, hx, hxd, hxc, hxr⟩ | ⟨a, hx, hxd, hxc, hxr⟩ | ⟨hx, hxd, hxc, hxr⟩ := scale_cases x <;>
  obtain ⟨b, hy, hyd, hyc, hyr⟩ | ⟨b, hy, hyd, hyc, hyr⟩ | ⟨hy, hyd, hyc, hyr⟩ := scale_cases y <;>
  first
  | exact absurd (hx.symm.trans (h.trans hy)) (by decide)
  | simp only [hxd, hyd, hxc, hyc, hxr, hyr]

theorem aligned_of_scale_ne (h : x.scale ≠ y.scale) : x.aligned y = (x.flattened, y.flattened) := by
  unfold aligned
  obtain ⟨a, hx, hxd, hxc, hxr⟩ | ⟨a, hx, hxd, hxc, hxr⟩ | ⟨hx, hxd, hxc, hxr⟩ := scale_cases x <;>
  obtain ⟨b, hy, hyd, hyc, hyr⟩ | ⟨b, hy, hyd, hyc, hyr⟩ | ⟨hy, hyd, hyc, hyr⟩ := scale_cases y <;>
  first
  | exact absurd (hx.trans hy.symm) h
  | simp only [hxd, hyd, hxc, hyc]

theorem toNumber?_flattened : v.flattened.toNumber? = v.toNumber? := by
  cases v with
  | undefined | json _ | instant _ => rfl

theorem eq_of_flattened_string {s : String} (h : v.flattened = json (.string s)) :
    v = json (.string s) := by
  cases v with
  | undefined => cases h
  | json j => exact h
  | instant t => cases h

/-- A string equals only itself. -/
theorem eq_of_same_string {s : String} (h : (json (.string s)).same v.flattened = true) :
    v = json (.string s) := by
  refine eq_of_flattened_string ?_
  cases hv : v.flattened with
  | undefined | instant _ => rw [hv] at h; cases h
  | json j =>
    rw [hv] at h
    rw [Json.same_string_iff.1 h]

theorem eq_of_same_string_right {s : String} (h : v.flattened.same (json (.string s)) = true) :
    v = json (.string s) := by
  refine eq_of_flattened_string ?_
  cases hv : v.flattened with
  | undefined | instant _ => rw [hv] at h; cases h
  | json j =>
    rw [hv] at h
    have h : j.same (.string s) = true := by
      cases j <;> exact h
    rw [Json.same_string_right_iff.1 h]

/-- Of two values on different scales one is a string that is not the other and spells no number.
-/
theorem same_flattened_of_scale_ne (h : x.scale ≠ y.scale) :
    x.flattened.same y.flattened = false := by
  by_contra hsame
  rw [Bool.not_eq_false] at hsame
  by_cases hx : x.scale = .plain
  · rw [hx] at h
    obtain ⟨s, rfl, -⟩ := exists_of_scale_ne h.symm
    rw [eq_of_same_string_right hsame] at hx
    exact h hx.symm
  · obtain ⟨s, rfl, -⟩ := exists_of_scale_ne hx
    rw [eq_of_same_string hsame] at h
    exact h rfl

theorem toNumber?_of_scale_ne_plain (h : v.scale ≠ .plain) : v.toNumber? = none := by
  obtain ⟨s, rfl, hs⟩ := exists_of_scale_ne h
  exact hs

theorem numbersSatisfy_of_scale_ne {relation : Finite64 → Finite64 → Bool}
    (h : x.scale ≠ y.scale) : numbersSatisfy relation x.flattened y.flattened = false := by
  unfold numbersSatisfy
  rw [toNumber?_flattened, toNumber?_flattened]
  by_cases hx : x.scale = .plain
  · rw [hx] at h
    rw [toNumber?_of_scale_ne_plain h.symm]
    cases x.toNumber? with
    | none | some _ => rfl
  · rw [toNumber?_of_scale_ne_plain hx]

end Value

/-- Values of one scale are compared there, and values of different scales not at all. -/
theorem Operator.compare_eq (op : Operator) (x y : Value) :
    op.compare x y = if x.scale = y.scale then op.relates x.onScale y.onScale else op.apart := by
  unfold Operator.compare
  split_ifs with h
  · rw [Value.aligned_of_scale_eq h]
  · rw [Value.aligned_of_scale_ne h]
    show op.relates x.flattened y.flattened = op.apart
    cases op with
    | is | equals => exact Value.same_flattened_of_scale_ne h
    | isNot | notEquals =>
      show (!x.flattened.same y.flattened) = true
      rw [Value.same_flattened_of_scale_ne h]
      rfl
    | greater | atLeast | less | atMost => exact Value.numbersSatisfy_of_scale_ne h
    | unknown _ => rfl

end CalendarRules
