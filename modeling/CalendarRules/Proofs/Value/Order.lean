import CalendarRules.Proofs.Value.Scale

/-!
# Order of values

A value stands at most at one place: on its scale, at the number that represents it there
(`Value.place?`).  Each of the four operators of order asks for two places on one scale and for an
inequality of the numbers (`less_iff` and its companions), so the laws of order are those of the
integers (`Operator.order_laws`).
-/

namespace CalendarRules

namespace Value

/-- Where a value stands in the order: its scale, and its number there. -/
def place? (v : Value) : Option (Scale × Int) := v.onScale.units?.map fun n => (v.scale, n)

variable {v x y : Value}

theorem scale_of_place? {s : Scale} {n : Int} (h : v.place? = some (s, n)) : v.scale = s := by
  obtain ⟨m, -, hplace⟩ := Option.map_eq_some_iff.1 h
  exact (Prod.mk.inj hplace).1

theorem onScale_of_plain (h : v.scale = .plain) : v.onScale = v.flattened := by
  obtain ⟨a, hscale, -⟩ | ⟨a, hscale, -⟩ | ⟨-, -, -, honScale⟩ := scale_cases v
  · exact absurd (hscale.symm.trans h) (by decide)
  · exact absurd (hscale.symm.trans h) (by decide)
  · exact honScale

/-- A value has a place on the plain scale exactly if it stands for a number. -/
theorem place?_eq_some_plain_iff {n : Int} : v.place? = some (.plain, n) ↔ v.units? = some n := by
  by_cases hscale : v.scale = .plain
  · rw [place?, onScale_of_plain hscale, hscale, units?, toNumber?_flattened, ← units?]
    simp
  · refine iff_of_false (fun h => hscale (scale_of_place? h)) ?_
    rw [units?, toNumber?_of_scale_ne_plain hscale]
    simp

/-- A value on the plain scale is compared with all others by the numbers that both stand for. -/
theorem exists_place?_iff_of_plain (h : x.scale = .plain) (r : Int → Int → Prop) :
    (∃ s m n, x.place? = some (s, m) ∧ y.place? = some (s, n) ∧ r m n) ↔
      ∃ m n, x.units? = some m ∧ y.units? = some n ∧ r m n := by
  constructor
  · rintro ⟨s, m, n, hx, hy, hr⟩
    obtain rfl : s = .plain := (scale_of_place? hx).symm.trans h
    exact ⟨m, n, place?_eq_some_plain_iff.1 hx, place?_eq_some_plain_iff.1 hy, hr⟩
  · rintro ⟨m, n, hx, hy, hr⟩
    exact ⟨.plain, m, n, place?_eq_some_plain_iff.2 hx, place?_eq_some_plain_iff.2 hy, hr⟩

end Value

namespace Operator

variable {op : Operator} {x y : Value}

/-- An operator that relates numbers and nothing else compares values that stand on one scale. -/
theorem compare_iff_of_relates {relation : Finite64 → Finite64 → Bool} (r : Int → Int → Prop)
    (hr : ∀ a b, relation a b = true ↔ r a.toInt b.toInt) (hapart : op.apart = false)
    (hop : ∀ x y, op.relates x y = Value.numbersSatisfy relation x y) :
    op.compare x y = true ↔
      ∃ s m n, x.place? = some (s, m) ∧ y.place? = some (s, n) ∧ r m n := by
  rw [compare_eq]
  constructor
  · intro h
    split at h
    next hscale =>
      rw [hop, Value.numbersSatisfy_iff hr] at h
      obtain ⟨m, n, hx, hy, hmn⟩ := h
      refine ⟨x.scale, m, n, ?_, ?_, hmn⟩
      · rw [Value.place?, hx, Option.map_some]
      · rw [Value.place?, hy, Option.map_some, hscale]
    next => exact absurd (hapart.symm.trans h) Bool.false_ne_true
  · rintro ⟨s, m, n, hx, hy, hmn⟩
    obtain ⟨m', hm, hplace⟩ := Option.map_eq_some_iff.1 hx
    obtain ⟨rfl, rfl⟩ := Prod.mk.inj hplace
    obtain ⟨n', hn, hplace⟩ := Option.map_eq_some_iff.1 hy
    obtain ⟨hscale, rfl⟩ := Prod.mk.inj hplace
    rw [if_pos hscale.symm, hop, Value.numbersSatisfy_iff hr]
    exact ⟨m', n', hm, hn, hmn⟩

theorem less_iff : less.compare x y = true ↔
    ∃ s m n, x.place? = some (s, m) ∧ y.place? = some (s, n) ∧ m < n :=
  compare_iff_of_relates (· < ·) (fun _ _ => decide_eq_true_iff) rfl fun _ _ => rfl

theorem atMost_iff : atMost.compare x y = true ↔
    ∃ s m n, x.place? = some (s, m) ∧ y.place? = some (s, n) ∧ m ≤ n :=
  compare_iff_of_relates (· ≤ ·) (fun _ _ => decide_eq_true_iff) rfl fun _ _ => rfl

theorem greater_iff : greater.compare x y = true ↔
    ∃ s m n, x.place? = some (s, m) ∧ y.place? = some (s, n) ∧ n < m :=
  compare_iff_of_relates (fun m n => n < m) (fun _ _ => decide_eq_true_iff) rfl fun _ _ => rfl

theorem atLeast_iff : atLeast.compare x y = true ↔
    ∃ s m n, x.place? = some (s, m) ∧ y.place? = some (s, n) ∧ n ≤ m :=
  compare_iff_of_relates (fun m n => n ≤ m) (fun _ _ => decide_eq_true_iff) rfl fun _ _ => rfl

/-! ## The laws -/

theorem less_eq_greater (x y : Value) : less.compare x y = greater.compare y x := by
  rw [Bool.eq_iff_iff, less_iff, greater_iff]
  constructor
  · rintro ⟨s, m, n, hx, hy, h⟩
    exact ⟨s, n, m, hy, hx, h⟩
  · rintro ⟨s, m, n, hx, hy, h⟩
    exact ⟨s, n, m, hy, hx, h⟩

theorem atMost_eq_atLeast (x y : Value) : atMost.compare x y = atLeast.compare y x := by
  rw [Bool.eq_iff_iff, atMost_iff, atLeast_iff]
  constructor
  · rintro ⟨s, m, n, hx, hy, h⟩
    exact ⟨s, n, m, hy, hx, h⟩
  · rintro ⟨s, m, n, hx, hy, h⟩
    exact ⟨s, n, m, hy, hx, h⟩

theorem atMost_of_less (h : less.compare x y = true) : atMost.compare x y = true := by
  obtain ⟨s, m, n, hx, hy, h⟩ := less_iff.1 h
  exact atMost_iff.2 ⟨s, m, n, hx, hy, Int.le_of_lt h⟩

theorem atMost_trans {z : Value} (hxy : atMost.compare x y = true)
    (hyz : atMost.compare y z = true) : atMost.compare x z = true := by
  obtain ⟨s, m, n, hx, hy, hmn⟩ := atMost_iff.1 hxy
  obtain ⟨s', n', k, hy', hz, hnk⟩ := atMost_iff.1 hyz
  -- The middle value stands at one place, so both inequalities are on one scale.
  obtain ⟨rfl, rfl⟩ := Prod.mk.inj (Option.some.inj (hy.symm.trans hy'))
  exact atMost_iff.2 ⟨s, m, k, hx, hz, Int.le_trans hmn hnk⟩

theorem less_of_atMost_of_less {z : Value} (hxy : atMost.compare x y = true)
    (hyz : less.compare y z = true) : less.compare x z = true := by
  obtain ⟨s, m, n, hx, hy, hmn⟩ := atMost_iff.1 hxy
  obtain ⟨s', n', k, hy', hz, hnk⟩ := less_iff.1 hyz
  obtain ⟨rfl, rfl⟩ := Prod.mk.inj (Option.some.inj (hy.symm.trans hy'))
  exact less_iff.2 ⟨s, m, k, hx, hz, Int.lt_of_le_of_lt hmn hnk⟩

/-- Nothing comes before what is at most it. -/
theorem not_less_of_atMost (h : atMost.compare y x = true) : less.compare x y = false := by
  rw [Bool.eq_false_iff]
  intro hless
  obtain ⟨s, m, n, hx, hy, hmn⟩ := less_iff.1 hless
  obtain ⟨s', n', m', hy', hx', hnm⟩ := atMost_iff.1 h
  obtain ⟨-, rfl⟩ := Prod.mk.inj (Option.some.inj (hx.symm.trans hx'))
  obtain ⟨-, rfl⟩ := Prod.mk.inj (Option.some.inj (hy.symm.trans hy'))
  exact absurd hmn (Int.not_lt.2 hnm)

theorem less_irrefl (x : Value) : less.compare x x = false := by
  rw [Bool.eq_false_iff]
  intro h
  exact Bool.false_ne_true ((not_less_of_atMost (atMost_of_less h)).symm.trans h)

/-- Of two values in order the one that is not before the other is at most it. -/
theorem less_or_atMost (h : atMost.compare x y = true) :
    less.compare x y = true ∨ atMost.compare y x = true := by
  obtain ⟨s, m, n, hx, hy, hmn⟩ := atMost_iff.1 h
  obtain hlt | rfl := Int.lt_or_eq_of_le hmn
  · exact .inl (less_iff.2 ⟨s, m, n, hx, hy, hlt⟩)
  · exact .inr (atMost_iff.2 ⟨s, m, m, hy, hx, Int.le_refl m⟩)

/-- Two values in order are in it in exactly one of three ways. -/
theorem trichotomy (h : atMost.compare x y = true ∨ atMost.compare y x = true) :
    (less.compare x y = true ∧ less.compare y x = false ∧
      (atMost.compare x y && atMost.compare y x) = false) ∨
    (less.compare x y = false ∧ less.compare y x = true ∧
      (atMost.compare x y && atMost.compare y x) = false) ∨
    (less.compare x y = false ∧ less.compare y x = false ∧
      (atMost.compare x y && atMost.compare y x) = true) := by
  cases hxy : atMost.compare x y with
  | false =>
    have hyx : atMost.compare y x = true := h.resolve_left (by rw [hxy]; exact Bool.false_ne_true)
    have hless := (less_or_atMost hyx).resolve_right (by rw [hxy]; exact Bool.false_ne_true)
    exact .inr (.inl ⟨not_less_of_atMost hyx, hless, rfl⟩)
  | true =>
    cases hyx : atMost.compare y x with
    | false =>
      have hless := (less_or_atMost hxy).resolve_right (by rw [hyx]; exact Bool.false_ne_true)
      exact .inl ⟨hless, not_less_of_atMost hxy, rfl⟩
    | true => exact .inr (.inr ⟨not_less_of_atMost hyx, not_less_of_atMost hxy, rfl⟩)

/-- The operators of order are one order: the two strict ones and the two others mirror each other,
the strict order is irreflexive and transitive, the other is transitive and contains it, and values
in order are in it in exactly one of three ways. -/
theorem order_laws (x y z : Value) :
    less.compare x y = greater.compare y x ∧
    atMost.compare x y = atLeast.compare y x ∧
    less.compare x x = false ∧
    (less.compare x y = true → less.compare y z = true → less.compare x z = true) ∧
    (atMost.compare x y = true → atMost.compare y z = true → atMost.compare x z = true) ∧
    (atMost.compare x y = true → less.compare y z = true → less.compare x z = true) ∧
    (less.compare x y = true → atMost.compare x y = true) ∧
    (atMost.compare x y = true ∨ atMost.compare y x = true →
      (less.compare x y = true ∧ less.compare y x = false ∧
        (atMost.compare x y && atMost.compare y x) = false) ∨
      (less.compare x y = false ∧ less.compare y x = true ∧
        (atMost.compare x y && atMost.compare y x) = false) ∨
      (less.compare x y = false ∧ less.compare y x = false ∧
        (atMost.compare x y && atMost.compare y x) = true)) := by
  refine ⟨less_eq_greater x y, atMost_eq_atLeast x y, less_irrefl x, ?_, atMost_trans,
    less_of_atMost_of_less, atMost_of_less, trichotomy⟩
  exact fun hxy => less_of_atMost_of_less (atMost_of_less hxy)

end Operator
end CalendarRules
