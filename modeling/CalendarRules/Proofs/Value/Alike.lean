import CalendarRules.Proofs.Json.Same
import CalendarRules.Proofs.Value.Scale

/-!
# Values that no rule tells apart

A rule never sees the order of the entries of an object.  So a declaration that is given a payload
as a whole, by a path that leads to it, answers alike for every order of its entries.  `Value.Alike`
says this of two values: they are the same, or two objects with the same entries.

What is asked of a value is then the same for both: whether it is there, whether it counts as true,
what it measures, and how it compares.
-/

namespace CalendarRules

namespace Entries

/-- What stands under a key does not depend on the order of the entries. -/
theorem get?_of_perm {xs ys : Entries} (hn : (keys xs).Nodup) (h : xs.Perm ys) (key : String) :
    get? key xs = get? key ys := by
  have hn' : (keys ys).Nodup := (h.map Prod.fst).nodup_iff.1 hn
  cases hx : get? key xs with
  | some value => exact (get?_of_mem hn' (h.mem_iff.1 (mem_of_get? hx))).symm
  | none =>
    cases hy : get? key ys with
    | none => rfl
    | some value =>
      have hfound := get?_of_mem hn (h.mem_iff.2 (mem_of_get? hy))
      rw [hx] at hfound
      cases hfound

/-- Objects that agree on every key have the same entries. -/
theorem perm_of_get? {xs ys : Entries} (hx : (keys xs).Nodup) (hy : (keys ys).Nodup)
    (h : ∀ key, get? key xs = get? key ys) : xs.Perm ys := by
  refine (List.perm_ext_iff_of_nodup (hx.of_map _) (hy.of_map _)).2 fun entry => ?_
  constructor
  · intro hmem
    exact mem_of_get? ((h entry.1).symm.trans (get?_of_mem hx hmem))
  · intro hmem
    exact mem_of_get? ((h entry.1).trans (get?_of_mem hy hmem))

end Entries

theorem Json.same_object_of_perm {xs ys : Entries} (h : xs.Perm ys) (j : Json) :
    (object xs).same j = (object ys).same j := by
  cases j with
  | object zs =>
    rw [Bool.eq_iff_iff, same_object_iff, same_object_iff, h.length_eq]
    refine and_congr_right fun _ => ⟨fun hxs e he => ?_, fun hys e he => ?_⟩
    · exact hxs e (h.mem_iff.2 he)
    · exact hys e (h.mem_iff.1 he)
  | null | bool _ | number _ | string _ | array _ => simp [same]

namespace Value

/-- The same value, or two objects with the same entries. -/
inductive Alike : Value → Value → Prop where
  | refl (v : Value) : Alike v v
  | object {xs ys : Entries} (hn : (Entries.keys xs).Nodup) (h : xs.Perm ys) :
    Alike (json (.object xs)) (json (.object ys))

theorem alike_of_eq {v w : Value} (h : v = w) : v.Alike w := h ▸ .refl v

namespace Alike

variable {v w : Value}

theorem isUndefined_eq (h : v.Alike w) : v.isUndefined = w.isUndefined := by
  cases h with
  | refl => rfl
  | object => rfl

theorem isTruthy_eq (h : v.Alike w) : v.isTruthy = w.isTruthy := by
  cases h with
  | refl => rfl
  | object => rfl

theorem measure?_eq (h : v.Alike w) : v.measure? = w.measure? := by
  cases h with
  | refl => rfl
  | object hn h =>
    have hduration := Entries.get?_of_perm hn h
    simp only [measure?, durationMinutes?, hduration, toNumber?]

/-- No operator tells the values apart. -/
theorem compare_eq (h : v.Alike w) (op : Operator) (z : Value) :
    op.compare v z = op.compare w z := by
  cases h with
  | refl => rfl
  | @object xs ys hn h =>
    have hsame : (json (.object xs)).same z.onScale = (json (.object ys)).same z.onScale := by
      cases z.onScale with
      | json j => exact Json.same_object_of_perm h j
      | undefined | instant _ => rfl
    have hscale : ∀ es : Entries, (json (.object es)).scale = .plain := fun _ => rfl
    have hrelates : op.relates (json (.object xs)) z.onScale =
        op.relates (json (.object ys)) z.onScale := by
      cases op with
      | is | equals => exact hsame
      | isNot | notEquals => exact congrArg not hsame
      | greater | atLeast | less | atMost | unknown _ => rfl
    rw [Operator.compare_eq, Operator.compare_eq, hscale, hscale]
    exact congrArg (fun b => if Scale.plain = z.scale then b else op.apart) hrelates

end Alike
end Value
end CalendarRules
