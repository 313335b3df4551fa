import CalendarRules.Proofs.Json.WellFormed
import Mathlib.Data.List.Forall2
import Mathlib.Data.List.Nodup
import Mathlib.Data.List.Perm.Subperm

/-!
# Equality of documents is an equivalence

Arrays are equal item by item and objects key by key.  That the equality of objects is symmetric
rests on their keys being distinct: as many keys on either side, and every key of one among those of
the other.  All three laws are proved by induction on the nesting.
-/

namespace CalendarRules

/-! ## Numbers -/

namespace Number

theorem same_refl (m : Number) : m.same m = true := by
  cases m with
  | int i _ => exact beq_iff_eq.2 rfl
  | float x => exact beq_iff_eq.2 rfl

theorem same_symm {m n : Number} (h : m.same n = true) : n.same m = true := by
  cases m <;> cases n <;> simp_all [same]

theorem same_trans {m n o : Number} (hmn : m.same n = true) (hno : n.same o = true) :
    m.same o = true := by
  cases m <;> cases n <;> cases o <;> simp_all [same]

end Number

namespace Json

attribute [local simp] same sameItems sameEntries

/-! ## The parts of equal documents -/

theorem eq_null_of_same {j : Json} (h : null.same j = true) : j = null := by
  cases j with
  | null => rfl
  | bool _ | number _ | string _ | array _ | object _ => simp at h

theorem eq_bool_of_same {b : Bool} {j : Json} (h : (bool b).same j = true) : j = bool b := by
  cases j with
  | bool c =>
    rw [same, beq_iff_eq] at h
    rw [h]
  | null | number _ | string _ | array _ | object _ => simp at h

theorem exists_of_same_number {m : Number} {j : Json} (h : (number m).same j = true) :
    ∃ n, j = number n ∧ m.same n = true := by
  cases j with
  | number n =>
    rw [same] at h
    exact ⟨n, rfl, h⟩
  | null | bool _ | string _ | array _ | object _ => simp at h

theorem same_string_iff {s : String} {j : Json} : (string s).same j = true ↔ j = string s := by
  cases j with
  | string t =>
    rw [same, beq_iff_eq, string.injEq]
    exact eq_comm
  | null | bool _ | number _ | array _ | object _ => simp

theorem same_string_right_iff {s : String} {j : Json} :
    j.same (string s) = true ↔ j = string s := by
  cases j with
  | string t => rw [same, beq_iff_eq, string.injEq]
  | null | bool _ | number _ | array _ | object _ => simp

theorem sameItems_iff {xs ys : List Json} :
    sameItems xs ys = true ↔ List.Forall₂ (fun x y => x.same y = true) xs ys := by
  induction xs generalizing ys with
  | nil => cases ys <;> simp
  | cons x xs ih =>
    cases ys with
    | nil => simp
    | cons y ys => rw [sameItems, Bool.and_eq_true, ih, List.forall₂_cons]

theorem exists_of_same_array {xs : List Json} {j : Json} (h : (array xs).same j = true) :
    ∃ ys, j = array ys ∧ List.Forall₂ (fun x y => x.same y = true) xs ys := by
  cases j with
  | array ys =>
    rw [same] at h
    exact ⟨ys, rfl, sameItems_iff.1 h⟩
  | null | bool _ | number _ | string _ | object _ => simp at h

theorem sameEntries_iff {xs ys : Entries} :
    sameEntries xs ys = true ↔
      ∀ e ∈ xs, ∃ y, Entries.get? e.1 ys = some y ∧ e.2.same y = true := by
  induction xs with
  | nil => simp
  | cons e xs ih =>
    obtain ⟨key, x⟩ := e
    rw [sameEntries, Bool.and_eq_true, ih, List.forall_mem_cons]
    refine and_congr_left fun _ => ?_
    cases Entries.get? key ys with
    | none => simp
    | some y => simp

theorem same_object_iff {xs ys : Entries} :
    (object xs).same (object ys) = true ↔
      xs.length = ys.length ∧ ∀ e ∈ xs, ∃ y, Entries.get? e.1 ys = some y ∧ e.2.same y = true := by
  rw [same, Bool.and_eq_true, beq_iff_eq, sameEntries_iff]

theorem exists_of_same_object {xs : Entries} {j : Json} (h : (object xs).same j = true) :
    ∃ ys : Entries, j = object ys := by
  cases j with
  | object ys => exact ⟨ys, rfl⟩
  | null | bool _ | number _ | string _ | array _ => simp at h

/-- As many keys on either side, and every key of one among those of the other. -/
theorem keys_subset_of_same {xs ys : Entries} (hx : (Entries.keys xs).Nodup)
    (h : (object xs).same (object ys) = true) :
    ∀ key ∈ Entries.keys ys, key ∈ Entries.keys xs := by
  obtain ⟨hlen, h⟩ := same_object_iff.1 h
  have hsub : Entries.keys xs ⊆ Entries.keys ys := by
    intro key hkey
    obtain ⟨e, he, rfl⟩ := List.mem_map.1 hkey
    obtain ⟨y, hy, -⟩ := h e he
    exact Entries.mem_keys (Entries.mem_of_get? hy)
  have hlength : (Entries.keys ys).length = (Entries.keys xs).length := by
    rw [Entries.keys, Entries.keys, List.length_map, List.length_map, hlen]
  have hperm : (Entries.keys xs).Perm (Entries.keys ys) :=
    (hx.subperm hsub).perm_of_length_le (Nat.le_of_eq hlength)
  exact fun key hkey => hperm.mem_iff.2 hkey

/-! ## The three laws -/

theorem same_refl_of_depth (n : Nat) : ∀ j : Json, j.depth < n → j.WellFormed →
    j.same j = true := by
  induction n with
  | zero => exact fun j h => absurd h (Nat.not_lt_zero _)
  | succ n ih =>
    intro j hlt hw
    cases j with
    | null | bool _ | string _ => simp
    | number m =>
      rw [same]
      exact Number.same_refl m
    | array xs =>
      rw [same, sameItems_iff, List.forall₂_same]
      intro x hx
      have hdepth := depth_lt_of_mem hx
      exact ih x (by omega) (wellFormed_array.1 hw x hx)
    | object xs =>
      obtain ⟨hn, hes⟩ := wellFormed_object.1 hw
      refine same_object_iff.2 ⟨rfl, fun e he => ⟨e.2, Entries.get?_of_mem hn he, ?_⟩⟩
      have hdepth := depth_lt_of_mem_entries he
      exact ih e.2 (by omega) (hes e he)

theorem same_symm_of_depth (n : Nat) : ∀ i j : Json, i.depth < n → i.WellFormed → j.WellFormed →
    i.same j = true → j.same i = true := by
  induction n with
  | zero => exact fun i j h => absurd h (Nat.not_lt_zero _)
  | succ n ih =>
    intro i j hlt hi hj h
    cases i with
    | null =>
      obtain rfl := eq_null_of_same h
      exact h
    | bool b =>
      obtain rfl := eq_bool_of_same h
      exact h
    | string s => exact same_string_right_iff.2 (same_string_iff.1 h)
    | number m =>
      obtain ⟨k, rfl, hmk⟩ := exists_of_same_number h
      rw [same]
      exact Number.same_symm hmk
    | array xs =>
      obtain ⟨ys, rfl, hsame⟩ := exists_of_same_array h
      rw [same, sameItems_iff]
      refine List.Forall₂.flip ?_
      rw [List.forall₂_iff_zip] at hsame ⊢
      refine ⟨hsame.1, fun {x y} hxy => ?_⟩
      obtain ⟨hx, hy⟩ := List.of_mem_zip hxy
      have hdepth := depth_lt_of_mem hx
      exact ih x y (by omega) (wellFormed_array.1 hi x hx) (wellFormed_array.1 hj y hy)
        (hsame.2 hxy)
    | object xs =>
      obtain ⟨ys, rfl⟩ := exists_of_same_object h
      obtain ⟨hnx, hwx⟩ := wellFormed_object.1 hi
      obtain ⟨hny, hwy⟩ := wellFormed_object.1 hj
      have hkeys := keys_subset_of_same hnx h
      obtain ⟨hlen, hxs⟩ := same_object_iff.1 h
      refine same_object_iff.2 ⟨hlen.symm, fun e he => ?_⟩
      obtain ⟨e', he', hkey⟩ := List.mem_map.1 (hkeys e.1 (Entries.mem_keys he))
      -- What stands under the key on the right is `e.2`, since the key occurs there once.
      obtain ⟨y, hy, hsame⟩ := hxs e' he'
      rw [hkey, Entries.get?_of_mem hny he] at hy
      cases hy
      have hdepth := depth_lt_of_mem_entries he'
      refine ⟨e'.2, hkey ▸ Entries.get?_of_mem hnx he', ?_⟩
      exact ih e'.2 e.2 (by omega) (hwx e' he') (hwy e he) hsame

theorem same_trans_of_depth (n : Nat) : ∀ i j k : Json, i.depth < n → i.same j = true →
    j.same k = true → i.same k = true := by
  induction n with
  | zero => exact fun i j k h => absurd h (Nat.not_lt_zero _)
  | succ n ih =>
    intro i j k hlt hij hjk
    cases i with
    | null =>
      rw [eq_null_of_same hij] at hjk
      exact hjk
    | bool b =>
      rw [eq_bool_of_same hij] at hjk
      exact hjk
    | string s =>
      rw [same_string_iff.1 hij] at hjk
      exact hjk
    | number m =>
      obtain ⟨o, rfl, hmo⟩ := exists_of_same_number hij
      obtain ⟨q, rfl, hoq⟩ := exists_of_same_number hjk
      rw [same]
      exact Number.same_trans hmo hoq
    | array xs =>
      obtain ⟨ys, rfl, hxs⟩ := exists_of_same_array hij
      obtain ⟨zs, rfl, hys⟩ := exists_of_same_array hjk
      rw [same, sameItems_iff]
      rw [List.forall₂_iff_get] at hxs hys ⊢
      refine ⟨hxs.1.trans hys.1, fun p hx hz => ?_⟩
      have hdepth := depth_lt_of_mem (List.get_mem xs ⟨p, hx⟩)
      have hy : p < ys.length := hxs.1 ▸ hx
      exact ih _ _ _ (by omega) (hxs.2 p hx hy) (hys.2 p hy hz)
    | object xs =>
      obtain ⟨ys, rfl⟩ := exists_of_same_object hij
      obtain ⟨zs, rfl⟩ := exists_of_same_object hjk
      obtain ⟨hlen, hxs⟩ := same_object_iff.1 hij
      obtain ⟨hlen', hys⟩ := same_object_iff.1 hjk
      refine same_object_iff.2 ⟨hlen.trans hlen', fun e he => ?_⟩
      obtain ⟨y, hy, hxy⟩ := hxs e he
      obtain ⟨z, hz, hyz⟩ := hys (e.1, y) (Entries.mem_of_get? hy)
      have hdepth := depth_lt_of_mem_entries he
      exact ⟨z, hz, ih e.2 y z (by omega) hxy hyz⟩

theorem same_refl {j : Json} (h : j.WellFormed) : j.same j = true :=
  same_refl_of_depth (j.depth + 1) j (Nat.lt_succ_self _) h

theorem same_symm {i j : Json} (hi : i.WellFormed) (hj : j.WellFormed) (h : i.same j = true) :
    j.same i = true :=
  same_symm_of_depth (i.depth + 1) i j (Nat.lt_succ_self _) hi hj h

theorem same_trans {i j k : Json} (hij : i.same j = true) (hjk : j.same k = true) :
    i.same k = true :=
  same_trans_of_depth (i.depth + 1) i j k (Nat.lt_succ_self _) hij hjk

end Json
end CalendarRules
