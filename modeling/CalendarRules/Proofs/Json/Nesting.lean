import CalendarRules.Json.Parser
import CalendarRules.Json.Reading
import CalendarRules.Proofs.Json.WellFormed

/-!
# How deep a text may be nested

A part that is nested too deep is broken and leads nowhere.  So no reader gets deeper into a text
than the limit (`Document.reach_root_le`), and the document of a text is nested no deeper
(`Json.depth_le_of_ofText`).

The source of a text may itself be deeper: what stands where a key should is kept to be reported,
and may be an array at the limit.  Readers never look for anything in it, and `reach` leaves it out.
-/

namespace CalendarRules
namespace Source

/-! ## How deep readers get -/

mutual

/-- How deep readers may get into arrays and objects, which is nowhere where a key is broken. -/
def reach : Source → Nat
  | .array items _ => reachOfItems items + 1
  | .object entries _ => reachOfEntries entries + 1
  | _ => 0

def reachOfItems : List Source → Nat
  | [] => 0
  | x :: xs => max x.reach (reachOfItems xs)

def reachOfEntries : List (Except Break String × Source) → Nat
  | [] => 0
  | (.error _, _) :: xs => reachOfEntries xs
  | (.ok _, x) :: xs => max x.reach (reachOfEntries xs)

end

mutual

/-- Readers of a document get as deep as it is nested. -/
theorem reach_eq_depth_of_json : ∀ {s : Source} {j : Json}, s.json = .ok j → s.reach = s.depth
  | .null, _, _ | .bool _, _, _ | .number _, _, _ | .string _, _, _ | .broken _, _, _ => by
    rw [reach, depth] <;> simp
  | .array items ending, j, h => by
    obtain ⟨xs, hxs, -⟩ := exists_of_json_array h
    rw [reach, depth, reachOfItems_eq_depthOfItems_of_json hxs]
  | .object entries ending, j, h => by
    obtain ⟨settings, hs, -⟩ := exists_of_json_object h
    rw [reach, depth, reachOfEntries_eq_depthOfEntries_of_json hs]

theorem reachOfItems_eq_depthOfItems_of_json : ∀ {xs : List Source} {js : List Json},
    jsonOfItems xs = .ok js → reachOfItems xs = depthOfItems xs
  | [], _, _ => by rw [reachOfItems, depthOfItems]
  | x :: xs, _, h => by
    obtain ⟨j, js, hj, hjs, -⟩ := exists_of_jsonOfItems_cons h
    rw [reachOfItems, depthOfItems, reach_eq_depth_of_json hj,
      reachOfItems_eq_depthOfItems_of_json hjs]

theorem reachOfEntries_eq_depthOfEntries_of_json :
    ∀ {xs : List (Except Break String × Source)} {settings : List (String × Json)},
      jsonOfEntries xs = .ok settings → reachOfEntries xs = depthOfEntries xs
  | [], _, _ => by rw [reachOfEntries, depthOfEntries]
  | (key, x) :: xs, _, h => by
    obtain ⟨name, j, rest, rfl, hj, hr, -⟩ := exists_of_jsonOfEntries_cons h
    rw [reachOfEntries, depthOfEntries, reach_eq_depth_of_json hj,
      reachOfEntries_eq_depthOfEntries_of_json hr]

end

theorem depth_le_reach_of_json {s : Source} {j : Json} (h : s.json = .ok j) :
    j.depth ≤ s.reach := by
  rw [reach_eq_depth_of_json h]
  exact depth_le_of_json h

theorem reachOfEntries_filter_le (p : Entry → Bool) (entries : List Entry) :
    reachOfEntries (entries.filter p) ≤ reachOfEntries entries := by
  induction entries with
  | nil => exact Nat.le_refl _
  | cons entry rest ih =>
    obtain ⟨key, x⟩ := entry
    rw [List.filter_cons]
    cases key <;> split <;> simp only [reachOfEntries] <;> omega

theorem reach_le_of_entryNamed? {name : String} {entries : List Entry}
    {x : { x : Source // x.depth ≤ depthOfEntries entries }}
    (h : entryNamed? name entries = some x) : x.1.reach ≤ reachOfEntries entries := by
  induction entries with
  | nil => cases h
  | cons entry rest ih =>
    obtain ⟨key, y⟩ := entry
    rw [entryNamed?] at h
    cases key with
    | error place =>
      obtain ⟨z, hz, rfl⟩ := Option.map_eq_some_iff.1 h
      rw [reachOfEntries]
      exact ih hz
    | ok key =>
      rw [reachOfEntries]
      split at h
      · cases h
        exact Nat.le_max_left _ _
      · obtain ⟨z, hz, rfl⟩ := Option.map_eq_some_iff.1 h
        exact Nat.le_trans (ih hz) (Nat.le_max_right _ _)

theorem reach_le_of_itemAt? {items : List Source} {i : Nat}
    {x : { x : Source // x.depth ≤ depthOfItems items }} (h : itemAt? items i = some x) :
    x.1.reach ≤ reachOfItems items := by
  induction items generalizing i with
  | nil => cases h
  | cons y ys ih =>
    rw [reachOfItems]
    cases i with
    | zero =>
      cases h
      exact Nat.le_max_left _ _
    | succ i =>
      obtain ⟨z, hz, rfl⟩ := Option.map_eq_some_iff.1 h
      exact Nat.le_trans (ih hz) (Nat.le_max_right _ _)

/-- A field is found one level further down. -/
theorem reach_lt_of_field? {s : Source} {i : Nat} {name : String}
    {x : { x : Source // x.depth < s.depth }} (h : s.field? i name = some x) :
    x.1.reach < s.reach := by
  cases s with
  | array items ending =>
    obtain ⟨y, hy, rfl⟩ := Option.map_eq_some_iff.1 h
    rw [reach]
    exact Nat.lt_succ_of_le (reach_le_of_itemAt? hy)
  | object entries ending =>
    obtain ⟨y, hy, rfl⟩ := Option.map_eq_some_iff.1 h
    rw [reach]
    exact Nat.lt_succ_of_le (reach_le_of_entryNamed? hy)
  | null | bool _ | number _ | string _ | broken _ => cases h

/-! ## How deep the scanner goes -/

section Scan

variable {level : Nat}

theorem reach_scanLiteral {value : Source} (hv : value.reach ≤ level) (ls : List Char) :
    ∀ cs, (scanLiteral value ls cs).1.reach ≤ level := by
  induction ls with
  | nil => exact fun cs => hv
  | cons l ls ih =>
    intro cs
    cases cs with
    | nil => exact Nat.zero_le _
    | cons c cs =>
      rw [scanLiteral]
      split
      · exact ih cs
      · exact Nat.zero_le _

theorem reach_scanNumber (cs : List Char) : (scanNumber cs).1.reach ≤ level := by
  unfold scanNumber
  split
  · exact Nat.zero_le _
  · split <;> exact Nat.zero_le _

/-- What one level of fuel scans is within the level; the three statements are those of the three
scanners that call each other. -/
def ScansWithin (fuel : Nat) : Prop :=
  (∀ level cs, (scanValue fuel level cs).1.reach ≤ level) ∧
  (∀ level cs, reachOfItems (scanItems fuel level cs).1.1 ≤ level) ∧
  (∀ level cs, reachOfEntries (scanEntries fuel level cs).1.1 ≤ level)

theorem reach_scanValue_succ {fuel : Nat} (ih : ScansWithin fuel) (level : Nat) (cs : List Char) :
    (scanValue (fuel + 1) level cs).1.reach ≤ level := by
  obtain ⟨-, hitems, hentries⟩ := ih
  rw [scanValue]
  split
  · exact Nat.zero_le _
  split
  · exact reach_scanLiteral (Nat.zero_le _) _ _
  split
  · exact reach_scanLiteral (Nat.zero_le _) _ _
  split
  · exact reach_scanLiteral (Nat.zero_le _) _ _
  split
  · split <;> exact Nat.zero_le _
  split
  · exact reach_scanNumber _
  split
  · cases level with
    | zero => exact Nat.zero_le _
    | succ level =>
      simp only
      split
      · exact Nat.succ_le_succ (Nat.zero_le _)
      · exact Nat.succ_le_succ (Nat.zero_le _)
      · rw [reach]
        exact Nat.succ_le_succ (hitems level _)
  split
  · cases level with
    | zero => exact Nat.zero_le _
    | succ level =>
      simp only
      split
      · exact Nat.succ_le_succ (Nat.zero_le _)
      · rw [reach]
        exact Nat.succ_le_succ (hentries level _)
  · exact Nat.zero_le _

theorem reach_scanItems_succ {fuel : Nat} (ih : ScansWithin fuel) (level : Nat) (cs : List Char) :
    reachOfItems (scanItems (fuel + 1) level cs).1.1 ≤ level := by
  obtain ⟨hvalue, hitems, -⟩ := ih
  have hx := hvalue level cs
  have hcons : ∀ {x : Source} {xs : List Source}, x.reach ≤ level → reachOfItems xs ≤ level →
      reachOfItems (x :: xs) ≤ level := by
    intro x xs hx hxs
    rw [reachOfItems]
    exact Nat.max_le.2 ⟨hx, hxs⟩
  rw [scanItems]
  split
  next x rest hs =>
    rw [hs] at hx
    have hnil : reachOfItems [] ≤ level := Nat.zero_le _
    have hone := hcons hx hnil
    split
    · exact hone
    split
    · exact hone
    · exact hone
    · split
      · exact hcons hx (hcons (Nat.zero_le _) hnil)
      · exact hcons hx (hitems level _)
    · exact hone

theorem reach_scanEntries_succ {fuel : Nat} (ih : ScansWithin fuel) (level : Nat)
    (cs : List Char) : reachOfEntries (scanEntries (fuel + 1) level cs).1.1 ≤ level := by
  obtain ⟨hvalue, -, hentries⟩ := ih
  have hcons : ∀ (key : Except Break String) {x : Source} {xs : List Entry}, x.reach ≤ level →
      reachOfEntries xs ≤ level → reachOfEntries ((key, x) :: xs) ≤ level := by
    intro key x xs hx hxs
    cases key with
    | error place =>
      rw [reachOfEntries]
      exact hxs
    | ok key =>
      rw [reachOfEntries]
      exact Nat.max_le.2 ⟨hx, hxs⟩
  have hone : ∀ (key : Except Break String) {x : Source}, x.reach ≤ level →
      reachOfEntries [(key, x)] ≤ level := fun key x hx => hcons key hx (Nat.zero_le _)
  unfold scanEntries
  split
  · exact hone _ (Nat.zero_le _)
  · split
    split
    · exact hone _ (Nat.zero_le _)
    · exact hone _ (Nat.zero_le _)
    · split
      · exact hone _ (Nat.zero_le _)
      next cs _ =>
        have hx := hvalue level cs
        split
        next x rest hs =>
          rw [hs] at hx
          split
          · exact hone _ hx
          · split
            · exact hone _ hx
            · exact hone _ hx
            · exact hcons _ hx (hentries level _)
            · exact hone _ hx
      · exact hone _ (Nat.zero_le _)
  · -- here stands a value in place of the key, scanned one level deeper
    exact Nat.zero_le _

theorem scansWithin (fuel : Nat) : ScansWithin fuel := by
  induction fuel with
  | zero => exact ⟨fun _ _ => Nat.zero_le _, fun _ _ => Nat.zero_le _, fun _ _ => Nat.zero_le _⟩
  | succ fuel ih =>
    exact ⟨reach_scanValue_succ ih, reach_scanItems_succ ih, reach_scanEntries_succ ih⟩

end Scan
end Source

/-- No reader gets deeper into a text than the limit. -/
theorem Document.reach_root_le (text : String) :
    (Document.ofText text).root.reach ≤ Source.maxDepth := by
  have hroot : (Document.ofText text).root =
      (Source.scanValue (2 * text.toList.length + 2) Source.maxDepth text.toList).1 := by
    simp only [Document.ofText, Document.within]
    split <;> rfl
  rw [hroot]
  exact (Source.scansWithin _).1 _ _

/-- The document of a text is that of its root, and nothing follows it. -/
theorem Json.root_of_ofText {text : String} {j : Json} (h : Json.ofText text = .ok j) :
    (Document.ofText text).root.json = .ok j := by
  unfold Json.ofText Document.json at h
  obtain ⟨k, hk, h⟩ := Outcome.bind_eq_ok h
  split at h
  · cases h
  · cases h
    exact hk

/-- The document of a text repeats no key. -/
theorem Json.wellFormed_of_ofText {text : String} {j : Json} (h : Json.ofText text = .ok j) :
    j.WellFormed :=
  Source.wellFormed_of_json (root_of_ofText h)

/-- The document of a text is nested no deeper than the limit. -/
theorem Json.depth_le_of_ofText {text : String} {j : Json} (h : Json.ofText text = .ok j) :
    j.depth ≤ Source.maxDepth :=
  Nat.le_trans (Source.depth_le_reach_of_json (root_of_ofText h)) (Document.reach_root_le text)

end CalendarRules
