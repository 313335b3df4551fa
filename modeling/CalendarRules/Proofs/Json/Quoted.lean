import CalendarRules.Json.Parser
import CalendarRules.Json.Writer

/-!
# Strings read back

A string between its quotes reads back as itself (`scanString_quoted`): every character is written
as an escape, or as itself if nothing else can be meant, and the scanner takes one at a time.
-/

namespace CalendarRules
namespace Source

open Json (escape hexDigit quoted)

theorem hexValue?_hexDigit : ∀ d, d < 16 → hexValue? (hexDigit d) = some d := by
  decide

theorem scanHex_control {n : Nat} (h : n < 32) (cs : List Char) :
    scanHex ('0' :: '0' :: hexDigit (n / 16) :: hexDigit (n % 16) :: cs) = .ok (n, cs) := by
  have hzero : hexValue? '0' = some 0 := rfl
  simp only [scanHex, hzero, hexValue?_hexDigit (n / 16) (by omega),
    hexValue?_hexDigit (n % 16) (by omega)]
  congr 2
  omega

/-- A character behind a backslash that stands for itself or for a control character. -/
theorem scanString_letter {c d : Char} (hu : d ≠ 'u') (hd : letterEscape? d = some c) (fuel : Nat)
    (read cs : List Char) : scanString (fuel + 1) read none ('\\' :: d :: cs) =
      scanString fuel (c :: read) none cs := by
  rw [scanString, hd]
  exact hu

/-- A character that stands for itself. -/
theorem scanString_plain {c : Char} (hq : c ≠ '"') (hb : c ≠ '\\') (hc : ¬c.toNat < 32) (fuel : Nat)
    (read cs : List Char) :
    scanString (fuel + 1) read none (c :: cs) = scanString fuel (c :: read) none cs := by
  rw [scanString, if_neg hc]
  · exact hq
  · exact fun h _ => hb h
  · exact fun _ h _ => hb h
  · exact fun _ _ h _ => hb h

/-- A control character without a letter of its own. -/
theorem scanString_control {c : Char} (hc : c.toNat < 32) (fuel : Nat) (read cs : List Char) :
    scanString (fuel + 1) read none
        ('\\' :: 'u' :: '0' :: '0' :: hexDigit (c.toNat / 16) :: hexDigit (c.toNat % 16) :: cs) =
      scanString fuel (c :: read) none cs := by
  have hlow : isLowSurrogate c.toNat = false := by
    simp only [isLowSurrogate, Bool.and_eq_false_iff, decide_eq_false_iff_not]
    omega
  have hhigh : isHighSurrogate c.toNat = false := by
    simp only [isHighSurrogate, Bool.and_eq_false_iff, decide_eq_false_iff_not]
    omega
  rw [scanString, scanHex_control hc]
  simp only [hlow, hhigh, Bool.false_eq_true, if_false, Char.ofNat_toNat]

/-- One character of a string is read back in one step. -/
theorem scanString_escape (c : Char) (fuel : Nat) (read cs : List Char) :
    scanString (fuel + 1) read none (escape c ++ cs) = scanString fuel (c :: read) none cs := by
  unfold escape
  split
  next h => exact scanString_letter (by decide) (by rw [h]; rfl) fuel read cs
  split
  next h => exact scanString_letter (by decide) (by rw [h]; rfl) fuel read cs
  split
  next h => exact scanString_letter (by decide) (by rw [h]; rfl) fuel read cs
  split
  next h => exact scanString_letter (by decide) (by rw [h]; rfl) fuel read cs
  split
  next h => exact scanString_letter (by decide) (by rw [h]; rfl) fuel read cs
  split
  next h => exact scanString_letter (by decide) (by rw [h]; rfl) fuel read cs
  split
  next h => exact scanString_letter (by decide) (by rw [h]; rfl) fuel read cs
  split
  next h => exact scanString_control h fuel read cs
  next hq hb _ _ _ _ _ hc => exact scanString_plain hq hb hc fuel read cs

theorem scanString_flatMap_escape (rest : List Char) {cs : List Char} :
    ∀ {fuel : Nat} {read : List Char}, cs.length < fuel →
      scanString fuel read none (cs.flatMap escape ++ '"' :: rest) =
        (.ok (String.ofList (read.reverse ++ cs)), .ok rest) := by
  induction cs with
  | nil =>
    intro fuel read hf
    obtain ⟨fuel, rfl⟩ := Nat.exists_eq_succ_of_ne_zero (Nat.ne_of_gt hf)
    simp [scanString]
  | cons c cs ih =>
    intro fuel read hf
    rw [List.length_cons] at hf
    obtain ⟨fuel, rfl⟩ := Nat.exists_eq_succ_of_ne_zero (show fuel ≠ 0 by omega)
    rw [List.flatMap_cons, List.append_assoc, scanString_escape, ih (by omega),
      List.reverse_cons, List.append_assoc, List.singleton_append]

/-- Every character of a string is written as at least one. -/
theorem length_le_length_flatMap_escape (cs : List Char) :
    cs.length ≤ (cs.flatMap escape).length := by
  induction cs with
  | nil => exact Nat.le_refl _
  | cons c cs ih =>
    have hc : 1 ≤ (escape c).length := by
      unfold escape
      repeat' split
      all_goals exact Nat.succ_le_succ (Nat.zero_le _)
    rw [List.flatMap_cons, List.length_append, List.length_cons]
    omega

/-- A string reads back from between its quotes. -/
theorem scanString_quoted (s : String) (rest : List Char) :
    scanString ((s.toList.flatMap escape ++ '"' :: rest).length + 1) [] none
        (s.toList.flatMap escape ++ '"' :: rest) = (.ok s, .ok rest) := by
  have h := length_le_length_flatMap_escape s.toList
  rw [scanString_flatMap_escape rest (by rw [List.length_append, List.length_cons]; omega)]
  rw [List.reverse_nil, List.nil_append, String.ofList_toList]

end Source
end CalendarRules
