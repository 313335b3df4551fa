import CalendarRules.Json.Numeral
import CalendarRules.Json.Parser
import CalendarRules.Proofs.Outcome
import CalendarRules.Proofs.Text.Decimal
import Mathlib.Data.List.TakeWhile

/-!
# Numerals at the front of a text

Scanning a numeral stops where it ends, so what is scanned off a text is scanned off the same text
with something behind it, as long as that does not continue a numeral (`scan_append`).  What is left
is an end of the text (`suffix_of_scan`).

The text of a number is made of digits, signs, points and `e`, and the text of an integer is scanned
as its digits (`scan_integer`), which are gathered to the last one (`gather_decimal`).
-/

namespace CalendarRules
namespace Numeral

/-! ## Where a numeral ends -/

/-- Text that does not continue a numeral in front of it. -/
def Ends (rest : List Char) : Prop :=
  ∀ c ∈ rest.head?, c.isDigit = false ∧ c ≠ '.' ∧ c ≠ 'e' ∧ c ≠ 'E'

theorem ends_nil : Ends [] := by
  intro c hc
  cases hc

theorem ends_cons {c : Char} {cs : List Char}
    (h : c.isDigit = false ∧ c ≠ '.' ∧ c ≠ 'e' ∧ c ≠ 'E') : Ends (c :: cs) := by
  intro d hd
  rw [List.head?_cons, Option.mem_some_iff] at hd
  exact hd ▸ h

variable {cs rest : List Char}

theorem takeWhile_isDigit_append (hr : Ends rest) :
    (cs ++ rest).takeWhile Char.isDigit = cs.takeWhile Char.isDigit := by
  induction cs with
  | nil =>
    cases rest with
    | nil => rfl
    | cons c rest => exact List.takeWhile_cons_of_neg (by rw [(hr c rfl).1]; decide)
  | cons c cs ih => rw [List.cons_append, List.takeWhile_cons, List.takeWhile_cons, ih]

theorem dropWhile_isDigit_append (hr : Ends rest) :
    (cs ++ rest).dropWhile Char.isDigit = cs.dropWhile Char.isDigit ++ rest := by
  induction cs with
  | nil =>
    cases rest with
    | nil => rfl
    | cons c rest => exact List.dropWhile_cons_of_neg (by rw [(hr c rfl).1]; decide)
  | cons c cs ih =>
    rw [List.cons_append, List.dropWhile_cons, List.dropWhile_cons, ih]
    split <;> rfl

/-! ## Scanning in front of other text

What each part of the scanner takes off a text it takes off the same text with something behind it
that does not continue a numeral. -/

theorem scanDigits_append {ds left : List Char} (hr : Ends rest)
    (h : scanDigits cs = .ok (ds, left)) : scanDigits (cs ++ rest) = .ok (ds, left ++ rest) := by
  cases cs with
  | nil => simp [scanDigits] at h
  | cons c cs =>
    simp only [scanDigits, List.cons_append] at h ⊢
    rw [← List.cons_append, takeWhile_isDigit_append hr, dropWhile_isDigit_append hr]
    split at h
    next hc =>
      cases h
      rw [if_pos hc]
    next => cases h

theorem scanWhole_append {ds left : List Char} (hr : Ends rest)
    (h : scanWhole cs = .ok (ds, left)) : scanWhole (cs ++ rest) = .ok (ds, left ++ rest) := by
  unfold scanWhole at h
  split at h
  next c cs =>
    split at h
    · cases h
    next hc =>
      cases h
      simp [scanWhole, hc]
  next hcs =>
    -- behind a lone zero the text decides which branch is taken, and it does not start with a digit
    have h' := scanDigits_append hr h
    unfold scanWhole
    split
    next c tail heq =>
      cases cs with
      | nil => simp [scanDigits] at h
      | cons z cs =>
        rw [List.cons_append, List.cons.injEq] at heq
        obtain ⟨rfl, heq⟩ := heq
        cases cs with
        | cons d ds => exact absurd rfl (hcs d ds)
        | nil =>
          rw [List.nil_append] at heq
          subst heq
          have hc := (hr c rfl).1
          rw [hc]
          simpa [scanDigits, List.takeWhile, List.dropWhile, hc] using h'
    next => exact h'

theorem scanFraction_append {ds : Option (List Char)} {left : List Char} (hr : Ends rest)
    (h : scanFraction cs = .ok (ds, left)) :
    scanFraction (cs ++ rest) = .ok (ds, left ++ rest) := by
  unfold scanFraction at h
  split at h
  next cs =>
    cases hd : scanDigits cs with
    | error fault => rw [hd] at h; cases h
    | ok taken =>
      rw [hd] at h
      obtain ⟨ds', left'⟩ := taken
      cases h
      simp only [scanFraction, List.cons_append, scanDigits_append hr hd]
      rfl
  next hcs =>
    cases h
    cases cs with
    | nil =>
      cases rest with
      | nil => rfl
      | cons c rest =>
        have hc := (hr c rfl).2.1
        simp only [scanFraction, List.nil_append]
        split
        next heq => exact absurd (List.cons.inj heq).1 hc
        next => rfl
    | cons c cs =>
      simp only [scanFraction, List.cons_append]
      split
      next heq => exact absurd (congrArg (· :: cs) (List.cons.inj heq).1) (hcs cs)
      next => rfl

theorem takeSign_append (hne : cs ≠ []) :
    Binary64.takeSign (cs ++ rest) =
      ((Binary64.takeSign cs).1, (Binary64.takeSign cs).2 ++ rest) := by
  cases cs with
  | nil => exact absurd rfl hne
  | cons c cs =>
    by_cases hm : c = '-'
    · subst hm
      rfl
    by_cases hp : c = '+'
    · subst hp
      rfl
    have hsign : ∀ ds : List Char, Binary64.takeSign (c :: ds) = (false, c :: ds) := by
      intro ds
      unfold Binary64.takeSign
      split
      next heq => exact absurd (List.cons.inj heq).1 hm
      next heq => exact absurd (List.cons.inj heq).1 hp
      next => rfl
    rw [List.cons_append, hsign, hsign]
    rfl

theorem scanExponent_append {exponent : Option (Bool × List Char)} {left : List Char}
    (hr : Ends rest) (h : scanExponent cs = .ok (exponent, left)) :
    scanExponent (cs ++ rest) = .ok (exponent, left ++ rest) := by
  cases cs with
  | nil =>
    cases h
    cases rest with
    | nil => rfl
    | cons c rest =>
      obtain ⟨-, -, he, hE⟩ := hr c rfl
      simp [scanExponent, he, hE]
  | cons c cs =>
    simp only [scanExponent, List.cons_append] at h ⊢
    split at h
    next hc =>
      rw [if_pos hc]
      cases hd : scanDigits (Binary64.takeSign cs).2 with
      | error fault => rw [hd] at h; cases h
      | ok taken =>
        rw [hd] at h
        cases h
        have hne : cs ≠ [] := by
          rintro rfl
          cases hd
        rw [takeSign_append hne, scanDigits_append hr hd]
        rfl
    next hc =>
      cases h
      rw [if_neg hc]
      rfl

/-- The parts of a numeral behind its sign. -/
def scanUnsigned (negative : Bool) (cs : List Char) : Except Fault (Numeral × List Char) := do
  let (whole, cs) ← scanWhole cs
  let (fraction, cs) ← scanFraction cs
  let (exponent, cs) ← scanExponent cs
  return (⟨negative, whole, fraction, exponent⟩, cs)

theorem scan_minus (cs : List Char) : scan ('-' :: cs) = scanUnsigned true cs := rfl

theorem scan_of_ne_minus (h : cs.head? ≠ some '-') : scan cs = scanUnsigned false cs := by
  cases cs with
  | nil => rfl
  | cons c cs =>
    unfold scan
    split
    next hsign =>
      split at hsign
      next heq =>
        rw [(List.cons.inj heq).1] at h
        exact absurd rfl h
      next =>
        cases hsign
        rfl

theorem scanUnsigned_append {negative : Bool} {numeral : Numeral} {left : List Char}
    (hr : Ends rest) (h : scanUnsigned negative cs = .ok (numeral, left)) :
    scanUnsigned negative (cs ++ rest) = .ok (numeral, left ++ rest) := by
  obtain ⟨⟨whole, cs₁⟩, hw, h⟩ := Outcome.bind_eq_ok h
  obtain ⟨⟨fraction, cs₂⟩, hf, h⟩ := Outcome.bind_eq_ok h
  obtain ⟨⟨exponent, cs₃⟩, he, h⟩ := Outcome.bind_eq_ok h
  cases h
  simp only [scanUnsigned, scanWhole_append hr hw, scanFraction_append hr hf,
    scanExponent_append hr he, Outcome.ok_bind]
  rfl

/-- A numeral is scanned alike whatever stands behind it. -/
theorem scan_append {numeral : Numeral} {left : List Char} (hr : Ends rest)
    (h : scan cs = .ok (numeral, left)) : scan (cs ++ rest) = .ok (numeral, left ++ rest) := by
  cases cs with
  | nil => cases h
  | cons c cs =>
    by_cases hc : c = '-'
    · subst hc
      rw [List.cons_append, scan_minus]
      rw [scan_minus] at h
      exact scanUnsigned_append hr h
    · have hh : ∀ ds : List Char, (c :: ds).head? ≠ some '-' := fun ds h => hc (Option.some.inj h)
      rw [scan_of_ne_minus (hh cs)] at h
      rw [List.cons_append, scan_of_ne_minus (hh _), ← List.cons_append]
      exact scanUnsigned_append hr h

/-! ## What is left of a text -/

theorem suffix_of_scanDigits {ds left : List Char} (h : scanDigits cs = .ok (ds, left)) :
    left <:+ cs := by
  cases cs with
  | nil => cases h
  | cons c cs =>
    simp only [scanDigits] at h
    split at h
    · cases h
      exact List.dropWhile_suffix _
    · cases h

theorem suffix_of_scanWhole {ds left : List Char} (h : scanWhole cs = .ok (ds, left)) :
    left <:+ cs := by
  unfold scanWhole at h
  split at h
  · split at h
    · cases h
    · cases h
      exact List.suffix_cons _ _
  · exact suffix_of_scanDigits h

theorem suffix_of_scanFraction {ds : Option (List Char)} {left : List Char}
    (h : scanFraction cs = .ok (ds, left)) : left <:+ cs := by
  unfold scanFraction at h
  split at h
  · obtain ⟨⟨_, _⟩, hd, heq⟩ := Outcome.map_eq_ok h
    cases heq
    exact (suffix_of_scanDigits hd).trans (List.suffix_cons _ _)
  · cases h
    exact List.suffix_rfl

theorem takeSign_suffix (cs : List Char) : (Binary64.takeSign cs).2 <:+ cs := by
  unfold Binary64.takeSign
  split
  · exact List.suffix_cons _ _
  · exact List.suffix_cons _ _
  · exact List.suffix_rfl

theorem suffix_of_scanExponent {exponent : Option (Bool × List Char)} {left : List Char}
    (h : scanExponent cs = .ok (exponent, left)) : left <:+ cs := by
  unfold scanExponent at h
  split at h
  · split at h
    · obtain ⟨⟨_, _⟩, hd, heq⟩ := Outcome.map_eq_ok h
      cases heq
      exact ((suffix_of_scanDigits hd).trans (takeSign_suffix _)).trans (List.suffix_cons _ _)
    · cases h
      exact List.suffix_rfl
  · cases h
    exact List.suffix_rfl

theorem suffix_of_scanUnsigned {negative : Bool} {numeral : Numeral} {left : List Char}
    (h : scanUnsigned negative cs = .ok (numeral, left)) : left <:+ cs := by
  obtain ⟨⟨_, _⟩, hw, h⟩ := Outcome.bind_eq_ok h
  obtain ⟨⟨_, _⟩, hf, h⟩ := Outcome.bind_eq_ok h
  obtain ⟨⟨_, _⟩, he, h⟩ := Outcome.bind_eq_ok h
  cases h
  exact ((suffix_of_scanExponent he).trans (suffix_of_scanFraction hf)).trans
    (suffix_of_scanWhole hw)

theorem suffix_of_scan {numeral : Numeral} {left : List Char}
    (h : scan cs = .ok (numeral, left)) : left <:+ cs := by
  cases cs with
  | nil => cases h
  | cons c cs =>
    by_cases hc : c = '-'
    · subst hc
      rw [scan_minus] at h
      exact (suffix_of_scanUnsigned h).trans (List.suffix_cons _ _)
    · have hh : (c :: cs).head? ≠ some '-' := fun h => hc (Option.some.inj h)
      rw [scan_of_ne_minus hh] at h
      exact suffix_of_scanUnsigned h

/-! ## The text of a number -/

/-- The characters that numerals are made of. -/
def IsMark (c : Char) : Prop := c.isDigit = true ∨ c ∈ ['-', '+', '.', 'e']

theorem isMark_of_mem_decimal (n : Nat) : ∀ c ∈ Text.decimal n, IsMark c :=
  fun c hc => Or.inl (Text.isDigit_of_mem_decimal n c hc)

theorem isMark_of_mem_integer (i : Int) : ∀ c ∈ Text.integer i, IsMark c := by
  intro c hc
  unfold Text.integer at hc
  split at hc
  · rcases List.mem_cons.1 hc with rfl | hc
    · exact Or.inr (by decide)
    · exact isMark_of_mem_decimal _ c hc
  · exact isMark_of_mem_decimal _ c hc

theorem isMark_of_mem_zeros (k : Nat) : ∀ c ∈ List.replicate k '0', IsMark c := by
  intro c hc
  rw [List.eq_of_mem_replicate hc]
  exact Or.inl rfl

theorem isMark_of_mem_plain (d : Decimal) : ∀ c ∈ d.plain, IsMark c := by
  have hd := isMark_of_mem_decimal d.digits
  have hpoint : IsMark '.' := Or.inr (by decide)
  have hzero : IsMark '0' := Or.inl rfl
  intro c hc
  unfold Decimal.plain at hc
  simp only at hc
  split at hc
  · rcases List.mem_append.1 hc with hc | hc
    · exact hd c hc
    · exact isMark_of_mem_zeros _ c hc
  · split at hc
    · rcases List.mem_append.1 hc with hc | hc
      · exact hd c (List.mem_of_mem_take hc)
      · rcases List.mem_cons.1 hc with rfl | hc
        · exact hpoint
        · exact hd c (List.mem_of_mem_drop hc)
    · simp only [List.cons_append, List.mem_cons, List.mem_append] at hc
      rcases hc with rfl | rfl | hc | hc
      · exact hzero
      · exact hpoint
      · exact isMark_of_mem_zeros _ c hc
      · exact hd c hc

theorem isMark_of_mem_scientific (d : Decimal) : ∀ c ∈ d.scientific, IsMark c := by
  have hd := isMark_of_mem_decimal d.digits
  intro c hc
  unfold Decimal.scientific at hc
  simp only at hc
  rcases List.mem_append.1 hc with hc | hc
  · split at hc
    next first second rest heq =>
      rw [heq] at hd
      rcases List.mem_cons.1 hc with rfl | hc
      · exact hd _ (.head _)
      · rcases List.mem_cons.1 hc with rfl | hc
        · exact Or.inr (by decide)
        · exact hd c (.tail _ hc)
    next => exact hd c hc
  · rcases List.mem_cons.1 hc with rfl | hc
    · exact Or.inr (by decide)
    · split at hc
      · rcases List.mem_cons.1 hc with rfl | hc
        · exact Or.inr (by decide)
        · exact isMark_of_mem_decimal _ c hc
      · exact isMark_of_mem_integer _ c hc

theorem isMark_of_mem_double (x : Finite64) : ∀ c ∈ x.json, IsMark c := by
  intro c hc
  unfold Finite64.json at hc
  simp only at hc
  rcases List.mem_append.1 hc with hc | hc
  · split at hc
    · rw [List.mem_singleton.1 hc]
      exact Or.inr (by decide)
    · cases hc
  · split at hc
    · simp only [List.mem_cons, List.not_mem_nil, or_false] at hc
      rcases hc with rfl | rfl | rfl
      · exact Or.inl rfl
      · exact Or.inr (by decide)
      · exact Or.inl rfl
    · unfold Decimal.json at hc
      simp only at hc
      split at hc
      · split at hc
        · rcases List.mem_append.1 hc with hc | hc
          · exact isMark_of_mem_plain _ c hc
          · simp only [List.mem_cons, List.not_mem_nil, or_false] at hc
            rcases hc with rfl | rfl
            · exact Or.inr (by decide)
            · exact Or.inl rfl
        · exact isMark_of_mem_plain _ c hc
      · exact isMark_of_mem_scientific _ c hc

/-- The text of a number has nothing but numeral characters in it. -/
theorem isMark_of_mem_json (n : Number) : ∀ c ∈ n.json, IsMark c :=
  match n with
  | .int i _ => isMark_of_mem_integer i
  | .float x => isMark_of_mem_double x

theorem isGap_eq_false_of_isMark {c : Char} (h : IsMark c) : Source.isGap c = false := by
  rcases h with h | h
  · rw [Text.isDigit_iff] at h
    simp only [Source.isGap, Bool.or_eq_false_iff, decide_eq_false_iff_not]
    refine ⟨⟨⟨?_, ?_⟩, ?_⟩, ?_⟩ <;> (rintro rfl; revert h; decide)
  · simp only [List.mem_cons, List.not_mem_nil, or_false] at h
    rcases h with rfl | rfl | rfl | rfl <;> decide

/-! ## The text of an integer -/

theorem scanDigits_of_isDigit {ds : List Char} (hne : ds ≠ [])
    (hd : ∀ c ∈ ds, c.isDigit = true) : scanDigits ds = .ok (ds, []) := by
  cases ds with
  | nil => exact absurd rfl hne
  | cons d ds =>
    have htake := List.takeWhile_eq_self_iff.2 hd
    have hdrop := List.dropWhile_eq_nil_iff.2 hd
    rw [scanDigits, if_pos (hd d (.head _)), htake, hdrop]

theorem scanWhole_decimal (n : Nat) : scanWhole (Text.decimal n) = .ok (Text.decimal n, []) := by
  unfold scanWhole
  split
  next c cs heq =>
    rcases Nat.eq_zero_or_pos n with rfl | hn
    · rw [Text.decimal_of_lt (by decide)] at heq
      cases heq
    · have hhead := Text.head?_decimal_ne_zero hn
      rw [heq] at hhead
      exact absurd rfl hhead
  next =>
    exact scanDigits_of_isDigit (Text.decimal_ne_nil n) (Text.isDigit_of_mem_decimal n)

theorem scan_integer (i : Int) : scan (Text.integer i) =
    .ok (⟨decide (i < 0), Text.decimal i.natAbs, none, none⟩, []) := by
  have hbody : ∀ negative : Bool, scanUnsigned negative (Text.decimal i.natAbs) =
      .ok (⟨negative, Text.decimal i.natAbs, none, none⟩, []) := by
    intro negative
    rw [scanUnsigned, scanWhole_decimal]
    rfl
  by_cases hi : i < 0
  · rw [Text.integer, if_pos hi, scan_minus, hbody, decide_eq_true hi]
  · have hhead : (Text.decimal i.natAbs).head? ≠ some '-' := by
      intro hm
      have := Text.isDigit_of_mem_decimal _ _ (List.mem_of_mem_head? hm)
      cases this
    rw [Text.integer, if_neg hi, scan_of_ne_minus hhead, hbody, decide_eq_false hi]

/-- Digits are gathered to the last one as long as their number fits 64 bits. -/
theorem gather_eq {ds : List Char} : ∀ {n : Nat},
    ds.foldl (fun n c => 10 * n + Text.digitValue c) n < 18446744073709551616 →
      gather n ds = (ds.foldl (fun n c => 10 * n + Text.digitValue c) n, []) := by
  induction ds with
  | nil => exact fun _ => rfl
  | cons d ds ih =>
    intro n h
    have hgrow : ∀ (ds : List Char) (m : Nat),
        m ≤ ds.foldl (fun n c => 10 * n + Text.digitValue c) m := by
      intro ds
      induction ds with
      | nil => exact fun m => Nat.le_refl m
      | cons c cs ih' =>
        intro m
        exact Nat.le_trans (by omega) (ih' (10 * m + Text.digitValue c))
    have hlt := Nat.lt_of_le_of_lt (hgrow ds (10 * n + Text.digitValue d)) h
    simp only [gather, if_pos hlt]
    exact ih h

theorem gather_decimal {n : Nat} (h : n < 18446744073709551616) :
    gather 0 (Text.decimal n) = (n, []) := by
  have hv : (Text.decimal n).foldl (fun n c => 10 * n + Text.digitValue c) 0 = n :=
    Text.decimalValue_decimal n
  rw [gather_eq (by rw [hv]; exact h), hv]

end Numeral
end CalendarRules
