import CalendarRules.Binary64.Numeral
import CalendarRules.Proofs.Text.Decimal
import CalendarRules.Proofs.Time.Plain
import Mathlib.Data.List.TakeWhile

/-!
# Dates, clock times and numbers are spelled differently

No text is two of the three.  A numeral has a dash only in front of digits at its beginning or
behind its exponent mark, and a date has one behind four digits; a clock time has a colon, which
neither of the others has.
-/

namespace CalendarRules

namespace Text

theorem mem_trimStart {c : Char} {cs : List Char} (hc : isBlank c = false) (h : c ∈ cs) :
    c ∈ trimStart cs := by
  rw [← List.takeWhile_append_dropWhile (p := isBlank) (l := cs), List.mem_append] at h
  rcases h with h | h
  · rw [List.mem_takeWhile_imp h] at hc
    cases hc
  · exact h

theorem mem_trim {c : Char} {cs : List Char} (hc : isBlank c = false) (h : c ∈ cs) :
    c ∈ trim cs := by
  rw [trim, List.mem_reverse]
  exact mem_trimStart hc (List.mem_reverse.2 (mem_trimStart hc h))

/-- A text that begins and ends with no blank is not trimmed. -/
theorem trim_eq_self {c d : Char} {cs : List Char} (hc : isBlank c = false)
    (hd : isBlank d = false) : trim (c :: (cs ++ [d])) = c :: (cs ++ [d]) := by
  have hfront : trimStart (c :: (cs ++ [d])) = c :: (cs ++ [d]) :=
    List.dropWhile_cons_of_neg (by rw [hc]; decide)
  have hreverse : (c :: (cs ++ [d])).reverse = d :: (cs.reverse ++ [c]) := by simp
  have hback : trimStart (d :: (cs.reverse ++ [c])) = d :: (cs.reverse ++ [c]) :=
    List.dropWhile_cons_of_neg (by rw [hd]; decide)
  rw [trim, hfront, hreverse, hback]
  simp

end Text

namespace Binary64

/-! ## What a numeral is made of -/

/-- A character that may stand in a numeral. -/
def IsNumeralChar (c : Char) : Prop := c.isDigit = true ∨ c ∈ ['+', '-', '.', 'e', 'E']

theorem isNumeralChar_of_mem_takeSign {cs : List Char}
    (h : ∀ c ∈ (takeSign cs).2, IsNumeralChar c) : ∀ c ∈ cs, IsNumeralChar c := by
  unfold takeSign at h
  split at h
  · exact List.forall_mem_cons.2 ⟨Or.inr (by decide), h⟩
  · exact List.forall_mem_cons.2 ⟨Or.inr (by decide), h⟩
  · exact h

theorem isNumeralChar_of_isNumeral {cs : List Char} (h : Text.isNumeral cs = true) :
    ∀ c ∈ cs, IsNumeralChar c := by
  rw [Text.isNumeral, Bool.and_eq_true, List.all_eq_true] at h
  exact fun c hc => Or.inl (h.2 c hc)

theorem isNumeralChar_of_exponent? {cs : List Char} {e : Int} (h : exponent? cs = some e) :
    ∀ c ∈ cs, IsNumeralChar c := by
  cases cs with
  | nil => exact fun _ h => absurd h List.not_mem_nil
  | cons mark cs =>
    rw [exponent?] at h
    split at h
    next hmark =>
      have hm : IsNumeralChar mark := by
        rw [Bool.or_eq_true, decide_eq_true_eq, decide_eq_true_eq] at hmark
        rcases hmark with rfl | rfl
        · exact Or.inr (by decide)
        · exact Or.inr (by decide)
      refine List.forall_mem_cons.2 ⟨hm, isNumeralChar_of_mem_takeSign ?_⟩
      simp only at h
      split at h
      next hn => exact isNumeralChar_of_isNumeral hn
      next => cases h
    next => cases h

/-- What stands before the fraction or the exponent of a numeral is digits. -/
theorem isNumeralChar_of_dropWhile {cs : List Char}
    (h : ∀ c ∈ cs.dropWhile Char.isDigit, IsNumeralChar c) : ∀ c ∈ cs, IsNumeralChar c := by
  intro c hc
  rw [← List.takeWhile_append_dropWhile (p := Char.isDigit) (l := cs), List.mem_append] at hc
  rcases hc with hc | hc
  · exact Or.inl (List.mem_takeWhile_imp hc)
  · exact h c hc

theorem isNumeralChar_of_ofNumeral? {cs : List Char} {x : Binary64} (h : ofNumeral? cs = some x) :
    ∀ c ∈ cs, IsNumeralChar c := by
  refine isNumeralChar_of_mem_takeSign (isNumeralChar_of_dropWhile ?_)
  unfold ofNumeral? at h
  simp only at h
  split at h
  next ds hds =>
    rw [hds]
    split at h
    next => cases h
    next =>
      obtain ⟨e, he, -⟩ := Option.map_eq_some_iff.1 h
      have htail := isNumeralChar_of_dropWhile (isNumeralChar_of_exponent? he)
      exact List.forall_mem_cons.2 ⟨Or.inr (by decide), htail⟩
  next =>
    split at h
    next => cases h
    next =>
      obtain ⟨e, he, -⟩ := Option.map_eq_some_iff.1 h
      exact isNumeralChar_of_exponent? he

/-- A text with a colon spells no number. -/
theorem ofText?_of_colon {s : String} (h : ':' ∈ s.toList) : ofText? s = none := by
  have hmem : ':' ∈ Text.trim s.toList := Text.mem_trim rfl h
  have hempty : (Text.trim s.toList).isEmpty = false := by
    rw [List.isEmpty_eq_false_iff]
    exact List.ne_nil_of_mem hmem
  rw [ofText?]
  simp only [hempty, Bool.false_eq_true, if_false]
  cases hx : ofNumeral? (Text.trim s.toList) with
  | none => rfl
  | some x =>
    rcases isNumeralChar_of_ofNumeral? hx ':' hmem with hc | hc
    · cases hc
    · exact absurd hc (by decide)

/-- A numeral does not go on with a dash behind its digits. -/
theorem ofNumeral?_of_dash {d : Char} {ds : List Char} (hd : d.isDigit = true)
    (hds : ∀ c ∈ ds, c.isDigit = true) (rest : List Char) :
    ofNumeral? (d :: ds ++ '-' :: rest) = none := by
  have hall : ∀ c ∈ d :: ds, c.isDigit = true := List.forall_mem_cons.2 ⟨hd, hds⟩
  have hsign : takeSign (d :: ds ++ '-' :: rest) = (false, d :: ds ++ '-' :: rest) := by
    rw [List.cons_append]
    unfold takeSign
    split
    next heq => cases heq; cases hd
    next heq => cases heq; cases hd
    next => rfl
  have hdrop : (d :: ds ++ '-' :: rest).dropWhile Char.isDigit = '-' :: rest := by
    rw [List.dropWhile_append_of_pos hall]
    rfl
  unfold ofNumeral?
  rw [hsign]
  simp only [hdrop, exponent?]
  simp

end Binary64

/-! ## Dates -/

namespace Date

/-- A date begins with four digits and a dash, ends with a digit and has no colon. -/
theorem exists_of_ofText? {s : String} {d : Date} (h : ofText? s = some d) :
    ∃ (y : Char) (ys mid : List Char) (last : Char), s.toList = y :: ys ++ '-' :: (mid ++ [last]) ∧
      (∀ c ∈ y :: ys, c.isDigit = true) ∧ last.isDigit = true ∧ ':' ∉ s.toList := by
  obtain ⟨-, -, ys, ms, ds, hs, ⟨hyear, hys, -⟩, ⟨-, hms, -⟩, ⟨hday, hds, -⟩⟩ :=
    exists_spells_of_ofText? h
  have hdigits : ∀ cs : List Char, (∀ c ∈ cs, c.isDigit = true) → ':' ∉ cs := by
    intro cs hcs hmem
    cases hcs ':' hmem
  have hcolon : ':' ∉ s.toList := by
    rw [hs]
    simp [hdigits ys hys, hdigits ms hms, hdigits ds hds]
  obtain ⟨y, ys, rfl⟩ := List.exists_cons_of_length_eq_add_one hyear
  obtain ⟨ds, last, rfl⟩ := ds.eq_nil_or_concat.resolve_left (by rintro rfl; cases hday)
  refine ⟨y, ys, ms ++ '-' :: ds, last, ?_, hys, hds last (by simp), hcolon⟩
  rw [hs, List.concat_eq_append, List.append_assoc ms]
  rfl

theorem number?_of_ofText? {s : String} {d : Date} (h : ofText? s = some d) :
    Binary64.ofText? s = none := by
  obtain ⟨y, ys, mid, last, hs, hys, hlast, -⟩ := exists_of_ofText? h
  have hy := List.forall_mem_cons.1 hys
  have htrim : Text.trim s.toList = s.toList := by
    have hsplit : y :: ys ++ '-' :: (mid ++ [last]) = y :: ((ys ++ '-' :: mid) ++ [last]) := by
      simp
    rw [hs, hsplit]
    exact Text.trim_eq_self (Text.isBlank_eq_false_of_isDigit hy.1)
      (Text.isBlank_eq_false_of_isDigit hlast)
  rw [Binary64.ofText?, htrim, hs]
  simp only [Binary64.ofNumeral?_of_dash hy.1 hy.2]
  rfl

theorem clock?_of_ofText? {s : String} {d : Date} (h : ofText? s = some d) :
    ClockTime.ofText? s = none := by
  obtain ⟨y, ys, mid, last, -, -, -, hcolon⟩ := exists_of_ofText? h
  rw [ClockTime.ofText?, Text.split_eq_singleton hcolon]

end Date

/-! ## Clock times -/

namespace ClockTime

theorem mem_colon_of_ofText? {s : String} {t : ClockTime} (h : ofText? s = some t) :
    ':' ∈ s.toList := by
  by_contra hcolon
  rw [ofText?, Text.split_eq_singleton hcolon] at h
  cases h

theorem number?_of_ofText? {s : String} {t : ClockTime} (h : ofText? s = some t) :
    Binary64.ofText? s = none :=
  Binary64.ofText?_of_colon (mem_colon_of_ofText? h)

end ClockTime
end CalendarRules
