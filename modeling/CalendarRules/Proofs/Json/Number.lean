import CalendarRules.Json.Writer
import CalendarRules.Proofs.Json.Numeral

/-!
# Numbers read back

`Number.ReadsBack` says that a number reads back from its text alone.  It then reads back in front
of whatever may follow a number in a document (`ReadsBack.scanNumber`).

Integers always read back (`readsBack_int`).  Doubles need not, since the reader rounds twice: once
for the digits, once for the power of ten.
-/

namespace CalendarRules

/-- A document that is a number reads back from its text as that number. -/
def Number.ReadsBack (n : Number) : Prop := Json.ofText (Json.number n).text = .ok (.number n)

namespace Source

/-! ## Numbers at the front of a text -/

theorem skipGap_cons {c : Char} (hc : isGap c = false) (cs : List Char) :
    skipGap (c :: cs) = c :: cs :=
  List.dropWhile_cons_of_neg (by rw [hc]; decide)

theorem ne_of_isDigit {c d : Char} (hc : c.isDigit = true) (hd : d.isDigit = false) : c ≠ d := by
  rintro rfl
  rw [hc] at hd
  cases hd

/-- A value that begins like a number is one. -/
theorem scanValue_numeral {c : Char} (hc : c = '-' ∨ c.isDigit = true) (fuel level : Nat)
    (cs : List Char) : scanValue (fuel + 1) level (c :: cs) = scanNumber (c :: cs) := by
  have hgap : isGap c = false := by
    rcases hc with rfl | hc
    · rfl
    · exact Numeral.isGap_eq_false_of_isMark (Or.inl hc)
  rw [scanValue, skipGap_cons hgap]
  rcases hc with rfl | hc
  · rfl
  · simp only [ne_of_isDigit hc (show ('n' : Char).isDigit = false from rfl),
      ne_of_isDigit hc (show ('t' : Char).isDigit = false from rfl),
      ne_of_isDigit hc (show ('f' : Char).isDigit = false from rfl),
      ne_of_isDigit hc (show ('"' : Char).isDigit = false from rfl), hc, if_false, Bool.or_true,
      if_true]

/-- The other numeral characters begin no value. -/
theorem scanValue_mark {c : Char} (hc : c ∈ ['+', '.', 'e']) (fuel level : Nat)
    (cs : List Char) : scanValue (fuel + 1) level (c :: cs) = stop .malformed := by
  simp only [List.mem_cons, List.not_mem_nil, or_false] at hc
  rcases hc with rfl | rfl | rfl <;> rfl

end Source

namespace Document

/-! ## A text as a document -/

theorem within_of_ok {level : Nat} {text : String} {root : Source} {rest : List Char}
    (h : Source.scanValue (2 * text.toList.length + 2) level text.toList = (root, .ok rest)) :
    within level text =
      ⟨root, if (Source.skipGap rest).isEmpty then none else some .malformed⟩ := by
  simp only [within, h]

theorem within_of_error {level : Nat} {text : String} {root : Source} {fault : Fault}
    (h : Source.scanValue (2 * text.toList.length + 2) level text.toList = (root, .error fault)) :
    within level text = ⟨root, none⟩ := by
  simp only [within, h]

end Document

namespace Number

/-- What reading back says about the scanner: the text is one numeral, whose value is the number.
-/
theorem ReadsBack.exists_numeral {n : Number} (h : n.ReadsBack) :
    ∃ c cs numeral, n.json = c :: cs ∧ (c = '-' ∨ c.isDigit = true) ∧
      Numeral.scan n.json = .ok (numeral, []) ∧ numeral.value? = some n := by
  have hmark := Numeral.isMark_of_mem_json n
  have htext : (Json.number n).text.toList = n.json := by
    simp only [Json.text, Json.compact, String.toList_ofList]
  unfold ReadsBack Json.ofText Document.ofText at h
  cases hcs : n.json with
  | nil =>
    have hscan : Source.scanValue (2 * (Json.number n).text.toList.length + 2) Source.maxDepth
        (Json.number n).text.toList = Source.stop .truncated := by
      rw [htext, hcs]
      rfl
    rw [Document.within_of_error hscan] at h
    cases h
  | cons c cs =>
    rw [hcs] at hmark htext
    have hc : c = '-' ∨ c.isDigit = true := by
      rcases hmark c (.head _) with hc | hc
      · exact Or.inr hc
      · rcases List.mem_cons.1 hc with hc | hc
        · exact Or.inl hc
        · have hscan := Source.scanValue_mark hc (2 * (c :: cs).length + 1) Source.maxDepth cs
          rw [Document.within_of_error (htext ▸ hscan)] at h
          cases h
    have hscan := Source.scanValue_numeral hc (2 * (c :: cs).length + 1) Source.maxDepth cs
    unfold Source.scanNumber at hscan
    refine ⟨c, cs, ?_⟩
    cases hs : Numeral.scan (c :: cs) with
    | error fault =>
      rw [hs] at hscan
      rw [Document.within_of_error (htext ▸ hscan)] at h
      cases h
    | ok scanned =>
      obtain ⟨numeral, left⟩ := scanned
      rw [hs] at hscan
      cases hv : numeral.value? with
      | none =>
        simp only [hv] at hscan
        rw [Document.within_of_ok (htext ▸ hscan)] at h
        cases h
      | some m =>
        simp only [hv] at hscan
        rw [Document.within_of_ok (htext ▸ hscan)] at h
        cases left with
        | nil =>
          cases h
          exact ⟨numeral, rfl, hc, rfl, hv⟩
        | cons d left =>
          -- what is left would have to be blank, and no part of a number is
          have hd := hmark d ((Numeral.suffix_of_scan hs).subset (.head _))
          rw [Source.skipGap_cons (Numeral.isGap_eq_false_of_isMark hd)] at h
          cases h

/-- In front of text that does not continue it, a number that reads back is scanned as itself. -/
theorem ReadsBack.scanNumber {n : Number} (h : n.ReadsBack) {rest : List Char}
    (hr : Numeral.Ends rest) : Source.scanNumber (n.json ++ rest) = (.number n, .ok rest) := by
  obtain ⟨_, _, numeral, -, -, hs, hv⟩ := h.exists_numeral
  rw [Source.scanNumber, Numeral.scan_append hr hs]
  simp only [hv, List.nil_append]

/-- A number reads back when its text is one numeral of its value. -/
theorem readsBack_of_numeral {n : Number} {c : Char} {cs : List Char} {numeral : Numeral}
    (hcs : n.json = c :: cs) (hc : c = '-' ∨ c.isDigit = true)
    (hs : Numeral.scan n.json = .ok (numeral, [])) (hv : numeral.value? = some n) :
    n.ReadsBack := by
  have htext : (Json.number n).text.toList = c :: cs := by
    simp only [Json.text, Json.compact, String.toList_ofList, hcs]
  have hscan := Source.scanValue_numeral hc (2 * (c :: cs).length + 1) Source.maxDepth cs
  rw [Source.scanNumber, ← hcs, hs] at hscan
  simp only [hv] at hscan
  unfold ReadsBack Json.ofText Document.ofText
  rw [Document.within_of_ok (by rw [htext, ← hcs]; exact hscan)]
  rfl

/-- Every integer of a document reads back. -/
theorem readsBack_int (i : Int) (h : IntegerRange i) : (Number.int i h).ReadsBack := by
  have hrange := h
  unfold IntegerRange at hrange
  have hg : Numeral.gather 0 (Text.decimal i.natAbs) = (i.natAbs, []) :=
    Numeral.gather_decimal (by omega)
  have hv : Numeral.value? ⟨decide (i < 0), Text.decimal i.natAbs, none, none⟩ =
      some (.int i h) := by
    have habs : (if decide (i < 0) = true then -(i.natAbs : Int) else i.natAbs) = i := by
      split
      next hneg =>
        rw [decide_eq_true_eq] at hneg
        omega
      next hneg =>
        rw [decide_eq_true_eq] at hneg
        omega
    have hzero : ¬(decide (i < 0) = true ∧ i.natAbs = 0) := by
      rw [decide_eq_true_eq]
      omega
    simp only [Numeral.value?, hg, habs]
    rw [dif_pos ⟨h, trivial, hzero⟩]
  have hhead : ∃ c cs, Text.integer i = c :: cs ∧ (c = '-' ∨ c.isDigit = true) := by
    unfold Text.integer
    split
    · exact ⟨_, _, rfl, Or.inl rfl⟩
    · obtain ⟨c, cs, hcs⟩ := List.exists_cons_of_ne_nil (Text.decimal_ne_nil i.natAbs)
      have hmem : c ∈ Text.decimal i.natAbs := hcs ▸ List.mem_cons_self
      exact ⟨c, cs, hcs, Or.inr (Text.isDigit_of_mem_decimal _ c hmem)⟩
  obtain ⟨c, cs, hcs, hc⟩ := hhead
  exact readsBack_of_numeral hcs hc (Numeral.scan_integer i) hv

end Number

/-- The double one is written `1.0` and reads back. -/
theorem readsBack_one : (Number.float .one).ReadsBack := by
  have hjson : (Number.float .one).json = ['1', '.', '0'] := by decide +kernel
  have hscan : Numeral.scan ['1', '.', '0'] = .ok (⟨false, ['1'], some ['0'], none⟩, []) := rfl
  have hvalue : Numeral.value? ⟨false, ['1'], some ['0'], none⟩ = some (.float .one) := by
    decide +kernel
  exact Number.readsBack_of_numeral hjson (Or.inr rfl) (hjson ▸ hscan) hvalue

end CalendarRules