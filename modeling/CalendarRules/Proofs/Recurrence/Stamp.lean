import CalendarRules.Proofs.Time.Timestamp
import CalendarRules.Proofs.Time.Zone
import CalendarRules.Recurrence.Stamp
import Mathlib.Data.List.Basic

/-!
# Stamps read back

A stamp that can be read has fifteen characters, so the year in front has four digits and stands for
itself.  What is read is then what the clocks showed, date and time of day apart
(`Zone.stampSeconds?_stamp`).  Clocks that are ahead by whole minutes show a leap second as second
sixty, which is not read.

Stamps have none of the characters in them that divide the lines of a rule.
-/

namespace CalendarRules

/-! ## Stamps of fixed width -/

theorem length_of_stampSeconds? {stamp : List Char} {localTime : Int}
    (h : stampSeconds? stamp = some localTime) : stamp.length = 15 := by
  unfold stampSeconds? at h
  split at h
  next => rfl
  next => cases h

/-- The value of a stamp from the values of its parts. -/
theorem stampSeconds?_append {y m d h n s : List Char} (hy : y.length = 4) (hm : m.length = 2)
    (hd : d.length = 2) (hh : h.length = 2) (hn : n.length = 2) (hs : s.length = 2)
    (hdigits : ∀ part ∈ [y, m, d, h, n, s], ∀ c ∈ part, c.isDigit = true) :
    stampSeconds? (y ++ m ++ d ++ 'T' :: h ++ n ++ s) =
      if Text.decimalValue h < 24 ∧ Text.decimalValue n < 60 ∧ Text.decimalValue s < 60 then
        (Date.ofParts? (Text.decimalValue y) (Text.decimalValue m) (Text.decimalValue d)).map
          fun date => (date.toDay * 86400 +
            (3600 * Text.decimalValue h + 60 * Text.decimalValue n + Text.decimalValue s : Nat) :
              Int)
      else none := by
  have hall : (y ++ m ++ d ++ h ++ n ++ s).all Char.isDigit = true := by
    simp only [List.all_eq_true, List.mem_append]
    simp only [List.mem_cons, List.not_mem_nil, or_false] at hdigits
    rintro c (((((hc | hc) | hc) | hc) | hc) | hc)
    · exact hdigits y (.inl rfl) c hc
    · exact hdigits m (.inr (.inl rfl)) c hc
    · exact hdigits d (.inr (.inr (.inl rfl))) c hc
    · exact hdigits h (.inr (.inr (.inr (.inl rfl)))) c hc
    · exact hdigits n (.inr (.inr (.inr (.inr (.inl rfl))))) c hc
    · exact hdigits s (.inr (.inr (.inr (.inr (.inr rfl))))) c hc
  match y, hy with
  | [y₁, y₂, y₃, y₄], _ =>
    obtain ⟨m₁, m₂, rfl⟩ := List.length_eq_two.1 hm
    obtain ⟨d₁, d₂, rfl⟩ := List.length_eq_two.1 hd
    obtain ⟨h₁, h₂, rfl⟩ := List.length_eq_two.1 hh
    obtain ⟨n₁, n₂, rfl⟩ := List.length_eq_two.1 hn
    obtain ⟨s₁, s₂, rfl⟩ := List.length_eq_two.1 hs
    exact if_pos hall

/-- The value of a stamp whose parts are written in digits. -/
theorem stampSeconds?_paddedDecimal {y m d h n s : Nat} (hy : y < 10000) (hm : m < 100)
    (hd : d < 100) (hh : h < 100) (hn : n < 100) (hs : s < 100) :
    stampSeconds? (Text.paddedDecimal 4 y ++ Text.paddedDecimal 2 m ++ Text.paddedDecimal 2 d ++
        'T' :: Text.paddedDecimal 2 h ++ Text.paddedDecimal 2 n ++ Text.paddedDecimal 2 s) =
      if h < 24 ∧ n < 60 ∧ s < 60 then
        (Date.ofParts? y m d).map fun date =>
          (date.toDay * 86400 + (3600 * h + 60 * n + s : Nat) : Int)
      else none := by
  have hwidth : ∀ k < 100, (Text.paddedDecimal 2 k).length = 2 := fun k hk =>
    Text.length_paddedDecimal (by decide) hk
  rw [stampSeconds?_append (Text.length_paddedDecimal (by decide) hy) (hwidth m hm) (hwidth d hd)
    (hwidth h hh) (hwidth n hn) (hwidth s hs)]
  · simp only [Text.decimalValue_paddedDecimal]
  · simp only [List.mem_cons, List.not_mem_nil, or_false]
    rintro part (rfl | rfl | rfl | rfl | rfl | rfl) <;>
      exact Text.isDigit_of_mem_paddedDecimal _ _

/-! ## Stamps of instants -/

namespace Zone

variable {z : Zone}

/-- The year of a stamp that can be read has four digits. -/
theorem year_of_stampSeconds? {t : Instant} {localTime : Int}
    (h : stampSeconds? (z.stamp t) = some localTime) :
    0 ≤ (Date.ofDay (z.localTime t.seconds / 86400)).year ∧
      (Date.ofDay (z.localTime t.seconds / 86400)).year ≤ 9999 := by
  by_contra hout
  have hyear := Timestamp.length_yearText_of_out hout
  have hlen := length_of_stampSeconds? h
  have hwidth := Text.le_length_paddedDecimal 2
  simp only [stamp, List.length_append, List.length_cons] at hlen
  have h1 := hwidth (Date.ofDay (z.localTime t.seconds / 86400)).month
  have h2 := hwidth (Date.ofDay (z.localTime t.seconds / 86400)).day
  have h3 := hwidth ((z.localTime t.seconds % 86400).toNat / 3600)
  have h4 := hwidth ((z.localTime t.seconds % 86400).toNat / 60 % 60)
  have h5 := hwidth ((z.localTime t.seconds % 86400).toNat % 60 + if t.isLeap then 1 else 0)
  omega

/-- In a year of four digits a stamp is read as what the clocks showed, unless that is a second
sixty. -/
theorem stampSeconds?_stamp {t : Instant}
    (hlow : 0 ≤ (Date.ofDay (z.localTime t.seconds / 86400)).year)
    (hhigh : (Date.ofDay (z.localTime t.seconds / 86400)).year ≤ 9999) :
    stampSeconds? (z.stamp t) =
      if t.isLeap = true ∧ z.localTime t.seconds % 60 = 59 then none else some (z.clock t) := by
  unfold stamp clock
  simp only
  generalize z.localTime t.seconds = l at *
  set date := Date.ofDay (l / 86400) with hdate
  obtain ⟨-, hm12, -, hdmax⟩ := date.isDate
  have hd31 := Nat.le_trans hdmax (Calendar.monthLength_le _ _ (Nat.lt_succ_of_le hm12))
  rw [yearText, if_pos ⟨hlow, hhigh⟩, stampSeconds?_paddedDecimal (by omega) (by omega) (by omega)
    (by omega) (by omega) (by split <;> omega)]
  have hparts : Date.ofParts? date.year.toNat date.month date.day = some date := by
    rw [Int.toNat_of_nonneg hlow]
    exact dif_pos date.isDate
  have hday : date.toDay = l / 86400 := by rw [hdate, Date.toDay_ofDay]
  rw [hparts, Option.map_some, hday]
  by_cases hleap : t.isLeap = true
  · by_cases hlast : l % 60 = 59
    · rw [if_pos hleap, if_neg (by omega), if_pos ⟨hleap, hlast⟩]
    · rw [if_pos hleap, if_pos (by omega), if_neg fun h => hlast h.2, if_pos hleap, Option.some_inj]
      omega
  · rw [if_neg hleap, if_pos (by omega), if_neg fun h => hleap h.1, if_neg hleap, Option.some_inj]
    omega

/-- In universal time a stamp is read that shows a year of four digits and no leap second. -/
theorem stampSeconds?_universal {t : Instant} (hlow : 0 ≤ t.date.year)
    (hhigh : t.date.year ≤ 9999) (hleap : t.isLeap = false) :
    stampSeconds? (universal.stamp t) = some t.seconds := by
  have hsecond := t.isInstant.2.2.1
  have hday : t.day = universal.localTime t.seconds / 86400 := by
    rw [localTime_universal, Instant.seconds]
    omega
  rw [Instant.date, hday] at hlow hhigh
  rw [stampSeconds?_stamp hlow hhigh, if_neg fun h => Bool.false_ne_true (hleap ▸ h.1),
    clock_of_not_isLeap _ hleap, localTime_universal]

theorem eq_clock_of_stampSeconds? {t : Instant} {localTime : Int}
    (h : stampSeconds? (z.stamp t) = some localTime) : localTime = z.clock t := by
  obtain ⟨hlow, hhigh⟩ := year_of_stampSeconds? h
  rw [stampSeconds?_stamp hlow hhigh] at h
  split at h
  · cases h
  · exact (Option.some.inj h).symm

/-- Where local time and universal time differ by whole minutes, no leap second has a stamp that can
be read. -/
theorem not_isLeap_of_stampSeconds? {t : Instant} {localTime : Int}
    (h : stampSeconds? (z.stamp t) = some localTime) (hminute : z.offset t.seconds % 60 = 0) :
    t.isLeap = false := by
  obtain ⟨hlow, hhigh⟩ := year_of_stampSeconds? h
  rw [stampSeconds?_stamp hlow hhigh] at h
  by_contra hleap
  rw [Bool.not_eq_false] at hleap
  obtain ⟨-, -, -, -, hlast⟩ := t.isInstant
  have hsecond := hlast (of_decide_eq_true hleap)
  have hsixty : z.localTime t.seconds % 60 = 59 := by
    unfold Zone.localTime
    unfold Instant.seconds at *
    omega
  rw [if_pos ⟨hleap, hsixty⟩] at h
  cases h

theorem mem_stamp (z : Zone) (t : Instant) {c : Char} (h : c ∈ z.stamp t) :
    c.isDigit = true ∨ c = 'T' ∨ c = '-' ∨ c = '+' := by
  have hdigit := Text.isDigit_of_mem_paddedDecimal
  have hyear : ∀ year, c ∈ yearText year → c.isDigit = true ∨ c = '-' ∨ c = '+' := by
    intro year hc
    unfold yearText at hc
    split at hc
    · exact .inl (hdigit _ _ c hc)
    · rcases List.mem_cons.1 hc with hsign | hc
      · split at hsign
        · exact .inr (.inl hsign)
        · exact .inr (.inr hsign)
      · exact .inl (hdigit _ _ c hc)
  simp only [stamp, List.mem_append, List.mem_cons] at h
  rcases h with (((((hc | hc) | hc) | hc | hc) | hc) | hc)
  · rcases hyear _ hc with h | h | h
    · exact .inl h
    · exact .inr (.inr (.inl h))
    · exact .inr (.inr (.inr h))
  · exact .inl (hdigit _ _ c hc)
  · exact .inl (hdigit _ _ c hc)
  · exact .inr (.inl hc)
  · exact .inl (hdigit _ _ c hc)
  · exact .inl (hdigit _ _ c hc)
  · exact .inl (hdigit _ _ c hc)

end Zone
end CalendarRules
