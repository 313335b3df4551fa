import CalendarRules.Proofs.Time.Plain

/-!
# Clock times

A text is a clock time if it has one or two digits for the hour and two each for the minute and the
second, with colons between, and if a day has that time (`ClockTime.ofText?_eq_some_iff`,
`ClockTime.exists_ofText?_iff`).  The second may be left out with its colon.  Splitting at the
colons loses nothing, so that what is between them is all there is to look at.

## Values

Clock times are compared as minutes since midnight.  The part of a minute that the seconds make is
rounded, and so is the sum, but both stay between neighbours on the grid of the 1024th parts of a
minute, all of which are doubles.  A second is longer than seventeen of these parts, so different
times lie apart even after two roundings (`ClockTime.toInt_minutes_lt_iff`).

A clock time can be written with one or two digits for the hour, and without a second or with a
second of zero.  Such texts are of one value, and the order of texts is not that of the values.
-/

namespace CalendarRules
namespace ClockTime

variable {s : String} {t t' : ClockTime} {hour minute second : Nat}

/-! ## The form of a clock time -/

/-- One or two digits for the hour, two for the minute, and two for the second or none at all. -/
def Spells (hour minute second : Nat) (s : String) : Prop :=
  ∃ hs ms : List Char, (Text.Spells 1 hour hs ∨ Text.Spells 2 hour hs) ∧
    Text.Spells 2 minute ms ∧
    (s.toList = hs ++ ':' :: ms ∧ second = 0 ∨
      ∃ ss, s.toList = hs ++ ':' :: (ms ++ ':' :: ss) ∧ Text.Spells 2 second ss)

theorem hour?_eq_some_iff {cs : List Char} :
    (digits? 1 cs).or (digits? 2 cs) = some hour ↔
      Text.Spells 1 hour cs ∨ Text.Spells 2 hour cs := by
  rw [Option.or_eq_some_iff, Text.digits?_eq_some_iff, Text.digits?_eq_some_iff]
  refine or_congr_right ⟨And.right, fun h => ⟨?_, h⟩⟩
  have hlength : ¬ cs.length = 1 := by
    rw [h.1]
    decide
  rw [digits?, decide_eq_false hlength, Bool.false_and, if_neg Bool.false_ne_true]

theorem ofParts?_eq_some_iff : ofParts? hour minute second = some t ↔
    t.hour = hour ∧ t.minute = minute ∧ t.second = second := by
  constructor
  · intro h
    unfold ofParts? at h
    split at h
    · cases h
      exact ⟨rfl, rfl, rfl⟩
    · cases h
  · rintro ⟨rfl, rfl, rfl⟩
    exact dif_pos ⟨t.hour_lt, t.minute_lt, t.second_lt⟩

theorem spells_of_ofText? (h : ofText? s = some t) : Spells t.hour t.minute t.second s := by
  have hjoined := Text.joined_split ':' s.toList
  unfold ofText? at h
  split at h
  next hs ms hpieces =>
    obtain ⟨hour, hhour, h⟩ := Option.bind_eq_some_iff.1 h
    obtain ⟨minute, hminute, h⟩ := Option.bind_eq_some_iff.1 h
    obtain ⟨rfl, rfl, hsecond⟩ := ofParts?_eq_some_iff.1 h
    rw [hpieces] at hjoined
    exact ⟨hs, ms, hour?_eq_some_iff.1 hhour, Text.digits?_eq_some_iff.1 hminute,
      .inl ⟨hjoined.symm, hsecond⟩⟩
  next hs ms ss hpieces =>
    obtain ⟨hour, hhour, h⟩ := Option.bind_eq_some_iff.1 h
    obtain ⟨minute, hminute, h⟩ := Option.bind_eq_some_iff.1 h
    obtain ⟨second, hsecond, h⟩ := Option.bind_eq_some_iff.1 h
    obtain ⟨rfl, rfl, rfl⟩ := ofParts?_eq_some_iff.1 h
    rw [hpieces] at hjoined
    exact ⟨hs, ms, hour?_eq_some_iff.1 hhour, Text.digits?_eq_some_iff.1 hminute,
      .inr ⟨ss, hjoined.symm, Text.digits?_eq_some_iff.1 hsecond⟩⟩
  next => cases h

theorem ofText?_of_spells (h : Spells hour minute second s) :
    ofText? s = ofParts? hour minute second := by
  obtain ⟨hs, ms, hhour, hminute, hrest⟩ := h
  have hnotMem : ∀ {cs : List Char}, (∀ c ∈ cs, c.isDigit = true) → ':' ∉ cs := by
    intro cs hdigits hmem
    cases hdigits ':' hmem
  have hhs : ':' ∉ hs := hhour.elim (fun h => hnotMem h.2.1) fun h => hnotMem h.2.1
  have hms : ':' ∉ ms := hnotMem hminute.2.1
  have hh := hour?_eq_some_iff.2 hhour
  have hm := Text.digits?_eq_some_iff.2 hminute
  obtain ⟨htext, rfl⟩ | ⟨ss, htext, hsecond⟩ := hrest
  · rw [ofText?, htext, Text.split_append hhs, Text.split_eq_singleton hms]
    simp only [hh, hm]
    rfl
  · have hs := Text.digits?_eq_some_iff.2 hsecond
    rw [ofText?, htext, Text.split_append hhs, Text.split_append hms,
      Text.split_eq_singleton (hnotMem hsecond.2.1)]
    simp only [hh, hm, hs]
    rfl

theorem ofText?_eq_some_iff : ofText? s = some t ↔ Spells t.hour t.minute t.second s := by
  refine ⟨spells_of_ofText?, fun h => ?_⟩
  rw [ofText?_of_spells h]
  exact ofParts?_eq_some_iff.2 ⟨rfl, rfl, rfl⟩

/-- A text of this form is a clock time exactly if a day has it. -/
theorem exists_ofText?_iff : (∃ t, ofText? s = some t) ↔
    ∃ hour minute second, Spells hour minute second s ∧ hour ≤ 23 ∧ minute ≤ 59 ∧ second ≤ 59 := by
  constructor
  · rintro ⟨t, ht⟩
    exact ⟨t.hour, t.minute, t.second, spells_of_ofText? ht, Nat.le_of_lt_succ t.hour_lt,
      Nat.le_of_lt_succ t.minute_lt, Nat.le_of_lt_succ t.second_lt⟩
  · rintro ⟨hour, minute, second, hs, hhour, hminute, hsecond⟩
    exact ⟨⟨hour, minute, second, Nat.lt_succ_of_le hhour, Nat.lt_succ_of_le hminute,
      Nat.lt_succ_of_le hsecond⟩, ofText?_eq_some_iff.2 hs⟩

/-! ## The grid of minutes -/

/-- Seconds since midnight. -/
def secondOfDay (t : ClockTime) : Nat := 3600 * t.hour + 60 * t.minute + t.second

/-- The 1024th part of a minute, in units of `2^-1074`. -/
def grain : Nat := twoPow 1064

theorem grain_pos : 0 < grain := twoPow_pos 1064

theorem mul_unitsPerOne_eq (n : Nat) : n * unitsPerOne = 1024 * n * grain := by
  have hone : unitsPerOne = 1024 * grain := by
    rw [unitsPerOne, grain, show 1024 = twoPow 10 from rfl, ← twoPow_add]
  rw [hone, Nat.mul_left_comm, Nat.mul_assoc]

/-- The number of whole grains since midnight. -/
def grains (t : ClockTime) : Nat := 1024 * (60 * t.hour + t.minute) + 1024 * t.second / 60

theorem grains_lt_day (t : ClockTime) : t.grains + 1 < 1024 * 1440 := by
  have hhour := t.hour_lt
  have hminute := t.minute_lt
  have hsecond := t.second_lt
  unfold grains
  omega

/-- A later second is more than a grain later. -/
theorem grains_lt_grains (h : t.secondOfDay < t'.secondOfDay) : t.grains + 1 < t'.grains := by
  have hminute := t.minute_lt
  have hsecond := t.second_lt
  have hminute' := t'.minute_lt
  have hsecond' := t'.second_lt
  unfold secondOfDay at h
  unfold grains
  omega

theorem rounded_between_grains {num den k : Nat} (hd : 0 < den) (hk : k + 1 ≤ twoPow 53)
    (hlow : k * grain * den ≤ num) (hhigh : num ≤ (k + 1) * grain * den) :
    k * grain ≤ rounded num den ∧ rounded num den ≤ (k + 1) * grain := by
  rw [grain] at hlow hhigh ⊢
  exact rounded_between_steps hd hk hlow hhigh

/-- Neither of the two roundings leaves the grain in which a clock time lies. -/
theorem magnitude_bounds (t : ClockTime) :
    let exact := (60 * t.hour + t.minute) * unitsPerOne + rounded (t.second * unitsPerOne) 60
    t.grains * grain ≤ rounded exact 1 ∧ rounded exact 1 ≤ (t.grains + 1) * grain := by
  have hfew : t.grains + 1 ≤ twoPow 53 := Nat.le_trans (Nat.le_of_lt t.grains_lt_day) (by decide)
  have hpart : 1024 * t.second / 60 + 1 ≤ twoPow 53 := by
    have : t.grains = 1024 * (60 * t.hour + t.minute) + 1024 * t.second / 60 := rfl
    omega
  have hbelow : 1024 * t.second / 60 * grain * 60 ≤ t.second * unitsPerOne := by
    rw [mul_unitsPerOne_eq, Nat.mul_right_comm _ grain]
    exact Nat.mul_le_mul_right _ (Nat.div_mul_le_self _ _)
  have habove : t.second * unitsPerOne ≤ (1024 * t.second / 60 + 1) * grain * 60 := by
    rw [mul_unitsPerOne_eq, Nat.mul_right_comm _ grain]
    exact Nat.mul_le_mul_right _ (by omega)
  obtain ⟨hlow, hhigh⟩ := rounded_between_grains (by decide) hpart hbelow habove
  refine rounded_between_grains Nat.one_pos hfew ?_ ?_
  · rw [Nat.mul_one, mul_unitsPerOne_eq, grains, Nat.add_mul]
    exact Nat.add_le_add_left hlow _
  · rw [Nat.mul_one, mul_unitsPerOne_eq, grains, Nat.add_assoc, Nat.add_mul]
    exact Nat.add_le_add_left hhigh _

/-! ## Values of clock times -/

/-- The minutes of a clock time are a double in its grain. -/
theorem toInt_minutes_bounds (t : ClockTime) :
    (t.grains * grain : Nat) ≤ t.minutes.toInt ∧
      t.minutes.toInt ≤ ((t.grains + 1) * grain : Nat) := by
  obtain ⟨hlow, hhigh⟩ := t.magnitude_bounds
  have hfinite : (t.grains + 1) * grain ≤ overflow := by
    calc (t.grains + 1) * grain ≤ 1024 * 1440 * grain :=
          Nat.mul_le_mul_right _ (Nat.le_of_lt t.grains_lt_day)
      _ = 1440 * unitsPerOne := (mul_unitsPerOne_eq 1440).symm
      _ ≤ overflow := Nat.le_of_lt (mul_unitsPerOne_lt_overflow (by decide))
  rw [minutes, Binary64.toInt_ofRatio, clipped, Nat.min_eq_left (Nat.le_trans hhigh hfinite)]
  exact ⟨Int.ofNat_le.2 hlow, Int.ofNat_le.2 hhigh⟩

theorem toInt_minutes_lt (h : t.secondOfDay < t'.secondOfDay) :
    t.minutes.toInt < t'.minutes.toInt := by
  have hgrains : (t.grains + 1) * grain < t'.grains * grain :=
    Nat.mul_lt_mul_of_pos_right (grains_lt_grains h) grain_pos
  have hhigh := t.toInt_minutes_bounds.2
  have hlow := t'.toInt_minutes_bounds.1
  omega

theorem toInt_minutes_congr (h : t.secondOfDay = t'.secondOfDay) :
    t.minutes.toInt = t'.minutes.toInt := by
  have hminute := t.minute_lt
  have hsecond := t.second_lt
  have hminute' := t'.minute_lt
  have hsecond' := t'.second_lt
  unfold secondOfDay at h
  have hwhole : 60 * t.hour + t.minute = 60 * t'.hour + t'.minute := by omega
  have hpart : t.second = t'.second := by omega
  rw [minutes, minutes, hwhole, hpart]

theorem toInt_minutes_lt_iff :
    t.minutes.toInt < t'.minutes.toInt ↔ t.secondOfDay < t'.secondOfDay := by
  refine ⟨fun h => ?_, toInt_minutes_lt⟩
  rcases Nat.lt_trichotomy t.secondOfDay t'.secondOfDay with hlt | heq | hgt
  · exact hlt
  · exact absurd (toInt_minutes_congr heq) (Int.ne_of_lt h)
  · exact absurd (toInt_minutes_lt hgt) (Int.not_lt.2 (Int.le_of_lt h))

theorem toInt_minutes_eq_iff :
    t.minutes.toInt = t'.minutes.toInt ↔ t.secondOfDay = t'.secondOfDay := by
  have hlt : t.minutes.toInt < t'.minutes.toInt ↔ _ := toInt_minutes_lt_iff
  have hgt : t'.minutes.toInt < t.minutes.toInt ↔ _ := toInt_minutes_lt_iff
  omega

/-- The minutes of a day are less than 1440, also when they are rounded. -/
theorem toInt_minutes_lt_day (t : ClockTime) : t.minutes.toInt < (1440 * unitsPerOne : Nat) := by
  have hgrains : (t.grains + 1) * grain < 1440 * unitsPerOne := by
    rw [mul_unitsPerOne_eq]
    exact Nat.mul_lt_mul_of_pos_right t.grains_lt_day grain_pos
  have hhigh := t.toInt_minutes_bounds.2
  omega

theorem clock?_string (s : String) :
    Value.clock? (.json (.string s)) = (ofText? s).map minutes := rfl

/-- A clock time is read from exactly the texts of one or two digits for the hour and two each for
the minute and, if there is one, the second, that name a time of the day.  The values of two clock
times are in the order of their seconds since midnight, equal only if these are, and are at least
zero and less than the minutes of a day. -/
theorem clock?_keeps_order :
    (∀ s, (∃ x, Value.clock? (.json (.string s)) = some x) ↔
      ∃ hour minute second, Spells hour minute second s ∧
        hour ≤ 23 ∧ minute ≤ 59 ∧ second ≤ 59) ∧
    (∀ s s' x x' (hour minute second hour' minute' second' : Nat),
      Value.clock? (.json (.string s)) = some x → Spells hour minute second s →
      Value.clock? (.json (.string s')) = some x' → Spells hour' minute' second' s' →
        (x.lt x' = true ↔
          3600 * hour + 60 * minute + second < 3600 * hour' + 60 * minute' + second') ∧
        (x.same x' = true ↔
          3600 * hour + 60 * minute + second = 3600 * hour' + 60 * minute' + second') ∧
        (x'.lt x = true ↔
          3600 * hour' + 60 * minute' + second' < 3600 * hour + 60 * minute + second)) ∧
    (∀ s x, Value.clock? (.json (.string s)) = some x →
      0 ≤ x.toInt ∧ x.toInt < (1440 * unitsPerOne : Nat)) := by
  simp only [clock?_string, Option.map_eq_some_iff]
  refine ⟨fun s => ?_, ?_, ?_⟩
  · rw [← exists_ofText?_iff]
    constructor
    · rintro ⟨x, t, ht, -⟩
      exact ⟨t, ht⟩
    · rintro ⟨t, ht⟩
      exact ⟨t.minutes, t, ht, rfl⟩
  · rintro s s' x x' hour minute second hour' minute' second' ⟨t, ht, rfl⟩ hs ⟨t', ht', rfl⟩ hs'
    rw [ofText?_of_spells hs, ofParts?_eq_some_iff] at ht
    rw [ofText?_of_spells hs', ofParts?_eq_some_iff] at ht'
    obtain ⟨rfl, rfl, rfl⟩ := ht
    obtain ⟨rfl, rfl, rfl⟩ := ht'
    exact ⟨Binary64.lt_iff.trans toInt_minutes_lt_iff, beq_iff_eq.trans toInt_minutes_eq_iff,
      Binary64.lt_iff.trans toInt_minutes_lt_iff⟩
  · rintro s x ⟨t, -, rfl⟩
    have hlow := t.toInt_minutes_bounds.1
    exact ⟨by omega, t.toInt_minutes_lt_day⟩

/-- Half past nine in the evening comes after a second past five past nine in the morning, although
its text comes first.  The hour after the last one is not read, and neither is a minute of one
digit. -/
theorem clock?_keeps_order_evening :
    (∃ x x', Value.clock? (.json (.string "9:05:01")) = some x ∧
      Value.clock? (.json (.string "21:30")) = some x' ∧
      x.lt x' = true ∧ x'.toInt < (1440 * unitsPerOne : Nat)) ∧
    "21:30".toList < "9:05:01".toList ∧
    Value.clock? (.json (.string "24:00")) = none ∧
    Value.clock? (.json (.string "9:5")) = none := by
  obtain ⟨haccepts, horder, hrange⟩ := clock?_keeps_order
  have hmorning : Spells 9 5 1 "9:05:01" :=
    ⟨['9'], ['0', '5'], .inl (Text.digits?_eq_some_iff.1 rfl), Text.digits?_eq_some_iff.1 rfl,
      .inr ⟨['0', '1'], rfl, Text.digits?_eq_some_iff.1 rfl⟩⟩
  have hevening : Spells 21 30 0 "21:30" :=
    ⟨['2', '1'], ['3', '0'], .inr (Text.digits?_eq_some_iff.1 rfl),
      Text.digits?_eq_some_iff.1 rfl, .inl ⟨rfl, rfl⟩⟩
  obtain ⟨x, hx⟩ := (haccepts _).2 ⟨9, 5, 1, hmorning, by decide, by decide, by decide⟩
  obtain ⟨x', hx'⟩ := (haccepts _).2 ⟨21, 30, 0, hevening, by decide, by decide, by decide⟩
  have hlater := (horder _ _ _ _ _ _ _ _ _ _ hx hmorning hx' hevening).1.2 (by decide)
  exact ⟨⟨x, x', hx, hx', hlater, (hrange _ _ hx').2⟩, by decide, rfl, rfl⟩

end ClockTime
end CalendarRules
