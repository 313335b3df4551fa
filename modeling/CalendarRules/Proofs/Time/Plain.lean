import CalendarRules.Proofs.Binary64.Integer
import CalendarRules.Proofs.Text.Order
import CalendarRules.Proofs.Time.Timestamp
import CalendarRules.Value.Comparison

/-!
# Plain dates

A text is a date if it has four digits for the year and two each for month and day, with dashes
between, and if the calendar has that day (`Date.ofText?_eq_some_iff`).  A reader that takes more
than that will do as well, provided that it reads what is written for dates: of what it takes, only
texts of this form have ten bytes and are written back as they were (`Date.ofText?_iff_passes`).

Dates are compared as the milliseconds of their first instants.  Their numbers of days are small
enough for these to be exact doubles, and the digits stand in the order in which dates are compared.
So texts of dates are in the order of their values (`Date.ofText?_spec`).
-/

namespace CalendarRules

/-! ## Digits -/

namespace Text

theorem digits?_eq_some_iff {width n : Nat} {cs : List Char} :
    digits? width cs = some n ↔ Spells width n cs := by
  have hiff : (cs.length = width && cs.all Char.isDigit) = true ↔
      cs.length = width ∧ ∀ c ∈ cs, c.isDigit = true := by
    rw [Bool.and_eq_true, decide_eq_true_eq, List.all_eq_true]
  rw [digits?, Spells, ← and_assoc, ← hiff]
  split
  next h => simp [h]
  next h => simp [h]

theorem byteCount_of_isDigit {cs : List Char} (h : ∀ c ∈ cs, c.isDigit = true) :
    byteCount cs = cs.length := by
  induction cs with
  | nil => rfl
  | cons c cs ih =>
    obtain ⟨hc, hcs⟩ := List.forall_mem_cons.1 h
    have hsize : c.utf8Size = 1 := by
      have hc := (isDigit_iff c).1 hc
      rw [Char.utf8Size, if_pos]
      rw [UInt32.le_iff_toNat_le]
      show c.toNat ≤ 127
      omega
    rw [byteCount, ih hcs, hsize, List.length_cons, Nat.add_comm]

end Text

namespace Date

variable {s t : String} {d d' : Date} {year month day : Nat}

/-! ## The form of a date -/

/-- Four digits for the year and two each for month and day, with dashes between. -/
def Spells (year month day : Nat) (s : String) : Prop :=
  ∃ ys ms ds : List Char, s.toList = ys ++ '-' :: (ms ++ '-' :: ds) ∧
    Text.Spells 4 year ys ∧ Text.Spells 2 month ms ∧ Text.Spells 2 day ds

theorem ofText?_of_spells (h : Spells year month day s) : ofText? s = ofParts? year month day := by
  obtain ⟨ys, ms, ds, hs, hyear, hmonth, hday⟩ := h
  have hy := Text.digits?_eq_some_iff.2 hyear
  have hm := Text.digits?_eq_some_iff.2 hmonth
  have hd := Text.digits?_eq_some_iff.2 hday
  match ys, hyear.1 with
  | [y₁, y₂, y₃, y₄], _ =>
    match ms, hmonth.1 with
    | [m₁, m₂], _ =>
      match ds, hday.1 with
      | [d₁, d₂], _ =>
        rw [ofText?, hs]
        simp only [List.cons_append, List.nil_append, hy, hm, hd]
        rfl

theorem exists_spells_of_ofText? (h : ofText? s = some d) :
    ∃ year : Nat, d.year = year ∧ Spells year d.month d.day s := by
  unfold ofText? at h
  split at h
  next y₁ y₂ y₃ y₄ m₁ m₂ d₁ d₂ hs =>
    obtain ⟨year, hyear, h⟩ := Option.bind_eq_some_iff.1 h
    obtain ⟨month, hmonth, h⟩ := Option.bind_eq_some_iff.1 h
    obtain ⟨day, hday, h⟩ := Option.bind_eq_some_iff.1 h
    rw [ofParts?] at h
    split at h
    next hdate =>
      obtain rfl := Option.some.inj h
      exact ⟨year, rfl, [y₁, y₂, y₃, y₄], [m₁, m₂], [d₁, d₂], hs, Text.digits?_eq_some_iff.1 hyear,
        Text.digits?_eq_some_iff.1 hmonth, Text.digits?_eq_some_iff.1 hday⟩
    next => cases h
  next => cases h

theorem ofText?_eq_some_iff : ofText? s = some d ↔
    ∃ year : Nat, d.year = year ∧ Spells year d.month d.day s := by
  refine ⟨exists_spells_of_ofText?, ?_⟩
  rintro ⟨year, hyear, hs⟩
  rw [ofText?_of_spells hs, ← hyear]
  exact dif_pos d.isDate

/-- A text of this form is a date exactly if the calendar has it. -/
theorem exists_ofText?_iff : (∃ d, ofText? s = some d) ↔ ∃ year month day : Nat,
    Spells year month day s ∧ 1 ≤ month ∧ month ≤ 12 ∧ 1 ≤ day ∧
      day ≤ Calendar.daysIn year month := by
  constructor
  · rintro ⟨d, hd⟩
    obtain ⟨year, hyear, hs⟩ := exists_spells_of_ofText? hd
    obtain ⟨hfirst, hlast, hpos, hle⟩ := d.isDate
    rw [Calendar.monthLength_eq_daysIn hfirst hlast, hyear] at hle
    exact ⟨year, d.month, d.day, hs, hfirst, hlast, hpos, hle⟩
  · rintro ⟨year, month, day, hs, hfirst, hlast, hpos, hle⟩
    rw [← Calendar.monthLength_eq_daysIn hfirst hlast] at hle
    exact ⟨⟨year, month, day, hfirst, hlast, hpos, hle⟩,
      ofText?_eq_some_iff.2 ⟨year, rfl, hs⟩⟩

/-! ## Texts that are written back -/

theorem month_lt (d : Date) : d.month < 100 := by
  obtain ⟨-, hlast, -⟩ := d.isDate
  omega

theorem day_lt (d : Date) : d.day < 100 := by
  obtain ⟨-, hlast, -, hle⟩ := d.isDate
  have := Calendar.monthLength_le (Calendar.isLeap d.year) d.month (by omega)
  omega

theorem spells_text (hfirst : 0 ≤ d.year) (hlast : d.year ≤ 9999) :
    Spells d.year.toNat d.month d.day (String.ofList d.text) := by
  have hyear : d.year.toNat < tenPow 4 := by
    show d.year.toNat < 10000
    omega
  refine ⟨_, _, _, ?_, Text.spells_paddedDecimal (by decide) hyear,
    Text.spells_paddedDecimal (by decide) d.month_lt,
    Text.spells_paddedDecimal (by decide) d.day_lt⟩
  rw [String.toList_ofList, text, yearText, if_pos ⟨hfirst, hlast⟩, List.append_assoc,
    List.cons_append]

/-- In this form, every date has one text. -/
theorem Spells.eq (hs : Spells year month day s) (ht : Spells year month day t) : s = t := by
  obtain ⟨ys, ms, ds, hs, hys, hms, hds⟩ := hs
  obtain ⟨ys', ms', ds', ht, hys', hms', hds'⟩ := ht
  rw [← String.toList_inj, hs, ht, (hys.eq_iff hys').2 rfl, (hms.eq_iff hms').2 rfl,
    (hds.eq_iff hds').2 rfl]

theorem year_bounds_of_spells (h : Spells year month day s) : year ≤ 9999 := by
  obtain ⟨ys, ms, ds, -, hyear, -⟩ := h
  exact Nat.le_of_lt_succ hyear.lt_tenPow

theorem ofText?_text (hfirst : 0 ≤ d.year) (hlast : d.year ≤ 9999) :
    ofText? (String.ofList d.text) = some d :=
  ofText?_eq_some_iff.2 ⟨d.year.toNat, (Int.toNat_of_nonneg hfirst).symm, spells_text hfirst hlast⟩

/-- A date of this form is written back as the same text. -/
theorem text_of_ofText? (h : ofText? s = some d) :
    0 ≤ d.year ∧ d.year ≤ 9999 ∧ String.ofList d.text = s := by
  obtain ⟨year, hyear, hs⟩ := exists_spells_of_ofText? h
  have hle := year_bounds_of_spells hs
  have htext := spells_text (d := d) (by omega) (by omega)
  have hsame : d.year.toNat = year := by omega
  exact ⟨by omega, by omega, (hsame ▸ htext).eq hs⟩

/-- A year with a sign leaves the text no room in ten bytes. -/
theorem ten_lt_byteCount_text (hout : ¬ (0 ≤ d.year ∧ d.year ≤ 9999)) :
    10 < Text.byteCount d.text := by
  have hyear := Timestamp.length_yearText_of_out hout
  have hmonth := Text.le_length_paddedDecimal 2 d.month
  have hday := Text.le_length_paddedDecimal 2 d.day
  refine Nat.lt_of_lt_of_le ?_ (Text.length_le_byteCount d.text)
  simp only [text, List.length_append, List.length_cons]
  omega

/-- The byte at a place is a dash. -/
def DashAt (place : Nat) (cs : List Char) : Prop :=
  ∃ before after, cs = before ++ '-' :: after ∧ Text.byteCount before = place

/-- A reader of dates that reads what is written for those with four digits for the year. -/
def ReadsBack (read : String → Option Date) : Prop :=
  ∀ d : Date, 0 ≤ d.year → d.year ≤ 9999 → read (String.ofList d.text) = some d

/-- A date that a reader takes from a text is let through: the text has ten bytes, with dashes at
two places, and it is what is written for the date. -/
def Passes (read : String → Option Date) (s : String) (d : Date) : Prop :=
  Text.byteCount s.toList = 10 ∧ DashAt 4 s.toList ∧ DashAt 7 s.toList ∧ read s = some d ∧
    String.ofList d.text = s

theorem byteCount_of_spells (h : Spells year month day s) :
    Text.byteCount s.toList = 10 ∧ DashAt 4 s.toList ∧ DashAt 7 s.toList := by
  obtain ⟨ys, ms, ds, hs, ⟨hys, hysDigits, -⟩, ⟨hms, hmsDigits, -⟩, ⟨hds, hdsDigits, -⟩⟩ := h
  have hy := Text.byteCount_of_isDigit hysDigits
  have hm := Text.byteCount_of_isDigit hmsDigits
  have hd := Text.byteCount_of_isDigit hdsDigits
  have hdash : '-'.utf8Size = 1 := rfl
  refine ⟨?_, ⟨ys, ms ++ '-' :: ds, hs, hy.trans hys⟩, ⟨ys ++ '-' :: ms, ds, ?_, ?_⟩⟩
  · rw [hs, Text.byteCount_append, Text.byteCount, Text.byteCount_append, Text.byteCount]
    omega
  · rw [hs, List.append_assoc, List.cons_append]
  · rw [Text.byteCount_append, Text.byteCount]
    omega

/-- The text of a date with another number of digits for the year is not read. -/
theorem ofText?_text_of_out (hout : ¬ (0 ≤ d.year ∧ d.year ≤ 9999)) :
    ofText? (String.ofList d.text) = none := by
  rw [Option.eq_none_iff_forall_ne_some]
  intro d' hd'
  obtain ⟨year, -, hspells⟩ := exists_spells_of_ofText? hd'
  obtain ⟨hbytes, -⟩ := byteCount_of_spells hspells
  have hmore := ten_lt_byteCount_text hout
  rw [String.toList_ofList] at hbytes
  omega

/-- Whatever else a reader takes, what is let through is read in this form. -/
theorem ofText?_iff_passes {read : String → Option Date} (h : ReadsBack read) :
    ofText? s = some d ↔ Passes read s d := by
  constructor
  · intro hd
    obtain ⟨hfirst, hlast, hs⟩ := text_of_ofText? hd
    obtain ⟨year, -, hspells⟩ := exists_spells_of_ofText? hd
    obtain ⟨hbytes, hfour, hseven⟩ := byteCount_of_spells hspells
    exact ⟨hbytes, hfour, hseven, hs ▸ h d hfirst hlast, hs⟩
  · rintro ⟨hbytes, -, -, -, rfl⟩
    have hyear : 0 ≤ d.year ∧ d.year ≤ 9999 := by
      by_contra hout
      have hmore := ten_lt_byteCount_text hout
      rw [String.toList_ofList] at hbytes
      omega
    exact ofText?_text hyear.1 hyear.2

/-! ## A reader that takes more -/

/-- Reads a date with a sign and any number of digits for the year, with one or two digits for month
and day, and with blanks in front of each number. -/
def ofLoose (text : String) : Except TimestampFault Date := do
  let (year, cs) ← Timestamp.takeYear text.toList
  let cs ← Timestamp.takeMark '-' cs
  let (month, cs) ← Timestamp.takeShort 1 12 cs
  let cs ← Timestamp.takeMark '-' cs
  let (day, cs) ← Timestamp.takeShort 1 31 cs
  if !cs.isEmpty then throw .trailing
  match ofParts? year month day with
  | some d => if Timestamp.yearInRange year then return d else throw .outOfRange
  | none => throw .outOfRange

theorem readsBack_ofLoose : ReadsBack fun text => (ofLoose text).toOption := by
  intro d hfirst hlast
  obtain ⟨hm1, hm12, hd1, hdmax⟩ := d.isDate
  have hd31 := Nat.le_trans hdmax (Calendar.monthLength_le _ _ (Nat.lt_succ_of_le hm12))
  have hyear := Timestamp.takeYear_yearText (show -2147483648 ≤ d.year by omega) (by omega)
  have hmonth := Timestamp.takeShort_paddedDecimal hm1 hm12 d.month_lt
  have hday := Timestamp.takeShort_paddedDecimal hd1 hd31 d.day_lt []
  have hdash : ∀ cs, Timestamp.takeMark '-' ('-' :: cs) = .ok cs := fun _ => rfl
  have hparts : ofParts? d.year d.month d.day = some d := dif_pos d.isDate
  have hrange : Timestamp.yearInRange d.year = true :=
    Bool.and_eq_true_iff.2 ⟨decide_eq_true (by omega), decide_eq_true (by omega)⟩
  rw [List.append_nil] at hday
  show (ofLoose (String.ofList d.text)).toOption = some d
  rw [ofLoose, String.toList_ofList, text]
  simp only [List.append_assoc, List.cons_append, hyear, hdash, hmonth, hday, hparts, hrange,
    Outcome.ok_bind]
  rfl

/-! ## Values of dates -/

/-- The beginning of 1970. -/
def newYear1970 : Date := ⟨1970, 1, 1, by decide⟩

theorem natAbs_toDay_le (hfirst : 0 ≤ d.year) (hlast : d.year ≤ 9999) :
    d.toDay.natAbs ≤ 3000000 := by
  obtain ⟨hbegin, hend⟩ := d.toDay_bounds
  obtain ⟨-, hmonth, -⟩ := d.isDate
  have hlow := Calendar.daysBeforeYear_le hfirst
  have hhigh := Calendar.daysBeforeYear_le (show d.year + 1 ≤ 10000 by omega)
  have hmonths := Calendar.daysBeforeMonth_succ_le (Calendar.isLeap d.year) 13 (by decide) d.month
    (by omega)
  rw [Calendar.daysBeforeYear_succ_eq] at hhigh
  have hzero : Calendar.daysBeforeYear 0 = -366 := by decide
  have htenThousand : Calendar.daysBeforeYear 10000 = 3652059 := by decide
  have hepoch : Calendar.epoch = 719162 := rfl
  omega

/-- The milliseconds of a date with four digits for the year are an exact double. -/
theorem toInt_millis (hfirst : 0 ≤ d.year) (hlast : d.year ≤ 9999) :
    d.millis.toInt = 86400000 * d.toDay * unitsPerOne := by
  have hdays := natAbs_toDay_le hfirst hlast
  have hbound : (d.toDay * 86400000).natAbs ≤ twoPow 53 := by
    have hpow : twoPow 53 = 9007199254740992 := by decide
    omega
  rw [millis, Binary64.toInt_ofInt_of_le hbound, Int.mul_comm d.toDay]

theorem lt_millis_iff (h : ofText? s = some d) (h' : ofText? t = some d') :
    d.millis.lt d'.millis = true ↔ d.toDay < d'.toDay := by
  obtain ⟨hfirst, hlast, -⟩ := text_of_ofText? h
  obtain ⟨hfirst', hlast', -⟩ := text_of_ofText? h'
  have hpos : (0 : Int) < unitsPerOne := Int.natCast_pos.2 unitsPerOne_pos
  rw [Binary64.lt_iff, toInt_millis hfirst hlast, toInt_millis hfirst' hlast',
    Int.mul_lt_mul_right hpos]
  omega

/-! ## Order of texts -/

theorem Spells.lt_iff {year' month' day' : Nat} (hs : Spells year month day s)
    (ht : Spells year' month' day' t) : s.toList < t.toList ↔
      year < year' ∨ year = year' ∧ (month < month' ∨ month = month' ∧ day < day') := by
  obtain ⟨ys, ms, ds, hs, hys, hms, hds⟩ := hs
  obtain ⟨ys', ms', ds', ht, hys', hms', hds'⟩ := ht
  have hdash (xs ys : List Char) : '-' :: xs < '-' :: ys ↔ xs < ys := by
    rw [List.cons_lt_cons_iff]
    simp
  rw [hs, ht, Text.append_lt_append_iff (hys.1.trans hys'.1.symm), hdash,
    Text.append_lt_append_iff (hms.1.trans hms'.1.symm), hdash, hys.lt_iff hys', hys.eq_iff hys',
    hms.lt_iff hms', hms.eq_iff hms', hds.lt_iff hds']

theorem toList_lt_iff (h : ofText? s = some d) (h' : ofText? t = some d') :
    s.toList < t.toList ↔ d.toDay < d'.toDay := by
  obtain ⟨year, hyear, hs⟩ := exists_spells_of_ofText? h
  obtain ⟨year', hyear', ht⟩ := exists_spells_of_ofText? h'
  rw [hs.lt_iff ht, toDay_lt_iff_precedes, Precedes, hyear, hyear', Int.ofNat_lt, Int.ofNat_inj]

/-- Dates that have one value have one text. -/
theorem eq_of_millis_eq (h : ofText? s = some d) (h' : ofText? t = some d')
    (heq : d.millis.toInt = d'.millis.toInt) : s = t := by
  obtain ⟨hfirst, hlast, hs⟩ := text_of_ofText? h
  obtain ⟨hfirst', hlast', ht⟩ := text_of_ofText? h'
  have hpos : (unitsPerOne : Int) ≠ 0 := Int.natCast_ne_zero.2 (Nat.ne_of_gt unitsPerOne_pos)
  rw [toInt_millis hfirst hlast, toInt_millis hfirst' hlast'] at heq
  have hmillis := Int.eq_of_mul_eq_mul_right hpos heq
  obtain rfl : d = d' := eq_of_toDay_eq (by omega)
  rw [← hs, ht]

theorem date?_string (s : String) :
    Value.date? (.json (.string s)) = (ofText? s).map millis := rfl

/-- A date is read from exactly the texts that a reader of what is written for dates takes, if they
have ten bytes, dashes at two places and are written back as they were.  These are the texts of
four, two and two digits that name a day of the calendar.  The value of one is the number of
milliseconds in the days since the beginning of 1970, and texts and values of dates are in one
order. -/
theorem ofText?_spec :
    (∀ read, ReadsBack read → ∀ s d, ofText? s = some d ↔ Passes read s d) ∧
    (∀ s, (∃ x, Value.date? (.json (.string s)) = some x) ↔ ∃ year month day : Nat,
      Spells year month day s ∧ 1 ≤ month ∧ month ≤ 12 ∧ 1 ≤ day ∧
        day ≤ Calendar.daysIn year month) ∧
    (∀ s x (year month day : Nat), Spells year month day s →
      Value.date? (.json (.string s)) = some x →
        ∃ (n : Int) (h : IsDate year month day), newYear1970.Leads n ⟨year, month, day, h⟩ ∧
          x.toInt = 86400000 * n * unitsPerOne) ∧
    (∀ s t x y, Value.date? (.json (.string s)) = some x →
      Value.date? (.json (.string t)) = some y →
        (s.toList < t.toList ↔ x.lt y = true) ∧ (x.toInt = y.toInt → s = t)) := by
  simp only [date?_string, Option.map_eq_some_iff]
  refine ⟨fun read hread s d => ofText?_iff_passes hread, fun s => ?_, ?_, ?_⟩
  · rw [← exists_ofText?_iff]
    constructor
    · rintro ⟨x, d, hd, -⟩
      exact ⟨d, hd⟩
    · rintro ⟨d, hd⟩
      exact ⟨d.millis, d, hd, rfl⟩
  · rintro s x year month day hs ⟨d, hd, rfl⟩
    obtain ⟨hfirst, hlast, -⟩ := text_of_ofText? hd
    rw [ofText?_of_spells hs, ofParts?] at hd
    split at hd
    next hdate =>
      obtain rfl := Option.some.inj hd
      refine ⟨_, hdate, leads_iff.2 ?_, toInt_millis hfirst hlast⟩
      exact (Int.zero_add _).symm
    next => cases hd
  · rintro s t x y ⟨d, hd, rfl⟩ ⟨d', hd', rfl⟩
    exact ⟨(toList_lt_iff hd hd').trans (lt_millis_iff hd hd').symm, eq_of_millis_eq hd hd'⟩

/-- The reader that takes more reads the day with a sign and one digit for the month, which is not
let through.  As it is written it is, with the right value, and it comes before the day after. -/
theorem ofText?_spec_leapDay :
    let read := fun text => (ofLoose text).toOption
    let leapDay : Date := ⟨2024, 2, 29, by decide⟩
    read "+2024-2-29" = some leapDay ∧ ¬ Passes read "+2024-2-29" leapDay ∧
    Passes read "2024-02-29" leapDay ∧
    (∃ n : Int, newYear1970.Leads n leapDay ∧
      leapDay.millis.toInt = 86400000 * n * unitsPerOne) ∧
    ("2024-02-29".toList < "2024-03-01".toList ↔
      leapDay.millis.lt (millis ⟨2024, 3, 1, by decide⟩) = true) := by
  obtain ⟨hpasses, -, hvalue, horder⟩ := ofText?_spec
  have hread : ofText? "2024-02-29" = some ⟨2024, 2, 29, by decide⟩ := by decide +kernel
  have hnext : ofText? "2024-03-01" = some ⟨2024, 3, 1, by decide⟩ := by decide +kernel
  have hnone : ofText? "+2024-2-29" = none := by decide +kernel
  have hspells : Spells 2024 2 29 "2024-02-29" :=
    ⟨['2', '0', '2', '4'], ['0', '2'], ['2', '9'], by decide +kernel,
      Text.digits?_eq_some_iff.1 rfl, Text.digits?_eq_some_iff.1 rfl,
      Text.digits?_eq_some_iff.1 rfl⟩
  refine ⟨by decide +kernel, fun h => ?_, (hpasses _ readsBack_ofLoose _ _).1 hread, ?_, ?_⟩
  · rw [(hpasses _ readsBack_ofLoose _ _).2 h] at hnone
    cases hnone
  · obtain ⟨n, _, hleads, hmillis⟩ :=
      hvalue _ _ 2024 2 29 hspells (by rw [date?_string, hread]; rfl)
    exact ⟨n, hleads, hmillis⟩
  · exact (horder _ _ _ _ (by rw [date?_string, hread]; rfl) (by rw [date?_string, hnext]; rfl)).1

end Date
end CalendarRules
