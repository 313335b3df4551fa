import CalendarRules.Proofs.Outcome
import CalendarRules.Proofs.Text.Decimal
import CalendarRules.Proofs.Time.Date
import CalendarRules.Proofs.Time.Instant
import CalendarRules.Time.Reading
import CalendarRules.Time.Timestamp

/-!
# Written instants are read back

The relaxed reader of timestamps takes apart what `Instant.timestamp` has put together: each number
is written in digits that the reader takes all of, because either it takes no more or the next
character is no digit, and no blank stands anywhere.  A leap second is written as second 60, which
the reader turns back into the nanoseconds that exceed the second before.
-/

namespace CalendarRules
namespace Timestamp

/-- Reads a number whose digits end where the reader stops, or where no digit follows. -/
theorem takeNumber_append (least most : Nat) {ds : List Char} (rest : List Char)
    (hds : ∀ c ∈ ds, c.isDigit = true) (hleast : least ≤ ds.length)
    (hmost : ds.length ≤ most) (hend : ds.length = most ∨ ∀ c ∈ rest.head?, c.isDigit = false)
    (hvalue : Text.decimalValue ds < 9223372036854775808) :
    takeNumber least most (ds ++ rest) = .ok (Text.decimalValue ds, rest) := by
  have hbytes : ¬ Text.byteCount (ds ++ rest) < least := by
    have := Text.length_le_byteCount (ds ++ rest)
    rw [List.length_append] at this
    omega
  have htake : ((ds ++ rest).take most).takeWhile Char.isDigit = ds := by
    rw [List.take_append, List.take_of_length_le hmost,
      List.takeWhile_append_of_pos hds]
    rcases hend with hlen | hhead
    · rw [hlen, Nat.sub_self, List.take_zero, List.takeWhile_nil, List.append_nil]
    · cases rest with
      | nil => rw [List.take_nil, List.takeWhile_nil, List.append_nil]
      | cons c cs =>
        have hc : c.isDigit = false := hhead c rfl
        cases most - ds.length with
        | zero => rw [List.take_zero, List.takeWhile_nil, List.append_nil]
        | succ k =>
          rw [List.take_succ_cons, List.takeWhile_cons_of_neg (by rw [hc]; decide),
            List.append_nil]
  rw [takeNumber, if_neg hbytes]
  simp only [htake]
  rw [if_neg (Nat.not_lt.2 hleast), if_neg (Nat.not_le.2 hvalue), List.drop_left]

theorem isDigit_of_paddedDecimal_append {width n : Nat} {rest cs : List Char} {c : Char}
    (h : Text.paddedDecimal width n ++ rest = c :: cs) : c.isDigit = true := by
  cases hds : Text.paddedDecimal width n with
  | nil => exact absurd hds (Text.paddedDecimal_ne_nil width n)
  | cons d ds =>
    rw [hds, List.cons_append] at h
    cases h
    exact Text.isDigit_of_mem_paddedDecimal width n c (hds ▸ List.mem_cons_self)

/-- No blank stands in front of a digit. -/
theorem trimStart_paddedDecimal (width n : Nat) (rest : List Char) :
    Text.trimStart (Text.paddedDecimal width n ++ rest) = Text.paddedDecimal width n ++ rest := by
  cases h : Text.paddedDecimal width n ++ rest with
  | nil => rfl
  | cons c cs =>
    have hc := Text.isBlank_eq_false_of_isDigit (isDigit_of_paddedDecimal_append h)
    rw [Text.trimStart, List.dropWhile_cons_of_neg (by rw [hc]; decide)]

theorem takeNumber_paddedDecimal (most width n : Nat) (rest : List Char)
    (hmost : (Text.paddedDecimal width n).length ≤ most)
    (hend : (Text.paddedDecimal width n).length = most ∨ ∀ c ∈ rest.head?, c.isDigit = false)
    (hn : n < 9223372036854775808) :
    takeNumber 1 most (Text.paddedDecimal width n ++ rest) = .ok (n, rest) := by
  have hpos : 1 ≤ (Text.paddedDecimal width n).length :=
    List.length_pos_iff.2 (Text.paddedDecimal_ne_nil width n)
  have h := takeNumber_append 1 most rest (Text.isDigit_of_mem_paddedDecimal width n) hpos hmost
    hend (by rw [Text.decimalValue_paddedDecimal]; exact hn)
  rw [Text.decimalValue_paddedDecimal] at h
  exact h

/-! ## Numbers of two digits -/

theorem takeShort_paddedDecimal {low high n : Nat} (hlow : low ≤ n) (hhigh : n ≤ high)
    (hn : n < 100) (rest : List Char) :
    takeShort low high (Text.paddedDecimal 2 n ++ rest) = .ok (n, rest) := by
  have hlen : (Text.paddedDecimal 2 n).length = 2 := Text.length_paddedDecimal (by decide) hn
  have htake := takeNumber_paddedDecimal 2 2 n rest (Nat.le_of_eq hlen) (Or.inl hlen) (by omega)
  rw [takeShort, trimStart_paddedDecimal, htake, Outcome.ok_bind]
  show (within low high n >>= fun m => .ok (m, rest)) = .ok (n, rest)
  rw [within, if_pos ⟨hlow, hhigh⟩, Outcome.ok_bind]

theorem takeLooseMark_cons {mark : Char} (h : Text.isBlank mark = false) (rest : List Char) :
    takeLooseMark mark (mark :: rest) = .ok rest := by
  have htrim : Text.trimStart (mark :: rest) = mark :: rest :=
    List.dropWhile_cons_of_neg (by rw [h]; decide)
  rw [takeLooseMark, htrim, takeMark, if_pos rfl]

/-! ## Years -/

/-- A year with a sign has at least four digits besides. -/
theorem length_yearText_of_out {year : Int} (h : ¬(0 ≤ year ∧ year ≤ 9999)) :
    5 ≤ (yearText year).length := by
  rw [yearText, if_neg h, List.length_cons]
  exact Nat.succ_le_succ (Text.le_length_paddedDecimal 4 year.natAbs)

section Year

variable {year : Int} (hlow : -2147483648 ≤ year) (hhigh : year < 2147483648) (rest : List Char)

include hlow hhigh

/-- The bounds of years are far beyond those of dates. -/
theorem takeYear_of_eq {cs : List Char} {f : List Char → Except TimestampFault (Taken Int)}
    (heq : takeYear cs = do
      let (year, cs) ← f cs
      if year < -2147483648 ∨ 2147483648 ≤ year then throw .outOfRange
      return (year, cs)) (hf : f cs = .ok (year, rest)) : takeYear cs = .ok (year, rest) := by
  have hin : ¬(year < -2147483648 ∨ 2147483648 ≤ year) := by omega
  rw [heq, hf, Outcome.ok_bind]
  simp only [hin, if_false]
  rfl

theorem takeYear_yearText : takeYear (yearText year ++ '-' :: rest) = .ok (year, '-' :: rest) := by
  have hdash : ∀ c ∈ ('-' :: rest).head?, c.isDigit = false := by
    intro c hc
    cases hc
    rfl
  rw [yearText]
  by_cases hyear : 0 ≤ year ∧ year ≤ 9999
  · have hlen : (Text.paddedDecimal 4 year.toNat).length = 4 :=
      Text.length_paddedDecimal (by decide) (by show year.toNat < 10000; omega)
    have htake := takeNumber_paddedDecimal 4 4 year.toNat ('-' :: rest) (Nat.le_of_eq hlen)
      (Or.inl hlen) (by omega)
    rw [if_pos hyear]
    refine takeYear_of_eq hlow hhigh _ (f := fun cs =>
      (takeNumber 1 4 cs).map fun p => ((p.1 : Int), p.2)) ?_ ?_
    · unfold takeYear
      rw [trimStart_paddedDecimal]
      split
      next heq => cases isDigit_of_paddedDecimal_append heq
      next heq => cases isDigit_of_paddedDecimal_append heq
      next => rfl
    · simp only [htake]
      exact congrArg (fun y => Except.ok (y, '-' :: rest)) (Int.toNat_of_nonneg hyear.1)
  · have htake := takeNumber_paddedDecimal (Text.paddedDecimal 4 year.natAbs ++ '-' :: rest).length
      4 year.natAbs ('-' :: rest) (by rw [List.length_append]; omega) (Or.inr hdash) (by omega)
    rw [if_neg hyear]
    by_cases hneg : year < 0
    · rw [if_pos hneg]
      have hsign : -(year.natAbs : Int) = year := by omega
      refine takeYear_of_eq hlow hhigh _ (f := fun cs =>
        (takeNumber 1 cs.tail.length cs.tail).map fun p => (-(p.1 : Int), p.2)) rfl ?_
      show (takeNumber 1 _ _).map _ = _
      rw [List.cons_append, List.tail_cons, htake]
      exact congrArg (fun y => Except.ok (y, '-' :: rest)) hsign
    · rw [if_neg hneg]
      have hsign : (year.natAbs : Int) = year := by omega
      refine takeYear_of_eq hlow hhigh _ (f := fun cs =>
        (takeNumber 1 cs.tail.length cs.tail).map fun p => ((p.1 : Int), p.2)) rfl ?_
      show (takeNumber 1 _ _).map _ = _
      rw [List.cons_append, List.tail_cons, htake]
      exact congrArg (fun y => Except.ok (y, '-' :: rest)) hsign

end Year

/-! ## Fractions -/

theorem takeFraction_paddedDecimal {width m : Nat} (hpos : 0 < width) (hle : width ≤ 9)
    (hm : m < tenPow width) :
    takeFraction ('.' :: (Text.paddedDecimal width m ++ ['Z'])) =
      .ok (m * tenPow (9 - width), ['Z']) := by
  have hlen := Text.length_paddedDecimal hpos hm
  have hmark : ∀ c ∈ ['Z'].head?, c.isDigit = false := by
    intro c hc
    cases hc
    rfl
  have hbound : m < 9223372036854775808 := by
    have hpow : tenPow width ≤ tenPow 9 := Nat.pow_le_pow_right (by decide) hle
    have hnine : tenPow 9 = 1000000000 := rfl
    omega
  have htake := takeNumber_paddedDecimal 9 width m ['Z'] (by omega) (Or.inr hmark) hbound
  have hdigits : (Text.paddedDecimal width m ++ ['Z']).length - ['Z'].length = width := by
    rw [List.length_append, hlen, Nat.add_sub_cancel]
  rw [takeFraction, htake, Outcome.ok_bind]
  simp only [hdigits]
  rfl

theorem takeFraction_fractionText {nano : Nat} (h : nano < 1000000000) :
    takeFraction (fractionText nano ++ ['Z']) = .ok (nano, ['Z']) := by
  rw [fractionText]
  split
  next hzero =>
    rw [hzero]
    rfl
  split
  next hmod =>
    have hm : nano / 1000000 < tenPow 3 := by show _ < 1000; omega
    rw [List.cons_append, takeFraction_paddedDecimal (by decide) (by decide) hm]
    have hcancel := Nat.div_mul_cancel (Nat.dvd_of_mod_eq_zero hmod)
    exact congrArg (fun n => Except.ok (n, ['Z'])) hcancel
  split
  next hmod =>
    have hm : nano / 1000 < tenPow 6 := by show _ < 1000000; omega
    rw [List.cons_append, takeFraction_paddedDecimal (by decide) (by decide) hm]
    have hcancel := Nat.div_mul_cancel (Nat.dvd_of_mod_eq_zero hmod)
    exact congrArg (fun n => Except.ok (n, ['Z'])) hcancel
  next =>
    have hm : nano < tenPow 9 := h
    rw [List.cons_append, takeFraction_paddedDecimal (by decide) (by decide) hm]
    exact congrArg (fun n => Except.ok (n, ['Z'])) (Nat.mul_one nano)

end Timestamp

/-! ## Instants -/

namespace Instant

/-- The parts that are written for an instant. -/
def parts (t : Instant) : Timestamp.Parts where
  year := t.date.year
  month := t.date.month
  day := t.date.day
  clock := ⟨t.second / 3600, t.second / 60 % 60, t.second % 60 + if t.isLeap then 1 else 0,
    t.nano % 1000000000⟩
  offset := 0

/-- The year of an instant is that of its first or last day, or lies between them. -/
theorem year_bounds (t : Instant) : -262143 ≤ t.date.year ∧ t.date.year ≤ 262142 := by
  obtain ⟨hfirst, hlast, -⟩ := t.isInstant
  obtain ⟨hlow, hhigh⟩ := Calendar.yearOfDay_bounds (t.day + Calendar.epoch)
  have hstart : Calendar.daysBeforeYear (-262143) = firstDay + Calendar.epoch := by decide
  have hend : Calendar.daysBeforeYear 262143 = lastDay + 1 + Calendar.epoch := by decide
  show -262143 ≤ Calendar.yearOfDay (t.day + Calendar.epoch) ∧
    Calendar.yearOfDay (t.day + Calendar.epoch) ≤ 262142
  constructor
  · by_contra hlt
    have hmono := Calendar.daysBeforeYear_le
      (show Calendar.yearOfDay (t.day + Calendar.epoch) + 1 ≤ -262143 by omega)
    omega
  · by_contra hlt
    have hmono := Calendar.daysBeforeYear_le
      (show 262143 ≤ Calendar.yearOfDay (t.day + Calendar.epoch) by omega)
    omega

/-- The clocks of an instant in universal time show that instant. -/
theorem instant?_clock (t : Instant) : t.parts.clock.instant? t.date 0 = some t := by
  obtain ⟨-, -, hsecond, hnano, hleap⟩ := t.isInstant
  have hday : t.date.toDay = t.day := Date.toDay_ofDay t.day
  refine Eq.trans ?_ (ofSeconds?_seconds t)
  rw [Timestamp.Clock.instant?, hday, seconds, Int.sub_zero]
  by_cases h : t.isLeap = true
  · have hlarge : 1000000000 ≤ t.nano := of_decide_eq_true h
    have hlast := hleap hlarge
    have hsixty : t.parts.clock.second = 60 := by
      show t.second % 60 + (if t.isLeap then 1 else 0) = 60
      rw [if_pos h, hlast]
    have hfraction : 1000000000 + t.parts.clock.nano = t.nano := by
      show 1000000000 + t.nano % 1000000000 = t.nano
      omega
    have hclock : (t.parts.clock.hour * 3600 + t.parts.clock.minute * 60 + (59 : Nat) : Int) =
        t.second := by
      show ((t.second / 3600 : Nat) : Int) * 3600 + ((t.second / 60 % 60 : Nat) : Int) * 60 +
        (59 : Nat) = t.second
      omega
    simp only [hsixty, if_true, hfraction]
    exact congrArg (fun s => ofSeconds? (t.day * 86400 + s) t.nano) hclock
  · have hsmall : t.nano < 1000000000 := Nat.lt_of_not_le fun hle => h (decide_eq_true hle)
    have hsame : t.parts.clock.second = t.second % 60 := by
      show t.second % 60 + (if t.isLeap then 1 else 0) = t.second % 60
      rw [if_neg h, Nat.add_zero]
    have hne : t.second % 60 ≠ 60 := by omega
    have hfraction : t.parts.clock.nano = t.nano := Nat.mod_eq_of_lt hsmall
    have hclock : (t.parts.clock.hour * 3600 + t.parts.clock.minute * 60 +
        (t.second % 60 : Nat) : Int) = t.second := by
      show ((t.second / 3600 : Nat) : Int) * 3600 + ((t.second / 60 % 60 : Nat) : Int) * 60 +
        (t.second % 60 : Nat) = t.second
      omega
    simp only [hsame, hne, if_false, hfraction]
    exact congrArg (fun s => ofSeconds? (t.day * 86400 + s) t.nano) hclock

theorem toInstant_parts (t : Instant) : t.parts.toInstant = .ok t := by
  have hdate : Date.ofParts? t.parts.year t.parts.month t.parts.day = some t.date :=
    dif_pos t.date.isDate
  have hyear : Timestamp.yearInRange t.parts.year = true := by
    obtain ⟨hlow, hhigh⟩ := year_bounds t
    exact Bool.and_eq_true_iff.2 ⟨decide_eq_true hlow, decide_eq_true hhigh⟩
  have hoffset : t.parts.offset = 0 := rfl
  rw [Timestamp.Parts.toInstant, hdate]
  simp only [hyear, hoffset, instant?_clock]
  rfl

theorem takeRelaxed_timestamp (t : Instant) :
    Timestamp.takeRelaxed t.timestamp.toList = .ok (t.parts, []) := by
  obtain ⟨-, -, hsecond, hnano, hleap⟩ := t.isInstant
  obtain ⟨hlow, hhigh⟩ := year_bounds t
  obtain ⟨hm1, hm12, hd1, hdmax⟩ := t.date.isDate
  have hd31 : t.date.day ≤ 31 :=
    Nat.le_trans hdmax (Calendar.monthLength_le _ _ (Nat.lt_succ_of_le hm12))
  have hsixty : t.second % 60 + (if t.isLeap then 1 else 0) ≤ 60 := by
    split <;> omega
  have hfraction : t.nano % 1000000000 < 1000000000 := Nat.mod_lt _ (by decide)
  have hdash := fun cs => Timestamp.takeLooseMark_cons (show Text.isBlank '-' = false from rfl) cs
  have hcolon := fun cs => Timestamp.takeLooseMark_cons (show Text.isBlank ':' = false from rfl) cs
  rw [timestamp, String.toList_ofList, dateTimeText, Date.text, clockText]
  simp only [List.append_assoc, List.cons_append]
  have hyear := Timestamp.takeYear_yearText (show -2147483648 ≤ t.date.year by omega) (by omega)
  have hmonth := Timestamp.takeShort_paddedDecimal hm1 hm12 (by omega)
  have hday := Timestamp.takeShort_paddedDecimal hd1 hd31 (by omega)
  have hhour := Timestamp.takeShort_paddedDecimal (Nat.zero_le (t.second / 3600))
    (show t.second / 3600 ≤ 23 by omega) (by omega)
  have hminute := Timestamp.takeShort_paddedDecimal (Nat.zero_le (t.second / 60 % 60))
    (show t.second / 60 % 60 ≤ 59 by omega) (by omega)
  have hclockSecond := Timestamp.takeShort_paddedDecimal (Nat.zero_le _) hsixty (by omega)
  have hnanos := Timestamp.takeFraction_fractionText hfraction
  have hend : ∀ cs, Timestamp.takeDateEnd ('T' :: cs) = .ok cs := fun _ => rfl
  have hzone : Timestamp.takeLooseOffset (Text.trimStart ['Z']) = .ok (0, []) := rfl
  rw [Timestamp.takeRelaxed, hyear]
  simp only [hdash, hmonth, hday, hend, hhour, hcolon, hminute, hclockSecond, hnanos, hzone,
    Outcome.ok_bind]
  rfl

/-- An instant is read back from its timestamp. -/
theorem ofRelaxed_timestamp (t : Instant) : Instant.ofRelaxed t.timestamp = .ok t := by
  rw [ofRelaxed, takeRelaxed_timestamp, Outcome.ok_bind]
  exact toInstant_parts t

end Instant
end CalendarRules
