import CalendarRules.Proofs.Recurrence.Periods
import CalendarRules.Proofs.Time.YearlyZone

/-!
# Daylight saving as a sequence of summers

Clocks are read off the two switches of a year, and in the south the second switch of a year comes
first.  Seen over all years the two cases are one: a summer reaches from a switch forward to the
next switch back, which is in the same year in the north and in the next one in the south, and
daylight saving is in force exactly during summers (`Daylight.isDaylight_iff`).

## The day of a local time

Where the clocks do not show a time of day exactly once, a rule counts that much from local midnight
instead.  In most zones the result is on another clock time, but on the same day
(`YearlyZone.localTime_add_midnight`): clocks are put back only after as much of the day has passed
as they go back, and if they have been put forward late in the day, then every time after that is
shown once.  Zones whose clocks skip the end of a day are not of that kind.
-/

namespace CalendarRules

/-! ## Switches -/

/-- The number of weeks that a Sunday is counted away from the beginning of its month. -/
def Sunday.weeks : Sunday → Nat
  | .fromStart index => index
  | .last => 0

namespace Switch

variable (s : Switch) (year : Int)

/-- A switch falls into its month. -/
theorem day_bounds (hmonth : 1 ≤ s.month ∧ s.month ≤ 12) (hweeks : s.sunday.weeks ≤ 3) :
    firstDayOfYear year + Calendar.daysBeforeMonth (Calendar.isLeap year) s.month ≤ s.day year ∧
      s.day year ≤
        firstDayOfYear year + Calendar.daysBeforeMonth (Calendar.isLeap year) s.month + 30 := by
  have hlength := daysBeforeMonth_succ (Calendar.isLeap year) (s.month - 1) (by omega)
  rw [show s.month - 1 + 1 = s.month by omega, show s.month - 1 + 2 = s.month + 1 by omega]
    at hlength
  have hweekday : ∀ day, Date.weekday day ≤ 6 := by
    intro day
    unfold Date.weekday
    omega
  have hstart : firstDayOfYear year + Calendar.daysBeforeMonth (Calendar.isLeap year) s.month =
      Calendar.daysBeforeYear year + Calendar.daysBeforeMonth (Calendar.isLeap year) s.month -
        Calendar.epoch := by
    unfold firstDayOfYear
    omega
  rw [hstart]
  unfold day
  simp only
  generalize Calendar.daysBeforeYear year +
    Calendar.daysBeforeMonth (Calendar.isLeap year) s.month - Calendar.epoch = start
  cases hsunday : s.sunday with
  | fromStart index =>
    rw [hsunday, Sunday.weeks] at hweeks
    simp only
    omega
  | last =>
    have hend := hweekday (start + Calendar.monthLength (Calendar.isLeap year) s.month - 1)
    unfold Calendar.monthLength at hend ⊢
    simp only
    omega

end Switch

/-! ## Summers -/

/-- Clocks change twice a year, on Sundays of two months from March to November that are not next to
each other.  They go back only after that much of the Sunday has passed, and when they go forward on
the Sunday more of it is left than twice that much. -/
def Daylight.IsRegular (d : Daylight) : Prop :=
  (3 ≤ d.forward.month ∧ d.forward.month ≤ 11 ∧ d.forward.sunday.weeks ≤ 3) ∧
    (3 ≤ d.back.month ∧ d.back.month ≤ 11 ∧ d.back.sunday.weeks ≤ 3) ∧
    (d.forward.month + 2 ≤ d.back.month ∨ d.back.month + 2 ≤ d.forward.month) ∧
    0 < d.saving ∧ d.saving ≤ d.back.time ∧ d.back.time < 86400 ∧
    0 ≤ d.forward.time ∧ d.forward.time + 2 * d.saving < 86400

instance (d : Daylight) : Decidable d.IsRegular :=
  inferInstanceAs (Decidable (_ ∧ _ ∧ _ ∧ _ ∧ _ ∧ _ ∧ _ ∧ _))

/-- The first second of a year. -/
def firstSecondOfYear (year : Int) : Int := firstDayOfYear year * 86400

/-- The year of a second is the only one that the second lies in. -/
theorem year_eq_iff {seconds year : Int} : (Date.ofDay (seconds / 86400)).year = year ↔
    firstSecondOfYear year ≤ seconds ∧ seconds < firstSecondOfYear (year + 1) := by
  have hbounds := year_bounds (seconds / 86400)
  have hyear : ∀ y, (firstSecondOfYear y ≤ seconds ↔ firstDayOfYear y ≤ seconds / 86400) := by
    intro y
    unfold firstSecondOfYear
    omega
  rw [hyear, ← not_le, hyear, not_le]
  constructor
  · rintro rfl
    exact hbounds
  · rintro ⟨hlow, hhigh⟩
    by_contra hne
    rcases lt_or_gt_of_ne hne with hlt | hgt
    · have := firstDayOfYear_le (show (Date.ofDay (seconds / 86400)).year + 1 ≤ year by omega)
      omega
    · have := firstDayOfYear_le (show year + 1 ≤ (Date.ofDay (seconds / 86400)).year by omega)
      omega

/-- Of two switches the one in the earlier month comes first, and both are far from the ends of the
year. -/
theorem Switch.seconds_bounds {s s' : Switch} (hmonth : 3 ≤ s.month)
    (hapart : s.month + 2 ≤ s'.month) (hmonth' : s'.month ≤ 11) (hweeks : s.sunday.weeks ≤ 3)
    (hweeks' : s'.sunday.weeks ≤ 3) (htime : 0 ≤ s.time ∧ s.time < 86400)
    (htime' : 0 ≤ s'.time ∧ s'.time < 86400)
    (offset offset' : Int) (hoffset : -86400 < offset ∧ offset < 2 * 86400)
    (hoffset' : -86400 < offset' ∧ offset' < 2 * 86400) (year : Int) :
    firstSecondOfYear year ≤ s.seconds year offset ∧
      s.seconds year offset + 20 * 86400 ≤ s'.seconds year offset' ∧
      s'.seconds year offset' ≤ firstSecondOfYear (year + 1) := by
  have hmonths : ∀ leap : Bool, ∀ a < 12, ∀ b < 12, 3 ≤ a ∧ a + 2 ≤ b →
      59 ≤ Calendar.daysBeforeMonth leap a ∧
      Calendar.daysBeforeMonth leap a + 59 ≤ Calendar.daysBeforeMonth leap b ∧
      Calendar.daysBeforeMonth leap b ≤ 305 := by decide
  have hbefore := hmonths (Calendar.isLeap year) s.month (by omega) s'.month (by omega)
    ⟨hmonth, hapart⟩
  have hday := s.day_bounds year ⟨by omega, by omega⟩ hweeks
  have hday' := s'.day_bounds year ⟨by omega, by omega⟩ hweeks'
  have hnext := firstDayOfYear_succ year
  unfold seconds firstSecondOfYear
  omega

namespace Daylight

/-- The number of years from a switch forward to the next switch back. -/
def lag (d : Daylight) : Int := if d.forward.month < d.back.month then 0 else 1

variable {d : Daylight} {standard : Int}

/-- In the north a summer lies within a year. -/
theorem isDaylight_iff_of_north (hd : d.IsRegular)
    (hstandard : -86400 < standard ∧ standard < 86400)
    (hnorth : d.forward.month + 2 ≤ d.back.month) (seconds : Int) :
    YearlyZone.isDaylight standard d seconds = true ↔
      ∃ year, d.forward.seconds year standard ≤ seconds ∧
        seconds < d.back.seconds year (standard + d.saving) := by
  obtain ⟨⟨hf3, -, hfweeks⟩, ⟨-, hb11, hbweeks⟩, -, -, hback, hbtime, hftime⟩ := hd
  have hyears := Switch.seconds_bounds hf3 hnorth hb11 hfweeks hbweeks (by omega) (by omega)
    standard (standard + d.saving) (by omega) (by omega)
  obtain ⟨year, hyear⟩ : ∃ year, (Date.ofDay (seconds / 86400)).year = year := ⟨_, rfl⟩
  unfold YearlyZone.isDaylight
  simp only [hyear]
  rw [if_pos (by have := hyears year; omega)]
  simp only [Bool.and_eq_true, decide_eq_true_eq]
  constructor
  · exact fun h => ⟨year, h⟩
  · rintro ⟨year', hforward, hback⟩
    have hsame : (Date.ofDay (seconds / 86400)).year = year' :=
      year_eq_iff.2 ⟨(hyears year').1.trans hforward, hback.trans_le (hyears year').2.2⟩
    rw [← hyear, hsame]
    exact ⟨hforward, hback⟩

/-- In the south it begins in one year and ends in the next. -/
theorem isDaylight_iff_of_south (hd : d.IsRegular)
    (hstandard : -86400 < standard ∧ standard < 86400)
    (hsouth : d.back.month + 2 ≤ d.forward.month) (seconds : Int) :
    YearlyZone.isDaylight standard d seconds = true ↔
      ∃ year, d.forward.seconds year standard ≤ seconds ∧
        seconds < d.back.seconds (year + 1) (standard + d.saving) := by
  obtain ⟨⟨-, hf11, hfweeks⟩, ⟨hb3, -, hbweeks⟩, -, -, hback, hbtime, hftime⟩ := hd
  have hyears := Switch.seconds_bounds hb3 hsouth hf11 hbweeks hfweeks (by omega) (by omega)
    (standard + d.saving) standard (by omega) (by omega)
  obtain ⟨year, hyear⟩ : ∃ year, (Date.ofDay (seconds / 86400)).year = year := ⟨_, rfl⟩
  obtain ⟨hlow, hhigh⟩ := year_eq_iff.1 hyear
  unfold YearlyZone.isDaylight
  simp only [hyear]
  rw [if_neg (by have := hyears year; omega)]
  simp only [Bool.not_eq_true', Bool.and_eq_false_iff, decide_eq_false_iff_not, not_le, not_lt]
  constructor
  · rintro (hback | hforward)
    · have hprevious := hyears (year - 1)
      rw [Int.sub_add_cancel] at hprevious
      refine ⟨year - 1, hprevious.2.2.trans hlow, ?_⟩
      rw [Int.sub_add_cancel]
      exact hback
    · exact ⟨year, hforward, hhigh.trans_le (hyears (year + 1)).1⟩
  · rintro ⟨year', hforward, hback⟩
    have hthis := hyears year'
    have hnext := hyears (year' + 1)
    rcases lt_or_ge seconds (firstSecondOfYear (year' + 1)) with hbefore | hafter
    · have hsame : (Date.ofDay (seconds / 86400)).year = year' := year_eq_iff.2 ⟨by omega, hbefore⟩
      rw [← hyear, hsame]
      exact .inr hforward
    · have hsame : (Date.ofDay (seconds / 86400)).year = year' + 1 :=
        year_eq_iff.2 ⟨hafter, by omega⟩
      rw [← hyear, hsame]
      exact .inl hback

/-- Daylight saving is in force from each switch forward to the next switch back. -/
theorem isDaylight_iff (hd : d.IsRegular) (hstandard : -86400 < standard ∧ standard < 86400)
    (seconds : Int) : YearlyZone.isDaylight standard d seconds = true ↔
      ∃ year, d.forward.seconds year standard ≤ seconds ∧
        seconds < d.back.seconds (year + d.lag) (standard + d.saving) := by
  have hapart := hd.2.2.1
  unfold lag
  split
  · simp only [Int.add_zero]
    exact isDaylight_iff_of_north hd hstandard (by omega) seconds
  · exact isDaylight_iff_of_south hd hstandard (by omega) seconds

end Daylight

/-! ## Regular zones -/

namespace YearlyZone

variable {z : YearlyZone}

/-- Standard time is less than a day away from universal time, and daylight saving is regular. -/
def IsRegular (z : YearlyZone) : Prop :=
  (-86400 < z.standard ∧ z.standard < 86400) ∧ ∀ d ∈ z.daylight, d.IsRegular

instance (z : YearlyZone) : Decidable z.IsRegular := inferInstanceAs (Decidable (_ ∧ _))

theorem IsRegular.saving_pos (h : z.IsRegular) : ∀ d ∈ z.daylight, 0 < d.saving := fun d hd =>
  (h.2 d hd).2.2.2.1

/-! ## The day of a local time -/

variable {d : Daylight} {day timeOfDay midnight : Int}

theorem localTime_of_summer (hd : z.daylight = some d) {t : Int}
    (h : isDaylight z.standard d t = true) : z.zone.localTime t = t + (z.standard + d.saving) := by
  rw [localTime_eq]
  unfold offset
  rw [hd]
  exact congrArg _ (if_pos h)

theorem localTime_of_winter (hd : z.daylight = some d) {t : Int}
    (h : ¬isDaylight z.standard d t = true) : z.zone.localTime t = t + z.standard := by
  rw [localTime_eq]
  unfold offset
  rw [hd]
  exact congrArg _ (if_neg h)

/-- On the day on which clocks are put back, that is done late enough. -/
theorem localTime_add_midnight_of_back (h : z.IsRegular) (hd : z.daylight = some d)
    (hmidnight : z.zone.localTime midnight = day * 86400) (hlow : 0 ≤ timeOfDay)
    (hhigh : timeOfDay < 86400) (hsummer : isDaylight z.standard d midnight = true)
    (hwinter : ¬isDaylight z.standard d (midnight + timeOfDay) = true) :
    z.zone.localTime (midnight + timeOfDay) / 86400 = day := by
  have hregular := h.2 d hd
  obtain ⟨-, -, -, hsaving, hback, hbtime, -⟩ := h.2 d hd
  rw [localTime_of_summer hd hsummer] at hmidnight
  rw [localTime_of_winter hd hwinter]
  rw [Daylight.isDaylight_iff hregular h.1] at hsummer hwinter
  obtain ⟨year, hforward, hbefore⟩ := hsummer
  have hafter : d.back.seconds (year + d.lag) (z.standard + d.saving) ≤ midnight + timeOfDay := by
    by_contra hlt
    exact hwinter ⟨year, by omega, by omega⟩
  unfold Switch.seconds at hbefore hafter
  omega

/-- On the day on which clocks are put forward, a time of day that they would carry over to the next
day is shown once. -/
theorem existsUnique_localTime_of_forward (h : z.IsRegular) (hd : z.daylight = some d)
    (hmidnight : z.zone.localTime midnight = day * 86400) (hhigh : timeOfDay < 86400)
    (hwinter : ¬isDaylight z.standard d midnight = true)
    (hsummer : isDaylight z.standard d (midnight + timeOfDay) = true)
    (hlate : 86400 ≤ timeOfDay + d.saving) :
    ∃! t, z.zone.localTime t = day * 86400 + timeOfDay := by
  have hregular := h.2 d hd
  obtain ⟨-, -, -, hsaving, -, -, hforward⟩ := h.2 d hd
  have hsummer' := hsummer
  rw [localTime_of_winter hd hwinter] at hmidnight
  rw [Daylight.isDaylight_iff hregular h.1] at hsummer' hwinter
  obtain ⟨year, hfrom, hto⟩ := hsummer'
  have hbefore : midnight < d.forward.seconds year z.standard := by
    by_contra hle
    exact hwinter ⟨year, by omega, by omega⟩
  -- seen from winter time, it is shown as long before as clocks have gone forward
  have hearlier : isDaylight z.standard d (midnight + timeOfDay - d.saving) = true := by
    rw [Daylight.isDaylight_iff hregular h.1]
    refine ⟨year, ?_, by omega⟩
    unfold Switch.seconds at hfrom hbefore ⊢
    omega
  refine ⟨midnight + timeOfDay - d.saving, ?_, ?_⟩
  · simp only [localTime_of_summer hd hearlier]
    omega
  · intro t (ht : z.zone.localTime t = day * 86400 + timeOfDay)
    by_cases hin : isDaylight z.standard d t = true
    · rw [localTime_of_summer hd hin] at ht
      omega
    · rw [localTime_of_winter hd hin] at ht
      have hsame : t = midnight + timeOfDay := by omega
      rw [hsame] at hin
      exact absurd hsummer hin

/-- A time of day that clocks do not show exactly once leads to the same day if it is counted from
midnight. -/
theorem localTime_add_midnight (h : z.IsRegular)
    (hmidnight : z.zone.localTime midnight = day * 86400) (hlow : 0 ≤ timeOfDay)
    (hhigh : timeOfDay < 86400) (hnot : ¬∃! t, z.zone.localTime t = day * 86400 + timeOfDay) :
    z.zone.localTime (midnight + timeOfDay) / 86400 = day := by
  cases hd : z.daylight with
  | none =>
    have hsame : ∀ t, z.offset t = z.standard := by
      intro t
      unfold offset
      rw [hd]
    rw [localTime_eq, hsame] at hmidnight ⊢
    omega
  | some d =>
    by_cases hm : isDaylight z.standard d midnight = true
    · by_cases ht : isDaylight z.standard d (midnight + timeOfDay) = true
      · rw [localTime_of_summer hd hm] at hmidnight
        rw [localTime_of_summer hd ht]
        omega
      · exact localTime_add_midnight_of_back h hd hmidnight hlow hhigh hm ht
    · by_cases ht : isDaylight z.standard d (midnight + timeOfDay) = true
      · have hearly : timeOfDay + d.saving < 86400 := by
          by_contra hlate
          exact hnot (existsUnique_localTime_of_forward h hd hmidnight hhigh hm ht (by omega))
        rw [localTime_of_winter hd hm] at hmidnight
        rw [localTime_of_summer hd ht]
        omega
      · rw [localTime_of_winter hd hm] at hmidnight
        rw [localTime_of_winter hd ht]
        omega

end YearlyZone
end CalendarRules
