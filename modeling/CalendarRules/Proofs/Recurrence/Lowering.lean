import CalendarRules.Proofs.Outcome
import CalendarRules.Proofs.Recurrence.RuleText
import CalendarRules.Proofs.Time.YearlyZone
import CalendarRules.Recurrence.Series

/-!
# Reading the rule of a recurrence

The engine for zones of the table reads the text of a recurrence line by line
(`RuleSet.ofText_ruleText`), and the line of the rule value by value.  Numbers, stamps and names of
days are read as what was written, so nothing is lost on the way: the rule starts at the instant at
which it was meant to, and it steps, ends and excludes as the recurrence says
(`RuleSet.IsRead.isRule`).  All that is cut off is the fraction of a second.

An end is read in universal time only, and only in the zone that is called `UTC` is it written so.
-/

namespace CalendarRules

namespace RuleSet

variable {z : YearlyZone}

/-! ## Values read back -/

/-- The stamp of an instant is read as what the clocks show then, and as that second. -/
theorem eq_of_readStamp_stamp (hz : z ∈ YearlyZone.table) {property : String} {t : Instant}
    {localTime seconds : Int}
    (h : readStamp property z (z.zone.stamp t) = .ok (localTime, seconds)) :
    localTime = z.zone.localTime t.seconds ∧ seconds = t.seconds := by
  unfold readStamp at h
  cases hstamp : stampSeconds? (z.zone.stamp t) with
  | none =>
    rw [hstamp] at h
    cases h
  | some localTime' =>
    rw [hstamp] at h
    have hleap := Zone.not_isLeap_of_stampSeconds? hstamp (YearlyZone.offset_mod_minute hz _)
    have hlocal := Zone.eq_clock_of_stampSeconds? hstamp
    rw [Zone.clock_of_not_isLeap _ hleap] at hlocal
    simp only at h
    split at h
    next t' ht =>
      cases h
      rw [hlocal] at ht
      exact ⟨hlocal, YearlyZone.eq_of_instantsAt_localTime ht⟩
    next => cases h
    next => cases h

/-- A stamp is read that the clocks show exactly once. -/
theorem readStamp_of_instantsAt {stamp : List Char} {localTime t : Int}
    (h : stampSeconds? stamp = some localTime) (ht : z.instantsAt localTime = [t])
    (property : String) : readStamp property z stamp = .ok (localTime, t) := by
  rw [readStamp, h]
  simp only [ht]

/-- In universal time every stamp is read that can be read at all. -/
theorem readStamp_universal {stamp : List Char} {localTime : Int}
    (h : stampSeconds? stamp = some localTime) (property : String) :
    readStamp property .universal stamp = .ok (localTime, localTime) :=
  readStamp_of_instantsAt h (YearlyZone.instantsAt_universal localTime) property

theorem readStamp_stamp_universal {t : Instant} (hlow : 0 ≤ t.date.year)
    (hhigh : t.date.year ≤ 9999) (hleap : t.isLeap = false) (property : String) :
    readStamp property .universal (Zone.universal.stamp t) = .ok (t.seconds, t.seconds) :=
  readStamp_universal (Zone.stampSeconds?_universal hlow hhigh hleap) property

theorem mapM_readStamp_universal {ts : List Instant}
    (hts : ∀ t ∈ ts, (0 ≤ t.date.year ∧ t.date.year ≤ 9999) ∧ t.isLeap = false)
    (property : String) :
    ts.mapM (fun t => (readStamp property .universal (Zone.universal.stamp t)).map Prod.snd) =
      .ok (ts.map Instant.seconds) := by
  rw [Outcome.mapM_eq_ok_iff, List.forall₂_map_right_iff, List.forall₂_same]
  intro t ht
  obtain ⟨⟨hlow, hhigh⟩, hleap⟩ := hts t ht
  rw [readStamp_stamp_universal hlow hhigh hleap]
  rfl

/-- A number is read if it has no sign and is not too large. -/
theorem readNumber_integer (property : String) (most : Nat) (i : Int) :
    readNumber property most (Text.integer i) =
      if 0 ≤ i ∧ i ≤ most then .ok i.toNat
      else .error (.value property (String.ofList (Text.integer i)) "") := by
  unfold readNumber
  by_cases hneg : i < 0
  · have hsign : Text.isNumeral (Text.integer i) = false := by
      rw [Text.integer, if_pos hneg]
      rfl
    rw [hsign, Bool.false_and, if_neg Bool.false_ne_true, if_neg (by omega)]
  · have hdigits : Text.integer i = Text.decimal i.toNat := by
      rw [Text.integer, if_neg hneg, show i.natAbs = i.toNat by omega]
    rw [hdigits, Text.isNumeral_decimal, Text.decimalValue_decimal, Bool.true_and]
    simp only [decide_eq_true_eq]
    exact if_congr (by omega) rfl rfl

theorem eq_of_readNumber_integer {property : String} {most n : Nat} {i : Int}
    (h : readNumber property most (Text.integer i) = .ok n) : (n : Int) = i := by
  rw [readNumber_integer] at h
  split at h
  · cases h
    omega
  · cases h

theorem eq_of_readOptional_integer {property : String} {most : Nat} {i? : Option Int}
    {n? : Option Nat}
    (h : readOptional (readNumber property most) (i?.map Text.integer) = .ok n?) :
    n?.map Nat.cast = i? := by
  cases i? with
  | none =>
    cases h
    rfl
  | some i =>
    obtain ⟨n, hn, rfl⟩ := Outcome.map_eq_ok h
    exact congrArg some (eq_of_readNumber_integer hn)

/-- A day of the month is read with its sign, if a month can have it. -/
theorem readMonthDay_integer (i : Int) : readMonthDay (Text.integer i) =
    if -31 ≤ i ∧ i ≤ 31 then .ok i
    else .error (.value "BYMONTHDAY" (String.ofList (Text.integer i))
      " Expected a comma-separated list of values in range -31..=31, e.g. `-30,10`") := by
  unfold readMonthDay
  by_cases hneg : i < 0
  · have hsign : Text.integer i = '-' :: Text.decimal i.natAbs := if_pos hneg
    have hvalue : -(i.natAbs : Int) = i := by omega
    simp only [hsign, Text.isNumeral_decimal, Text.decimalValue_decimal, Bool.true_and,
      decide_eq_true_eq, if_true, hvalue]
    exact if_congr (by omega) rfl rfl
  · have hdigits : Text.integer i = Text.decimal i.natAbs := if_neg hneg
    have hvalue : (i.natAbs : Int) = i := by omega
    split
    next heq =>
      split at heq
      next hcs => exact absurd (hdigits.symm.trans hcs) (Text.decimal_ne_minus_cons _ _)
      next =>
        cases heq
        simp only [hdigits, Text.isNumeral_decimal, Text.decimalValue_decimal, Bool.true_and,
          decide_eq_true_eq, Bool.false_eq_true, if_false, hvalue]
        exact if_congr (by omega) rfl rfl

theorem eq_of_readMonthDay_integer {i d : Int} (h : readMonthDay (Text.integer i) = .ok d) :
    d = i := by
  rw [readMonthDay_integer] at h
  split at h
  · exact (Except.ok.inj h).symm
  · cases h

/-- No day of the month has number zero. -/
theorem eq_of_readOptional_monthDay {i? d? : Option Int}
    (h : readOptional readMonthDay (i?.map Text.integer) = .ok d?) :
    (if d? = some 0 then none else d?) = i?.filter (· ≠ 0) := by
  cases i? with
  | none =>
    cases h
    rfl
  | some i =>
    obtain ⟨d, hd, rfl⟩ := Outcome.map_eq_ok h
    rw [eq_of_readMonthDay_integer hd, Option.filter_some]
    by_cases hzero : i = 0 <;> simp [hzero]

/-- The zone called `UTC` is never ahead, so an end in universal time is the second it was. -/
theorem eq_of_readFinish_untilText (hz : z ∈ YearlyZone.table) (hutc : z.name = "UTC")
    {t : Instant} {finish : Int × Bool}
    (h : readFinish (Recurrence.untilText z.zone t) = .ok finish) :
    finish = (t.seconds, true) := by
  have hzero : ∀ z ∈ YearlyZone.table, z.name = "UTC" → z.standard = 0 ∧ z.saving = 0 := by
    decide
  have hname : z.zone.name = "UTC" := hutc
  unfold readFinish Recurrence.untilText at h
  rw [if_pos hname] at h
  simp only [List.getLast?_concat, List.dropLast_concat, beq_self_eq_true, if_true] at h
  split at h
  next localTime hlocal =>
    cases h
    have hoffset := z.offset_eq t.seconds
    have hnone := hzero z hz hutc
    have hleap := Zone.not_isLeap_of_stampSeconds? hlocal (YearlyZone.offset_mod_minute hz _)
    have hsame : z.zone.clock t = t.seconds := by
      rw [Zone.clock_of_not_isLeap _ hleap, YearlyZone.localTime_eq]
      omega
    rw [Zone.eq_clock_of_stampSeconds? hlocal, hsame]
  next => cases h

theorem eq_of_readOptional_untilText (hz : z ∈ YearlyZone.table) {t? : Option Instant}
    {finish? : Option (Int × Bool)}
    (h : readOptional readFinish (t?.map (Recurrence.untilText z.zone)) = .ok finish?)
    (haccepts : ∀ finish ∈ finish?, acceptsEnd z = true ∧ finish.2 = true) :
    finish? = t?.map fun t => (t.seconds, true) := by
  cases t? with
  | none =>
    cases h
    rfl
  | some t =>
    obtain ⟨finish, hfinish, rfl⟩ := Outcome.map_eq_ok h
    have hutc : z.name = "UTC" := of_decide_eq_true (haccepts finish rfl).1
    exact congrArg some (eq_of_readFinish_untilText hz hutc hfinish)

theorem eq_of_mapM_readStamp (hz : z ∈ YearlyZone.table) {property : String} {ts : List Instant}
    {excluded : List Int}
    (h : ts.mapM (fun t => (readStamp property z (z.zone.stamp t)).map Prod.snd) = .ok excluded) :
    excluded = ts.map Instant.seconds := by
  have hread : List.Forall₂ (fun t seconds => t.seconds = seconds) ts excluded := by
    refine (Outcome.mapM_eq_ok_iff.1 h).imp fun t seconds hseconds => ?_
    obtain ⟨⟨localTime, second⟩, hstamp, rfl⟩ := Outcome.map_eq_ok hseconds
    exact (eq_of_readStamp_stamp hz hstamp).2.symm
  rw [← List.forall₂_map_left_iff, List.forall₂_eq_eq_eq] at hread
  exact hread.symm

/-- The days of the week are read as those that exist. -/
theorem readOptional_dayText? (r : Recurrence) : readOptional readDays r.dayText? =
    .ok (if r.dayNames.isEmpty then none
      else some ((r.daysOfWeek.getD []).filterMap weekday?)) := by
  unfold Recurrence.dayText?
  split
  · rfl
  next hne =>
    have hnames := Recurrence.mapM_dayNames (r.daysOfWeek.getD [])
    rw [readOptional, readDays, Recurrence.split_dayNames fun hnil => hne (List.isEmpty_iff.2 hnil),
      Recurrence.dayNames, hnames]
    rfl

theorem eq_of_readOptional_dayText? {r : Recurrence} {days : Option (List Nat)}
    (h : readOptional readDays r.dayText? = .ok days) :
    days.getD [] = (r.daysOfWeek.getD []).filterMap weekday? := by
  rw [readOptional_dayText?] at h
  cases h
  split
  next hempty => exact (Recurrence.filterMap_weekday?_of_dayNames (List.isEmpty_iff.1 hempty)).symm
  next => rfl

/-- A rule that is not refused stays as it is: weeks have no day counted from the beginning of a
month, and an end goes with the zone. -/
theorem of_check_eq_ok {s s' : RuleSet} (h : check s = .ok s') :
    s' = s ∧ hasWeeklyMonthDay s.repetition = false ∧
      ∀ finish ∈ s.repetition.finish, acceptsEnd s.zone = true ∧ finish.2 = true := by
  unfold check at h
  cases hfinish : s.repetition.finish with
  | none =>
    simp only [hfinish] at h
    split at h
    next => cases h
    next hweeks =>
      exact ⟨(Except.ok.inj h).symm, Bool.not_eq_true _ ▸ hweeks, fun finish hmem => nomatch hmem⟩
  | some finish =>
    obtain ⟨finish, universal⟩ := finish
    simp only [hfinish] at h
    split at h
    next => cases h
    next haccepts =>
      split at h
      next => cases h
      next =>
        split at h
        next => cases h
        next hweeks =>
          rw [Bool.not_eq_true, Bool.not_eq_false', Bool.and_eq_true] at haccepts
          refine ⟨(Except.ok.inj h).symm, Bool.not_eq_true _ ▸ hweeks, fun finish' hmem => ?_⟩
          cases hmem
          exact haccepts

/-! ## Lines -/

/-- The line of a rule is read value by value. -/
theorem readRepetition_ruleLine (r : Recurrence) (z : Zone) : readRepetition (r.ruleLine z) = (do
    let interval ← readNumber "INTERVAL" 65535 (Text.integer r.interval)
    let count ← readOptional (readNumber "COUNT" 4294967295)
      (r.count.map Text.integer)
    let finish ← readOptional readFinish (r.endDate.map (Recurrence.untilText z))
    let monthDay ← readOptional readMonthDay (r.dayOfMonth.map Text.integer)
    let days ← readOptional readDays r.dayText?
    return ⟨r.frequency, interval, count, finish, days.getD [],
      if monthDay = some 0 then none else monthDay⟩) := by
  obtain ⟨hfrequency, hinterval, hcount, hend, hdays, hday⟩ := Recurrence.property?_properties r z
  unfold readRepetition
  rw [Recurrence.split_ruleLine]
  simp only [hfrequency, hinterval, hcount, hend, hdays, hday, Recurrence.find?_ruleName]
  simp only [ne_eq, not_true_eq_false, if_false]
  rw [readOptional]
  cases readNumber "INTERVAL" 65535 (Text.integer r.interval) with
  | error fault => rfl
  | ok interval => rfl

/-- A line of local times is read as its zone and the rest of it. -/
theorem readLine_lineHead (hz : YearlyZone.ofName? z.name = some z) {name : String}
    (hname : IsPlain name.toList) {value : List Char} (hvalue : ':' ∉ value) :
    readLine name (Recurrence.lineHead name z.zone ++ ':' :: value) = .ok (z, value) := by
  have hzone : ∀ mark ∈ ['\n', ':', ';', '='], mark ∉ z.name.toList :=
    fun _ => YearlyZone.notMem_name (YearlyZone.mem_table_of_ofName? hz)
  have hcolon : ':' ∉ Recurrence.lineHead name z.zone :=
    Recurrence.notMem_lineHead (hzone _ (by decide)) (hname.notMem (by decide)) (by decide)
  have hkey : '=' ∉ name.toList ++ ";TZID".toList := by
    rw [List.mem_append, not_or]
    exact ⟨hname.notMem (by decide), by decide⟩
  have hhead : Text.split '=' (Recurrence.lineHead name z.zone) =
      [name.toList ++ ";TZID".toList, z.name.toList] := by
    have happ := Text.split_append hkey z.name.toList
    rw [Text.split_eq_singleton (hzone _ (by decide)), List.append_assoc] at happ
    rw [Recurrence.lineHead, List.append_assoc]
    exact happ
  rw [readLine, Text.split_append hcolon, Text.split_eq_singleton hvalue]
  simp only [hhead, String.ofList_toList, hz, if_true]

theorem readExclusions_exclusionLine (hz : YearlyZone.ofName? z.name = some z) {r : Recurrence}
    (hne : r.excludeDates ≠ []) : readExclusions (r.exclusionLine z.zone) =
      r.excludeDates.mapM fun t => (readStamp "EXDATE" z (z.zone.stamp t)).map Prod.snd := by
  have hcolon := notMem_stamps z.zone r.excludeDates (show ':' ∈ ruleMarks by decide) (by decide)
  rw [readExclusions, Recurrence.exclusionLine, readLine_lineHead hz (by decide) hcolon,
    Outcome.ok_bind]
  simp only [split_stamps z.zone hne, List.mapM_map]
  rfl

/-- The text of a recurrence is read line by line. -/
theorem ofText_ruleText (hz : YearlyZone.ofName? z.name = some z) (r : Recurrence)
    (start : Instant) :
    ofText (r.ruleText z.zone start) = (do
      let (localStart, start) ← readStamp "DTSTART" z (z.zone.stamp start)
      let repetition ← readRepetition (r.ruleLine z.zone)
      let excluded ← r.excludeDates.mapM fun t =>
        (readStamp "EXDATE" z (z.zone.stamp t)).map Prod.snd
      check ⟨z, localStart, start, repetition, excluded⟩) := by
  have hstart : readLine "DTSTART" (Recurrence.startLine z.zone start) =
      .ok (z, z.zone.stamp start) :=
    readLine_lineHead hz (by decide) ((isPlain_stamp z.zone start).notMem (by decide))
  have hzone : ∀ mark ∈ ['\n', ':', ';', '='], mark ∉ z.name.toList :=
    fun _ => YearlyZone.notMem_name (YearlyZone.mem_table_of_ofName? hz)
  unfold ofText
  rw [Recurrence.split_ruleText (hzone _ (by decide)), Recurrence.ruleLines]
  cases hexclude : r.excludeDates with
  | nil =>
    simp only [List.isEmpty_nil, if_true, List.append_nil, hstart, Outcome.ok_bind, List.mapM_nil]
  | cons t ts =>
    have hread := readExclusions_exclusionLine hz (show r.excludeDates ≠ [] by simp [hexclude])
    rw [hexclude] at hread
    simp only [List.isEmpty_cons, Bool.false_eq_true, if_false, List.cons_append, List.nil_append,
      hstart, Outcome.ok_bind, hread]

/-- A rule set is what is read from the text of a recurrence: each value is read from what was
written for it, and the parts go together. -/
structure IsRead (z : YearlyZone) (r : Recurrence) (start : Instant) (s : RuleSet) : Prop where
  zone : s.zone = z
  start : readStamp "DTSTART" z (z.zone.stamp start) = .ok (s.localStart, s.start)
  frequency : s.repetition.frequency = r.frequency
  interval : readNumber "INTERVAL" 65535 (Text.integer r.interval) = .ok s.repetition.interval
  count : readOptional (readNumber "COUNT" 4294967295) (r.count.map Text.integer) =
    .ok s.repetition.count
  finish : readOptional readFinish (r.endDate.map (Recurrence.untilText z.zone)) =
    .ok s.repetition.finish
  monthDay : ∃ day, readOptional readMonthDay (r.dayOfMonth.map Text.integer) = .ok day ∧
    s.repetition.monthDay = if day = some 0 then none else day
  days : ∃ days, readOptional readDays r.dayText? = .ok days ∧ s.repetition.days = days.getD []
  excluded : r.excludeDates.mapM (fun t => (readStamp "EXDATE" z (z.zone.stamp t)).map Prod.snd) =
    .ok s.excluded
  check : check s = .ok s

theorem IsRead.stampSeconds?_start {r : Recurrence} {start : Instant} {s : RuleSet}
    (h : IsRead z r start s) : stampSeconds? (z.zone.stamp start) = some s.localStart := by
  have hstart := h.start
  unfold readStamp at hstart
  split at hstart
  · cases hstart
  next localTime hlocal =>
    split at hstart <;> cases hstart
    exact hlocal

/-- A recurrence with a count that asks for no days is read as it stands. -/
theorem isRead_of_count {z : YearlyZone} {r : Recurrence} {start : Instant}
    {localStart seconds : Int} {interval count : Nat} {excluded : List Int}
    (hinterval : r.interval = interval) (hcount : r.count = some (count : Int))
    (hfits : interval ≤ 65535 ∧ count ≤ 4294967295)
    (hplain : r.endDate = none ∧ r.daysOfWeek = none ∧ r.dayOfMonth = none)
    (hstart : readStamp "DTSTART" z (z.zone.stamp start) = .ok (localStart, seconds))
    (hexcluded : r.excludeDates.mapM (fun t =>
      (readStamp "EXDATE" z (z.zone.stamp t)).map Prod.snd) = .ok excluded) :
    IsRead z r start ⟨z, localStart, seconds,
      ⟨r.frequency, interval, some count, none, [], none⟩, excluded⟩ := by
  obtain ⟨hend, hdays, hday⟩ := hplain
  have hnames : r.dayText? = none := by
    rw [Recurrence.dayText?, Recurrence.dayNames, hdays]
    rfl
  have hread : ∀ property (most n : Nat), n ≤ most →
      readNumber property most (Text.integer n) = .ok n := by
    intro property most n hn
    rw [readNumber_integer, if_pos (by omega), Int.toNat_natCast]
  have hunset : hasWeeklyMonthDay ⟨r.frequency, interval, some count, none, [], none⟩ = false :=
    Bool.and_false _
  exact {
    zone := rfl
    start := hstart
    frequency := rfl
    interval := by rw [hinterval, hread _ _ _ hfits.1]
    count := by
      rw [hcount, Option.map_some, readOptional, hread _ _ _ hfits.2]
      rfl
    finish := by rw [hend]; rfl
    monthDay := ⟨none, by rw [hday]; rfl, rfl⟩
    days := ⟨none, by rw [hnames]; rfl, rfl⟩
    excluded := hexcluded
    check := by
      unfold check
      simp only [hunset]
      rfl }

theorem ofText_ruleText_eq_ok_iff (hz : YearlyZone.ofName? z.name = some z) {r : Recurrence}
    {start : Instant} {s : RuleSet} :
    ofText (r.ruleText z.zone start) = .ok s ↔ IsRead z r start s := by
  rw [ofText_ruleText hz, readRepetition_ruleLine]
  constructor
  · intro h
    obtain ⟨⟨localStart, second⟩, hstart, h⟩ := Outcome.bind_eq_ok h
    obtain ⟨repetition, hrepetition, h⟩ := Outcome.bind_eq_ok h
    obtain ⟨excluded, hexcluded, hcheck⟩ := Outcome.bind_eq_ok h
    obtain ⟨interval, hinterval, hrepetition⟩ := Outcome.bind_eq_ok hrepetition
    obtain ⟨count, hcount, hrepetition⟩ := Outcome.bind_eq_ok hrepetition
    obtain ⟨finish, hfinish, hrepetition⟩ := Outcome.bind_eq_ok hrepetition
    obtain ⟨monthDay, hmonthDay, hrepetition⟩ := Outcome.bind_eq_ok hrepetition
    obtain ⟨days, hdays, hrepetition⟩ := Outcome.bind_eq_ok hrepetition
    cases hrepetition
    obtain ⟨rfl, -⟩ := of_check_eq_ok hcheck
    exact ⟨rfl, hstart, rfl, hinterval, hcount, hfinish, ⟨_, hmonthDay, rfl⟩, ⟨_, hdays, rfl⟩,
      hexcluded, hcheck⟩
  · rintro ⟨rfl, hstart, hfrequency, hinterval, hcount, hfinish, ⟨day, hmonthDay, hday⟩,
      ⟨days, hdays, hnames⟩, hexcluded, hcheck⟩
    rw [hstart, Outcome.ok_bind, hinterval, Outcome.ok_bind, hcount, Outcome.ok_bind, hfinish,
      Outcome.ok_bind, hmonthDay, Outcome.ok_bind, hdays, Outcome.ok_bind, ← hday, ← hnames,
      ← hfrequency]
    simp only [hexcluded]
    exact hcheck

/-! ## What is read -/

/-- A rule set is that of a recurrence with a start: it starts then, in that zone, and it repeats,
ends and excludes as the recurrence says. -/
structure IsRule (z : YearlyZone) (r : Recurrence) (start : Instant) (s : RuleSet) : Prop where
  zone : s.zone = z
  localStart : s.localStart = z.zone.localTime start.seconds
  start : s.start = start.seconds
  frequency : s.repetition.frequency = r.frequency
  interval : (s.repetition.interval : Int) = r.interval
  count : s.repetition.count.map Nat.cast = r.count
  finish : s.repetition.finish = r.endDate.map fun t => (t.seconds, true)
  days : s.repetition.days = (r.daysOfWeek.getD []).filterMap weekday?
  monthDay : s.repetition.monthDay = r.dayOfMonth.filter (· ≠ 0)
  excluded : s.excluded = r.excludeDates.map Instant.seconds

/-- What is read from the text of a recurrence is the rule of that recurrence. -/
theorem IsRead.isRule (hz : z ∈ YearlyZone.table) {r : Recurrence} {start : Instant} {s : RuleSet}
    (h : IsRead z r start s) : IsRule z r start s := by
  obtain ⟨hzone, hstart, hfrequency, hinterval, hcount, hfinish, ⟨day, hmonthDay, hday⟩,
    ⟨days, hdays, hnames⟩, hexcluded, hcheck⟩ := h
  obtain ⟨-, -, hends⟩ := of_check_eq_ok hcheck
  rw [hzone] at hends
  obtain ⟨hlocal, hseconds⟩ := eq_of_readStamp_stamp hz hstart
  exact ⟨hzone, hlocal, hseconds, hfrequency, eq_of_readNumber_integer hinterval,
    eq_of_readOptional_integer hcount, eq_of_readOptional_untilText hz hfinish hends,
    hnames.trans (eq_of_readOptional_dayText? hdays),
    hday.trans (eq_of_readOptional_monthDay hmonthDay), eq_of_mapM_readStamp hz hexcluded⟩

end RuleSet
end CalendarRules
