import CalendarRules.Proofs.Recurrence.Refusal
import CalendarRules.Proofs.Recurrence.RuleText
import CalendarRules.Recurrence.Series

/-!
# What a rule says can be recovered

The text of a recurrence is meant for any reader of such rules.  What readers have in common is that
they take it apart at its marks, whatever the pieces between them mean to them.  So it is taken
apart here by nothing but splitting: into lines with names, parameters and values (`Line.all?`), and
the value of the rule into keys and texts, from which the descriptor of the recurrence is read off
(`Descriptor.ofValue?`).

Nothing is lost that way, and nothing is added (`Event.descriptor_recovered`).  There is one line
for each part and one key for each property that is set, no part runs into the next, and different
descriptors have different texts.

Of the name of a zone it is asked that no mark in it divides lines.  The names that a database of
zones knows have no such marks (`Event.Lowers.of_ofName?`).
-/

namespace CalendarRules

/-! ## Lines -/

/-- A line of a rule: its name, what is said about its value, and the value. -/
structure Line where
  name : List Char
  parameters : List (List Char)
  value : List Char

namespace Line

/-- A line comes apart at its one colon, and what stands before that at semicolons. -/
def ofText? (text : List Char) : Option Line :=
  match Text.split ':' text with
  | [head, value] =>
    match Text.split ';' head with
    | name :: parameters => some ⟨name, parameters, value⟩
    | [] => none
  | _ => none

/-- All lines of a text. -/
def all? (text : List Char) : Option (List Line) := (Text.split '\n' text).mapM ofText?

end Line

/-! ## Values -/

/-- The number that a text spells, perhaps with a sign. -/
def Text.integer? : List Char → Option Int
  | '-' :: digits => if isNumeral digits then some (-(decimalValue digits : Int)) else none
  | digits => if isNumeral digits then some (decimalValue digits : Int) else none

theorem Text.integer?_integer (i : Int) : integer? (integer i) = some i := by
  unfold integer
  split
  next hneg =>
    rw [integer?, if_pos (isNumeral_decimal _), decimalValue_decimal]
    exact congrArg some (by omega)
  next hneg =>
    rw [integer?, if_pos (isNumeral_decimal _), decimalValue_decimal]
    · exact congrArg some (by omega)
    · exact decimal_ne_minus_cons _

/-- The numbers of the days of the week that a text names, Sunday being zero. -/
def weekdays? (text : List Char) : Option (List Int) :=
  ((Text.split ',' text).mapM fun name => weekdayNames.findIdx? fun known => known == name).map
    (List.map Nat.cast)

/-- How a recurrence repeats, apart from an end by date: what its rule says in numbers and names. -/
structure Descriptor where
  frequency : Frequency
  interval : Int
  count : Option Int
  /-- Days of the week, Sunday being zero. -/
  days : List Int
  dayOfMonth : Option Int
  deriving DecidableEq

def Recurrence.descriptor (r : Recurrence) : Descriptor :=
  ⟨r.frequency, r.interval, r.count, r.daysOfWeek.getD [], r.dayOfMonth⟩

/-- What is written down of a descriptor: days of the week only as far as they exist. -/
def Recurrence.written (r : Recurrence) : Descriptor :=
  { r.descriptor with days := ((r.daysOfWeek.getD []).filterMap weekday?).map Nat.cast }

/-- The descriptor that the value of a rule spells: properties between semicolons, each a key and a
text, and days between commas. -/
def Descriptor.ofValue? (value : List Char) : Option Descriptor := do
  let properties := (Text.split ';' value).map (Text.split '=')
  let frequency ← Frequency.all.find? fun f =>
    some f.ruleName == Recurrence.property? "FREQ" properties
  let interval ← (Recurrence.property? "INTERVAL" properties).bind Text.integer?
  let count ← (Recurrence.property? "COUNT" properties).mapM Text.integer?
  let days ← (Recurrence.property? "BYDAY" properties).mapM weekdays?
  let dayOfMonth ← (Recurrence.property? "BYMONTHDAY" properties).mapM Text.integer?
  return ⟨frequency, interval, count, days.getD [], dayOfMonth⟩

/-- The keys of the properties of a rule, in the order in which they are written. -/
def ruleKeys (value : List Char) : List (List Char) :=
  (Text.split ';' value).filterMap fun p => (Text.split '=' p).head?

/-- A value is made of properties with keys out of a list: each has one text, and no key stands in
it twice. -/
structure HasKeys (value : List Char) (keys : List String) : Prop where
  paired : ∀ p ∈ Text.split ';' value, ∃ key text, Text.split '=' p = [key, text]
  nodup : (ruleKeys value).Nodup
  known : ruleKeys value ⊆ keys.map String.toList

namespace Recurrence

/-- A value says how a recurrence repeats: it is made of keys with one text each, no key stands in
it twice, those of what is always set are there, the others if what they stand for is set, and the
descriptor can be read off. -/
structure IsRuleValue (r : Recurrence) (value : List Char) : Prop where
  paired : ∀ p ∈ Text.split ';' value, ∃ key text, Text.split '=' p = [key, text]
  nodup : (ruleKeys value).Nodup
  known : ruleKeys value ⊆
    ["FREQ", "INTERVAL", "COUNT", "UNTIL", "BYDAY", "BYMONTHDAY"].map String.toList
  frequency : "FREQ".toList ∈ ruleKeys value
  interval : "INTERVAL".toList ∈ ruleKeys value
  ending : "COUNT".toList ∈ ruleKeys value ↔ "UNTIL".toList ∉ ruleKeys value
  count : "COUNT".toList ∈ ruleKeys value ↔ r.count.isSome = true
  days : "BYDAY".toList ∈ ruleKeys value ↔ ∃ days, r.daysOfWeek = some days ∧ days ≠ []
  dayOfMonth : "BYMONTHDAY".toList ∈ ruleKeys value ↔ r.dayOfMonth.isSome = true
  descriptor : Descriptor.ofValue? value = some r.descriptor

variable (r : Recurrence) (z : Zone)

/-! ## The keys of a rule -/

theorem ruleKeys_properties : ruleKeys (Text.joined ';' (r.properties z)) =
    (r.propertyValues z).filterMap fun p => p.2.map fun _ => p.1.toList := by
  have hpieces : ruleKeys (Text.joined ';' (r.properties z)) =
      ((Text.split ';' (Text.joined ';' (r.properties z))).map (Text.split '=')).filterMap
        List.head? := by
    rw [ruleKeys, List.filterMap_map]
    rfl
  rw [hpieces, split_properties, pieces, List.filterMap_filterMap]
  refine List.filterMap_congr fun p _ => ?_
  cases p.2 <;> rfl

theorem paired_properties : ∀ p ∈ Text.split ';' (Text.joined ';' (r.properties z)),
    ∃ key text, Text.split '=' p = [key, text] := by
  intro p hp
  have hpiece := List.mem_map_of_mem (f := Text.split '=') hp
  rw [split_properties, pieces, List.mem_filterMap] at hpiece
  obtain ⟨q, -, hq⟩ := hpiece
  obtain ⟨text, -, heq⟩ := Option.map_eq_some_iff.1 hq
  exact ⟨_, text, heq.symm⟩

theorem nodup_ruleKeys : (ruleKeys (Text.joined ';' (r.properties z))).Nodup := by
  have hnames := List.pairwise_map.1 (nodup_names r z)
  rw [ruleKeys_properties, List.Nodup, List.pairwise_filterMap]
  refine hnames.imp fun {p q} hne key hkey key' hkey' heq => hne ?_
  obtain ⟨_, -, rfl⟩ := Option.map_eq_some_iff.1 hkey
  obtain ⟨_, -, rfl⟩ := Option.map_eq_some_iff.1 hkey'
  exact String.toList_inj.1 heq

/-- A key is written if it has a value. -/
theorem mem_ruleKeys_iff : ∀ p ∈ r.propertyValues z,
    (p.1.toList ∈ ruleKeys (Text.joined ';' (r.properties z)) ↔ p.2.isSome = true) := by
  intro p hp
  rw [ruleKeys_properties, List.mem_filterMap, Option.isSome_iff_exists]
  constructor
  · rintro ⟨q, hq, hkey⟩
    obtain ⟨value, hvalue, hname⟩ := Option.map_eq_some_iff.1 hkey
    have hsame : q = p :=
      List.inj_on_of_nodup_map (nodup_names r z) hq hp (String.toList_inj.1 hname)
    exact ⟨value, hsame ▸ hvalue⟩
  · rintro ⟨value, hvalue⟩
    exact ⟨p, hp, by rw [hvalue, Option.map_some]⟩

theorem ruleKeys_subset : ruleKeys (Text.joined ';' (r.properties z)) ⊆
    ["FREQ", "INTERVAL", "COUNT", "UNTIL", "BYDAY", "BYMONTHDAY"].map String.toList := by
  intro key hkey
  rw [ruleKeys_properties, List.mem_filterMap] at hkey
  obtain ⟨p, hp, hkey⟩ := hkey
  obtain ⟨_, -, rfl⟩ := Option.map_eq_some_iff.1 hkey
  exact List.mem_map_of_mem (List.mem_map_of_mem (f := Prod.fst) hp)

/-- The keys are those that have a value. -/
theorem hasKeys_properties_iff {keys : List String} :
    HasKeys (Text.joined ';' (r.properties z)) keys ↔
      ∀ p ∈ r.propertyValues z, p.2.isSome = true → p.1 ∈ keys := by
  constructor
  · intro h p hp hvalue
    obtain ⟨key, hkey, hname⟩ := List.mem_map.1 (h.known ((mem_ruleKeys_iff r z p hp).2 hvalue))
    rwa [← String.toList_inj.1 hname]
  · intro hkeys
    refine ⟨paired_properties r z, nodup_ruleKeys r z, fun key hkey => ?_⟩
    rw [ruleKeys_properties, List.mem_filterMap] at hkey
    obtain ⟨p, hp, hvalue⟩ := hkey
    obtain ⟨value, hsome, rfl⟩ := Option.map_eq_some_iff.1 hvalue
    exact List.mem_map_of_mem (hkeys p hp (by rw [hsome]; rfl))

/-! ## The descriptor -/

variable {r} {z}

/-- Days of the week that exist are numbered as they were. -/
theorem map_filterMap_weekday? {days : List Int} (hdays : ∀ d ∈ days, 0 ≤ d ∧ d ≤ 6) :
    (days.filterMap weekday?).map Nat.cast = days := by
  rw [List.map_filterMap]
  refine (List.filterMap_congr fun d hd => ?_).trans List.filterMap_some
  rw [weekday?, if_pos (hdays d hd), Option.map_some, Int.toNat_of_nonneg (hdays d hd).1]

/-- Days that exist are named if any are asked for. -/
theorem isSome_dayText?_iff (hdays : ∀ d ∈ r.daysOfWeek.getD [], 0 ≤ d ∧ d ≤ 6) :
    r.dayText?.isSome = true ↔ ∃ days, r.daysOfWeek = some days ∧ days ≠ [] := by
  have hnil : r.dayNames = [] ↔ r.daysOfWeek.getD [] = [] := by
    constructor
    · intro hnames
      rw [← map_filterMap_weekday? hdays, filterMap_weekday?_of_dayNames hnames,
        List.map_nil]
    · intro hnone
      rw [dayNames, hnone, List.filterMap_nil]
  have hsome : r.dayText?.isSome = true ↔ r.dayNames ≠ [] := by
    cases hnames : r.dayNames <;> simp [dayText?, hnames]
  rw [hsome, ne_eq, hnil]
  cases r.daysOfWeek <;> simp

/-- Days of the week are recovered from their names, in order. -/
theorem mapM_dayText? (r : Recurrence) : ∃ days, r.dayText?.mapM weekdays? = some days ∧
    days.getD [] = ((r.daysOfWeek.getD []).filterMap weekday?).map Nat.cast := by
  unfold dayText?
  split
  next hempty =>
    refine ⟨none, rfl, ?_⟩
    rw [filterMap_weekday?_of_dayNames (List.isEmpty_iff.1 hempty)]
    rfl
  next hne =>
    have hnames := mapM_dayNames (r.daysOfWeek.getD [])
    refine ⟨some (((r.daysOfWeek.getD []).filterMap weekday?).map Nat.cast), ?_, rfl⟩
    rw [Option.mapM_some, weekdays?, split_dayNames fun hnil => hne (List.isEmpty_iff.2 hnil),
      dayNames, hnames]
    rfl

/-- What is written down is recovered from the properties. -/
theorem ofValue?_properties (r : Recurrence) (z : Zone) :
    Descriptor.ofValue? (Text.joined ';' (r.properties z)) = some r.written := by
  obtain ⟨hfrequency, hinterval, hcount, -, hbyday, hday⟩ := property?_properties r z
  obtain ⟨days, hnames, hread⟩ := mapM_dayText? r
  have hnumber : ∀ i? : Option Int, (i?.map Text.integer).mapM Text.integer? = some i? := by
    intro i?
    cases i? with
    | none => rfl
    | some i => exact congrArg (Option.map some) (Text.integer?_integer i)
  unfold Descriptor.ofValue?
  simp only [hfrequency, hinterval, hcount, hbyday, hday, find?_ruleName, hnumber, hnames,
    Option.bind_some, Text.integer?_integer]
  rw [written, descriptor, ← hread]
  rfl

/-- All of a descriptor is written down that asks only for days that exist. -/
theorem written_eq_descriptor (hdays : ∀ d ∈ r.daysOfWeek.getD [], 0 ≤ d ∧ d ≤ 6) :
    r.written = r.descriptor := by
  rw [written, map_filterMap_weekday? hdays]
  rfl

/-- The value of the rule of a recurrence without problems that asks only for days that exist. -/
theorem isRuleValue_properties [TimeZones] (hproblems : r.problems = [])
    (hdays : ∀ d ∈ r.daysOfWeek.getD [], 0 ≤ d ∧ d ≤ 6) :
    r.IsRuleValue (Text.joined ';' (r.properties z)) := by
  have hkeys := mem_ruleKeys_iff r z
  simp only [propertyValues, List.forall_mem_cons, List.not_mem_nil, false_implies, implies_true,
    and_true, Option.isSome_map, Option.isSome_some, iff_true] at hkeys
  obtain ⟨hfrequency, hinterval, hcount, huntil, hbyday, hday⟩ := hkeys
  have hending : r.endDate.isSome ≠ r.count.isSome := problems_eq_nil_iff.1 hproblems .ending
  refine ⟨paired_properties r z, nodup_ruleKeys r z, ruleKeys_subset r z, hfrequency, hinterval,
    ?_, hcount, ?_, hday, by rw [ofValue?_properties, written_eq_descriptor hdays]⟩
  · rw [hcount, huntil, Bool.eq_not_of_ne hending.symm, Bool.not_eq_true', Bool.not_eq_true]
  · rw [hbyday, isSome_dayText?_iff hdays]

end Recurrence

/-! ## The lines of a rule -/

/-- An event can have a recurrence written down in a zone: the recurrence has no problems and asks
only for days of the week that exist, and the zone is called as the recurrence or the event says, by
a name that has no mark in it that divides lines. -/
structure Event.Lowers [TimeZones] (e : Event) (r : Recurrence) (z : Zone) : Prop where
  problems : r.problems = []
  days : ∀ d ∈ r.daysOfWeek.getD [], 0 ≤ d ∧ d ≤ 6
  zone : z.name = e.recurrenceZone r
  plain : ∀ mark ∈ ['\n', ':', ';'], mark ∉ z.name.toList

namespace Line

variable {z : Zone}

/-- What the lines of local times say about their values. -/
def zoneParameter (z : Zone) : List Char := "TZID=".toList ++ z.name.toList

theorem ofText?_lineHead (hz : ∀ mark ∈ [':', ';'], mark ∉ z.name.toList) {name : String}
    (hname : IsPlain name.toList) {value : List Char} (hvalue : ':' ∉ value) :
    ofText? (Recurrence.lineHead name z ++ ':' :: value) =
      some ⟨name.toList, [zoneParameter z], value⟩ := by
  have hcolon : ':' ∉ Recurrence.lineHead name z :=
    Recurrence.notMem_lineHead (hz _ (by decide)) (hname.notMem (by decide)) (by decide)
  have hparameter : ';' ∉ zoneParameter z := by
    rw [zoneParameter, List.mem_append, not_or]
    exact ⟨by decide, hz _ (by decide)⟩
  have hhead : Text.split ';' (Recurrence.lineHead name z) = [name.toList, zoneParameter z] := by
    have happ := Text.split_append (hname.notMem (show ';' ∈ ruleMarks by decide)) (zoneParameter z)
    rw [Text.split_eq_singleton hparameter] at happ
    rw [Recurrence.lineHead, List.append_assoc]
    exact happ
  rw [ofText?, Text.split_append hcolon, Text.split_eq_singleton hvalue]
  simp only [hhead]

theorem ofText?_ruleLine (r : Recurrence) (z : Zone) :
    ofText? (r.ruleLine z) = some ⟨"RRULE".toList, [], Text.joined ';' (r.properties z)⟩ := by
  have hhead : Text.split ';' "RRULE".toList = ["RRULE".toList] :=
    Text.split_eq_singleton (by decide)
  rw [ofText?, Recurrence.split_ruleLine]
  simp only [hhead]

/-- The text of a recurrence has a line for the start, one for the rule, and one for the exclusions
if there are any. -/
theorem all?_ruleText (hz : ∀ mark ∈ ['\n', ':', ';'], mark ∉ z.name.toList) (r : Recurrence)
    (start : Instant) : all? (r.ruleText z start) = some (
      [⟨"DTSTART".toList, [zoneParameter z], z.stamp start⟩,
        ⟨"RRULE".toList, [], Text.joined ';' (r.properties z)⟩] ++
      if r.excludeDates = [] then []
      else [⟨"EXDATE".toList, [zoneParameter z],
        Text.joined ',' (r.excludeDates.map z.stamp)⟩]) := by
  have hmarks : ∀ mark ∈ [':', ';'], mark ∉ z.name.toList := fun mark hmark =>
    hz mark (.tail _ hmark)
  have hstart : ofText? (Recurrence.startLine z start) =
      some ⟨"DTSTART".toList, [zoneParameter z], z.stamp start⟩ :=
    ofText?_lineHead hmarks (by decide) ((isPlain_stamp z start).notMem (by decide))
  have hexclusions : ofText? (r.exclusionLine z) = some ⟨"EXDATE".toList, [zoneParameter z],
      Text.joined ',' (r.excludeDates.map z.stamp)⟩ :=
    ofText?_lineHead hmarks (by decide) (notMem_stamps z r.excludeDates (by decide) (by decide))
  rw [all?, Recurrence.split_ruleText (hz _ (.head _)), Recurrence.ruleLines]
  cases hexclude : r.excludeDates with
  | nil =>
    simp [hstart, ofText?_ruleLine]
  | cons t ts =>
    simp [hstart, ofText?_ruleLine, hexclusions, hexclude]

/-- These are two lines if nothing is excluded. -/
theorem all?_ruleText_eq_pair_iff (hz : ∀ mark ∈ ['\n', ':', ';'], mark ∉ z.name.toList)
    {r : Recurrence} {start : Instant} {stamp value : List Char} :
    all? (r.ruleText z start) =
        some [⟨"DTSTART".toList, [zoneParameter z], stamp⟩, ⟨"RRULE".toList, [], value⟩] ↔
      r.excludeDates = [] ∧ z.stamp start = stamp ∧
        Text.joined ';' (r.properties z) = value := by
  rw [all?_ruleText hz]
  by_cases hexclude : r.excludeDates = []
  · simp [hexclude]
  · simp [hexclude]

end Line

namespace Event

variable [TimeZones] {e : Event} {r : Recurrence} {z : Zone}

/-- In a known zone it is enough that the recurrence can be written down. -/
theorem Lowers.of_ofName? (hproblems : r.problems = [])
    (hdays : ∀ d ∈ r.daysOfWeek.getD [], 0 ≤ d ∧ d ≤ 6)
    (hz : Zone.ofName? (e.recurrenceZone r) = some z) : e.Lowers r z where
  problems := hproblems
  days := hdays
  zone := Zone.name_of_ofName? hz
  plain _ hmark := Zone.notMem_name hz hmark

/-- Texts are different if the descriptors are. -/
theorem Lowers.descriptor_eq {e' : Event} {r' : Recurrence} {z' : Zone} (h : e.Lowers r z)
    (h' : e'.Lowers r' z') (htext : r'.ruleText z' e'.start = r.ruleText z e.start) :
    r'.descriptor = r.descriptor := by
  have hlines := (Line.all?_ruleText h'.plain r' e'.start).symm.trans
    ((congrArg Line.all? htext).trans (Line.all?_ruleText h.plain r e.start))
  have hvalue : Text.joined ';' (r'.properties z') = Text.joined ';' (r.properties z) := by
    simp only [List.cons_append, List.nil_append, Option.some.injEq, List.cons.injEq,
      Line.mk.injEq, true_and] at hlines
    exact hlines.2.1
  rw [← Recurrence.written_eq_descriptor h.days, ← Recurrence.written_eq_descriptor h'.days]
  have hread := Recurrence.ofValue?_properties r' z'
  rw [hvalue, Recurrence.ofValue?_properties] at hread
  exact (Option.some.inj hread).symm

/-- The expansion of an event in a known zone hands the engine the text of its recurrence.  In
whatever zone that is written, it has one line for the start, one for the rule, and exactly if
instants are excluded one more, with a stamp for each of them in order.  The value of the rule has
every key that it should have, once, and from it alone the descriptor is recovered.  So events whose
descriptors differ have different texts. -/
theorem descriptor_recovered [RuleEngine] (h : e.Lowers r z) :
    (Zone.ofName? (e.recurrenceZone r) = some z →
      e.instances r = (RuleEngine.expand (r.ruleText z e.start)).mapError .unusableRule) ∧
    (∃ value exclusions, Line.all? (r.ruleText z e.start) = some (
        [⟨"DTSTART".toList, [Line.zoneParameter z], z.stamp e.start⟩,
          ⟨"RRULE".toList, [], value⟩] ++ exclusions) ∧
      r.IsRuleValue value ∧
      (r.excludeDates = [] → exclusions = []) ∧
      (r.excludeDates ≠ [] → ∃ stamps,
        exclusions = [⟨"EXDATE".toList, [Line.zoneParameter z], stamps⟩] ∧
        Text.split ',' stamps = r.excludeDates.map z.stamp)) ∧
    ∀ {e' : Event} {r' : Recurrence} {z' : Zone}, e'.Lowers r' z' →
      r'.descriptor ≠ r.descriptor → r'.ruleText z' e'.start ≠ r.ruleText z e.start := by
  refine ⟨instances_eq_expand h.problems, ⟨_, _, Line.all?_ruleText h.plain r e.start,
    Recurrence.isRuleValue_properties h.problems h.days, fun hnil => if_pos hnil, fun hne => ?_⟩,
    fun h' hne htext => hne (h.descriptor_eq h' htext)⟩
  exact ⟨_, if_neg hne, split_stamps z hne⟩

end Event

/-! ## A choir -/

/-- On Thursdays and Mondays, four times, only on the last day of a month; on New Year's Eve and on
a Monday there is none. -/
def choirDays : Recurrence where
  frequency := .weekly
  count := some 4
  daysOfWeek := some [4, 1]
  dayOfMonth := some (-1)
  excludeDates := [⟨20818, 64800, 0, by decide⟩, ⟨20542, 61200, 0, by decide⟩]

def choir : Event where
  id := "1"
  type := "choir"
  start := ⟨20461, 64800, 0, by decide⟩
  finish := ⟨20461, 72000, 0, by decide⟩
  timeZone := some "Europe/Oslo"
  recurring := some choirDays

def oslo : YearlyZone := ⟨"Europe/Oslo", 3600, some (YearlyZone.european 3600)⟩

theorem Event.descriptor_recovered_choir :
    choir.Lowers choirDays oslo.zone ∧
    Zone.ofName? (choir.recurrenceZone choirDays) = some oslo.zone ∧
    choir.instances choirDays =
      (RuleEngine.expand (choirDays.ruleText oslo.zone choir.start)).mapError .unusableRule ∧
    (∃ value stamps, Line.all? (choirDays.ruleText oslo.zone choir.start) = some
        [⟨"DTSTART".toList, ["TZID=Europe/Oslo".toList], "20260108T190000".toList⟩,
          ⟨"RRULE".toList, [], value⟩,
          ⟨"EXDATE".toList, ["TZID=Europe/Oslo".toList], stamps⟩] ∧
      choirDays.IsRuleValue value ∧
      Text.split ',' stamps = ["20261231T190000".toList, "20260330T190000".toList]) ∧
    { choirDays with daysOfWeek := some [1, 4] }.ruleText oslo.zone choir.start ≠
      choirDays.ruleText oslo.zone choir.start := by
  have hzone : Zone.ofName? (choir.recurrenceZone choirDays) = some oslo.zone := rfl
  have hchoir : choir.Lowers choirDays oslo.zone := .of_ofName? (by decide) (by decide) hzone
  have hturned : choir.Lowers { choirDays with daysOfWeek := some [1, 4] } oslo.zone :=
    .of_ofName? (by decide) (by decide) hzone
  have hparameter : Line.zoneParameter oslo.zone = "TZID=Europe/Oslo".toList := by decide
  have hstart : oslo.zone.stamp choir.start = "20260108T190000".toList := by decide +kernel
  have hexcluded : choirDays.excludeDates.map oslo.zone.stamp =
      ["20261231T190000".toList, "20260330T190000".toList] := by decide +kernel
  obtain ⟨hread, ⟨value, exclusions, hlines, hvalue, -, hstamps⟩, hdiffer⟩ :=
    Event.descriptor_recovered hchoir
  obtain ⟨stamps, rfl, hsplit⟩ := hstamps (by decide)
  rw [hstart, hparameter] at hlines
  rw [hexcluded] at hsplit
  exact ⟨hchoir, hzone, hread hzone, ⟨value, stamps, hlines, hvalue, hsplit⟩,
    hdiffer hturned (by decide)⟩

end CalendarRules
