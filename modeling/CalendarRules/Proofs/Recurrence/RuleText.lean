import CalendarRules.Proofs.Outcome
import CalendarRules.Proofs.Recurrence.Stamp
import CalendarRules.Recurrence.RuleText

/-!
# The text of a rule comes apart

A recurrence is written down as the lines of a rule.  No name, number or stamp in them has a mark in
it that divides lines, properties or values, so splitting takes the text apart exactly where it was
joined: line by line (`Recurrence.split_ruleText`), and within the line of the rule each value under
the name it was written with (`Recurrence.property?_properties`).
-/

namespace CalendarRules

/-! ## Texts without marks -/

/-- The characters that divide the text of a rule. -/
def ruleMarks : List Char := ['\n', ':', ';', '=', ',']

/-- None of the characters that divide the text of a rule is in it. -/
def IsPlain (cs : List Char) : Prop := ∀ c ∈ cs, c ∉ ruleMarks

instance (cs : List Char) : Decidable (IsPlain cs) := List.decidableBAll _ cs

namespace IsPlain

variable {cs ds : List Char}

theorem notMem (h : IsPlain cs) {mark : Char} (hmark : mark ∈ ruleMarks) : mark ∉ cs :=
  fun hmem => h mark hmem hmark

theorem append (hcs : IsPlain cs) (hds : IsPlain ds) : IsPlain (cs ++ ds) := fun c hc =>
  (List.mem_append.1 hc).elim (hcs c) (hds c)

theorem cons {c : Char} (hc : c ∉ ruleMarks) (hcs : IsPlain cs) : IsPlain (c :: cs) :=
  List.forall_mem_cons.2 ⟨hc, hcs⟩

end IsPlain

theorem notMem_ruleMarks_of_isDigit {c : Char} (h : c.isDigit = true) : c ∉ ruleMarks := by
  have hmarks : ruleMarks.all (fun mark => !mark.isDigit) = true := rfl
  intro hmem
  have hmark := List.all_eq_true.1 hmarks c hmem
  rw [h] at hmark
  cases hmark

theorem isPlain_integer (i : Int) : IsPlain (Text.integer i) := by
  have hdecimal : IsPlain (Text.decimal i.natAbs) := fun c hc =>
    notMem_ruleMarks_of_isDigit (Text.isDigit_of_mem_decimal _ c hc)
  unfold Text.integer
  split
  · exact hdecimal.cons (by decide)
  · exact hdecimal

theorem isPlain_stamp (z : Zone) (t : Instant) : IsPlain (z.stamp t) := by
  intro c hc
  rcases Zone.mem_stamp z t hc with h | rfl | rfl | rfl
  · exact notMem_ruleMarks_of_isDigit h
  all_goals decide

theorem isPlain_ruleName (f : Frequency) : IsPlain f.ruleName := by
  cases f <;> decide

/-- A mark is in a joined text only if it joins it, or is in a piece of it. -/
theorem Text.notMem_joined {mark separator : Char} (hmark : mark ≠ separator)
    {pieces : List (List Char)} (h : ∀ piece ∈ pieces, mark ∉ piece) :
    mark ∉ joined separator pieces := by
  induction pieces with
  | nil => exact List.not_mem_nil
  | cons piece rest ih =>
    rw [List.forall_mem_cons] at h
    cases rest with
    | nil => exact h.1
    | cons next rest =>
      rw [joined, List.mem_append, List.mem_cons]
      rintro (hpiece | rfl | hrest)
      · exact h.1 hpiece
      · exact hmark rfl
      · exact ih h.2 hrest

theorem isPlain_of_mem_stamps (z : Zone) (ts : List Instant) :
    ∀ stamp ∈ ts.map z.stamp, IsPlain stamp := by
  intro stamp hstamp
  obtain ⟨t, -, rfl⟩ := List.mem_map.1 hstamp
  exact isPlain_stamp z t

/-- Stamps come apart at commas. -/
theorem split_stamps (z : Zone) {ts : List Instant} (hne : ts ≠ []) :
    Text.split ',' (Text.joined ',' (ts.map z.stamp)) = ts.map z.stamp :=
  Text.split_joined (fun hnil => hne (List.map_eq_nil_iff.1 hnil)) fun stamp hstamp =>
    (isPlain_of_mem_stamps z ts stamp hstamp).notMem (by decide)

/-- Stamps have commas only between them. -/
theorem notMem_stamps (z : Zone) (ts : List Instant) {mark : Char} (hmark : mark ∈ ruleMarks)
    (hcomma : mark ≠ ',') : mark ∉ Text.joined ',' (ts.map z.stamp) :=
  Text.notMem_joined hcomma fun stamp hstamp =>
    (isPlain_of_mem_stamps z ts stamp hstamp).notMem hmark

/-! ## The days of the week -/

/-- The number of a day of the week, if it exists. -/
def weekday? (d : Int) : Option Nat := if 0 ≤ d ∧ d ≤ 6 then some d.toNat else none

/-- The place of a name of a day among all of them. -/
theorem findIdx?_weekdayNames : ∀ k < 7, ∃ name, weekdayNames[k]? = some name ∧
    weekdayNames.findIdx? (fun known => known == name) = some k := by
  have hplaces : ∀ k : Fin 7, weekdayNames.findIdx? (fun known => known == weekdayNames[k]) =
      some k.val := by decide
  intro k hk
  exact ⟨weekdayNames[k], List.getElem?_eq_getElem hk, hplaces ⟨k, hk⟩⟩

namespace Recurrence

variable (r : Recurrence) (z : Zone) (start : Instant)

theorem isPlain_untilText (t : Instant) : IsPlain (untilText z t) := by
  refine (isPlain_stamp z t).append ?_
  split <;> decide

theorem isPlain_of_mem_dayNames : ∀ name ∈ r.dayNames, IsPlain name := by
  have hnames : ∀ name ∈ weekdayNames, IsPlain name := by decide
  intro name hmem
  obtain ⟨d, -, hd⟩ := List.mem_filterMap.1 hmem
  split at hd
  · cases hd
  · exact hnames name (List.mem_of_getElem? hd)

/-! ## The properties of a rule -/

/-- The names of the days of the week in one text, if there are any. -/
def dayText? : Option (List Char) :=
  if r.dayNames.isEmpty then none else some (Text.joined ',' r.dayNames)

/-- The names of the properties of a rule with their values, or without if they are left out. -/
def propertyValues : List (String × Option (List Char)) :=
  [("FREQ", some r.frequency.ruleName), ("INTERVAL", some (Text.integer r.interval)),
    ("COUNT", r.count.map Text.integer), ("UNTIL", r.endDate.map (untilText z)),
    ("BYDAY", r.dayText?), ("BYMONTHDAY", r.dayOfMonth.map Text.integer)]

theorem properties_eq : r.properties z =
    (r.propertyValues z).filterMap fun p => p.2.map (property p.1) := by
  unfold properties propertyValues dayText?
  cases r.count <;> cases r.endDate <;> cases r.dayOfMonth <;> split <;> rfl

/-- Values have commas only between the names of days. -/
theorem notMem_value {name : String} {value : List Char}
    (h : (name, some value) ∈ r.propertyValues z) {mark : Char} (hmark : mark ∈ ruleMarks)
    (hcomma : mark ≠ ',') : mark ∉ value := by
  simp only [propertyValues, List.mem_cons, List.not_mem_nil, or_false, Prod.mk.injEq] at h
  rcases h with ⟨-, h⟩ | ⟨-, h⟩ | ⟨-, h⟩ | ⟨-, h⟩ | ⟨-, h⟩ | ⟨-, h⟩
  · cases h
    exact (isPlain_ruleName _).notMem hmark
  · cases h
    exact (isPlain_integer _).notMem hmark
  · obtain ⟨n, -, rfl⟩ := Option.map_eq_some_iff.1 h.symm
    exact (isPlain_integer n).notMem hmark
  · obtain ⟨t, -, rfl⟩ := Option.map_eq_some_iff.1 h.symm
    exact (isPlain_untilText z t).notMem hmark
  · unfold dayText? at h
    split at h
    · cases h
    · cases h
      exact Text.notMem_joined hcomma fun name hname =>
        (isPlain_of_mem_dayNames r name hname).notMem hmark
  · obtain ⟨d, -, rfl⟩ := Option.map_eq_some_iff.1 h.symm
    exact (isPlain_integer d).notMem hmark

theorem isPlain_name : ∀ p ∈ r.propertyValues z, IsPlain p.1.toList := by
  simp only [propertyValues, List.forall_mem_cons]
  decide

theorem notMem_property {mark : Char} (hmark : mark ∈ [':', ';', '\n']) :
    ∀ p ∈ r.properties z, mark ∉ p := by
  have hrule : mark ∈ ruleMarks ∧ mark ≠ ',' ∧ mark ≠ '=' := by
    simp only [List.mem_cons, List.not_mem_nil, or_false] at hmark
    rcases hmark with rfl | rfl | rfl <;> decide
  intro p hp
  rw [properties_eq, List.mem_filterMap] at hp
  obtain ⟨⟨name, value?⟩, hmem, hp⟩ := hp
  obtain ⟨value, rfl, rfl⟩ := Option.map_eq_some_iff.1 hp
  rw [property, List.mem_append, List.mem_cons]
  rintro (hname | hsign | hvalue)
  · exact (isPlain_name r z _ hmem).notMem hrule.1 hname
  · exact hrule.2.2 hsign
  · exact notMem_value r z hmem hrule.1 hrule.2.1 hvalue

/-- No property of a rule is written twice. -/
theorem nodup_names : ((r.propertyValues z).map Prod.fst).Nodup := by
  simp only [propertyValues, List.map_cons, List.map_nil]
  decide

/-- Names and values, each pair as two pieces. -/
def pieces (values : List (String × Option (List Char))) : List (List (List Char)) :=
  values.filterMap fun p => p.2.map fun v => [p.1.toList, v]

theorem property?_cons_self (name : String) (value : List Char) (rest : List (List (List Char))) :
    property? name ([name.toList, value] :: rest) = some value := by
  rw [property?, List.find?_cons_of_pos]
  · rfl
  · exact beq_self_eq_true _

theorem property?_cons_of_ne {name other : String} (h : other ≠ name) (value : List Char)
    (rest : List (List (List Char))) :
    property? name ([other.toList, value] :: rest) = property? name rest := by
  rw [property?, List.find?_cons_of_neg]
  · rfl
  · rw [List.head?_cons, beq_iff_eq, Option.some_inj, String.toList_inj]
    exact h

theorem property?_pieces_of_notMem {values : List (String × Option (List Char))} {name : String}
    (h : name ∉ values.map Prod.fst) : property? name (pieces values) = none := by
  induction values with
  | nil => rfl
  | cons p rest ih =>
    obtain ⟨other, value?⟩ := p
    rw [List.map_cons, List.mem_cons, not_or] at h
    cases value? with
    | none => exact ih h.2
    | some value => exact (property?_cons_of_ne (Ne.symm h.1) value _).trans (ih h.2)

/-- Of properties that share no name, each is found under its name. -/
theorem property?_pieces {values : List (String × Option (List Char))}
    (hnodup : (values.map Prod.fst).Nodup) {name : String} {value? : Option (List Char)}
    (h : (name, value?) ∈ values) : property? name (pieces values) = value? := by
  induction values with
  | nil => cases h
  | cons p rest ih =>
    obtain ⟨other, other?⟩ := p
    rw [List.map_cons, List.nodup_cons] at hnodup
    rcases List.mem_cons.1 h with heq | hrest
    · cases heq
      cases value? with
      | none =>
        have hnone : property? name (pieces rest) = none :=
          property?_pieces_of_notMem hnodup.1
        exact hnone
      | some value => exact property?_cons_self name value _
    · have hne : other ≠ name := by
        rintro rfl
        exact hnodup.1 (List.mem_map.2 ⟨_, hrest, rfl⟩)
      cases other? with
      | none => exact ih hnodup.2 hrest
      | some other? => exact (property?_cons_of_ne hne other? _).trans (ih hnodup.2 hrest)

/-- The properties of a rule come apart where they were joined. -/
theorem split_properties :
    (Text.split ';' (Text.joined ';' (r.properties z))).map (Text.split '=') =
      pieces (r.propertyValues z) := by
  have hne : r.properties z ≠ [] := by
    unfold properties
    simp
  rw [Text.split_joined hne (notMem_property r z (by decide)), properties_eq,
    List.map_filterMap]
  refine List.filterMap_congr fun p hp => ?_
  obtain ⟨name, value?⟩ := p
  cases value? with
  | none => rfl
  | some value =>
    have hname := (isPlain_name r z _ hp).notMem (show '=' ∈ ruleMarks by decide)
    have hvalue := notMem_value r z hp (show '=' ∈ ruleMarks by decide) (by decide)
    exact congrArg some
      ((Text.split_append hname value).trans (by rw [Text.split_eq_singleton hvalue]))

/-- In the value of a rule each property is found under its name. -/
theorem property?_properties :
    let properties := (Text.split ';' (Text.joined ';' (r.properties z))).map (Text.split '=')
    property? "FREQ" properties = some r.frequency.ruleName ∧
    property? "INTERVAL" properties = some (Text.integer r.interval) ∧
    property? "COUNT" properties = r.count.map Text.integer ∧
    property? "UNTIL" properties = r.endDate.map (untilText z) ∧
    property? "BYDAY" properties = r.dayText? ∧
    property? "BYMONTHDAY" properties = r.dayOfMonth.map Text.integer := by
  have hfound : ∀ p ∈ r.propertyValues z,
      property? p.1 (pieces (r.propertyValues z)) = p.2 := fun p hp =>
    property?_pieces (nodup_names r z) hp
  simp only [split_properties]
  simpa only [propertyValues, List.forall_mem_cons, List.not_mem_nil, false_implies, implies_true,
    and_true] using hfound

/-- A frequency is found by its name. -/
theorem find?_ruleName (f : Frequency) :
    Frequency.all.find? (fun g => some g.ruleName == some f.ruleName) = some f := by
  cases f <;> decide

/-- The line of a rule has one colon. -/
theorem split_ruleLine :
    Text.split ':' (r.ruleLine z) = ["RRULE".toList, Text.joined ';' (r.properties z)] := by
  have hcolon := Text.notMem_joined (show ':' ≠ ';' by decide) (notMem_property r z (by decide))
  have happ := Text.split_append (show ':' ∉ "RRULE".toList by decide)
    (Text.joined ';' (r.properties z))
  rw [Text.split_eq_singleton hcolon] at happ
  exact happ

/-! ## The lines of a rule -/

variable {r} {z}

theorem notMem_lineHead {mark : Char} (hzone : mark ∉ z.name.toList) {name : String}
    (hname : mark ∉ name.toList) (hkey : mark ∉ ";TZID=".toList) :
    mark ∉ lineHead name z := by
  rw [lineHead, List.mem_append, List.mem_append, not_or, not_or]
  exact ⟨⟨hname, hkey⟩, hzone⟩

/-- The lines of the text of a recurrence. -/
theorem split_ruleText (hz : '\n' ∉ z.name.toList) (r : Recurrence) (start : Instant) :
    Text.split '\n' (r.ruleText z start) = r.ruleLines z start := by
  have hline : ∀ name value, IsPlain name.toList → '\n' ∉ value →
      '\n' ∉ lineHead name z ++ ':' :: value := by
    intro name value hname hvalue
    rw [List.mem_append, List.mem_cons, not_or, not_or]
    exact ⟨notMem_lineHead hz (hname.notMem (by decide)) (by decide), by decide, hvalue⟩
  refine Text.split_joined (List.cons_ne_nil _ _) ?_
  simp only [ruleLines, List.mem_append, List.mem_cons, List.not_mem_nil, or_false]
  rintro line ((rfl | rfl) | hexclusions)
  · exact hline "DTSTART" _ (by decide) ((isPlain_stamp z start).notMem (by decide))
  · show '\n' ∉ "RRULE:".toList ++ Text.joined ';' (r.properties z)
    rw [List.mem_append, not_or]
    exact ⟨by decide,
      Text.notMem_joined (by decide) (notMem_property r z (by decide))⟩
  · split at hexclusions
    · cases hexclusions
    · rw [List.mem_singleton.1 hexclusions]
      exact hline "EXDATE" _ (by decide) (notMem_stamps z r.excludeDates (by decide) (by decide))

/-! ## The names of days -/

theorem mapM_dayNames (days : List Int) :
    ((days.filterMap fun d => if d < 0 then none else weekdayNames[d.toNat]?).mapM fun name =>
      weekdayNames.findIdx? fun known => known == name) = some (days.filterMap weekday?) := by
  induction days with
  | nil => rfl
  | cons d days ih =>
    by_cases hd : 0 ≤ d ∧ d ≤ 6
    · obtain ⟨name, hname, hplace⟩ := findIdx?_weekdayNames d.toNat (by omega)
      have hsome : (if d < 0 then none else weekdayNames[d.toNat]?) = some name := by
        rw [if_neg (by omega), hname]
      have hday : weekday? d = some d.toNat := if_pos hd
      simp only [List.filterMap_cons, hsome, hday, List.mapM_cons, hplace, ih]
      rfl
    · have hnone : (if d < 0 then none else weekdayNames[d.toNat]?) = none := by
        split
        · rfl
        · exact List.getElem?_eq_none (by show 7 ≤ _; omega)
      have hday : weekday? d = none := if_neg hd
      simp only [List.filterMap_cons, hnone, hday, ih]

theorem split_dayNames (hne : r.dayNames ≠ []) :
    Text.split ',' (Text.joined ',' r.dayNames) = r.dayNames :=
  Text.split_joined hne fun name hname =>
    (isPlain_of_mem_dayNames r name hname).notMem (by decide)

/-- Only days that do not exist have no names. -/
theorem filterMap_weekday?_of_dayNames (hnil : r.dayNames = []) :
    (r.daysOfWeek.getD []).filterMap weekday? = [] := by
  have hnames := mapM_dayNames (r.daysOfWeek.getD [])
  unfold dayNames at hnil
  rw [hnil] at hnames
  exact (Option.some.inj hnames).symm

end Recurrence
end CalendarRules
