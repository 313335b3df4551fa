import CalendarRules.Declaration.Rule
import CalendarRules.Proofs.Declaration.Expression

/-!
# Validation rules are read back

A rule is a variant record, and a rule of an unknown kind is written under a name that no kind has.
Nested rules are read entry by entry; entries that cannot be read are gone after the first reading,
and what is written for the others is read back entry by entry.
-/

namespace CalendarRules

open Source

namespace Rule

section Kinds

variable {s : Source} {rule : Rule}

theorem restored_between (hs : s.Plain) (h : readBetween s = .ok rule) :
    ∃ es, rule.json = variantRecord "Between" es ∧ "type" ∉ Entries.keys es ∧
      Restored readBetween (.object es) rule (s.depth + 1) := by
  obtain ⟨-, -, h⟩ := Outcome.bind_eq_ok h
  obtain ⟨field, hfield, h⟩ := Outcome.bind_eq_ok h
  obtain ⟨min, hmin, h⟩ := Outcome.bind_eq_ok h
  obtain ⟨max, hmax, h⟩ := Outcome.bind_eq_ok h
  cases h
  have hfield := (FieldPath.restores _).slot hs .aside hfield .aside
  have hmin := (Literal.restores _).slot hs .aside hmin .aside
  have hmax := (Literal.restores _).slot hs .aside hmax .aside
  refine ⟨[("field", field.json), ("min", min.json), ("max", max.json)], by rw [json],
    show "type" ∉ ["field", "min", "max"] by decide, ?_⟩
  refine restored_object (Nat.zero_lt_of_lt hfield.depth_lt)
    (show ["field", "min", "max"].Nodup by decide) ?_ fun hn => ?_
  · simp [hfield.fits, hmin.fits, hmax.fits]
  · have hfield := hfield.slot_get hn (.head _) 0
    have hmin := hmin.slot_get hn (.tail _ (.head _)) 1
    have hmax := hmax.slot_get hn (.tail _ (.tail _ (.head _))) 2
    have hcheck := checkRecord_object .aside (kind "Between") hn <|
      (settled_slot hfield).cons <| (settled_slot hmin).cons <| (settled_slot hmax).cons <|
      List.forall_mem_nil _
    unfold readBetween
    simp only [hfield, hmin, hmax, hcheck, Outcome.ok_bind]
    rfl

theorem restored_oneOf (hs : s.Plain) (h : readOneOf s = .ok rule) :
    ∃ es, rule.json = variantRecord "In" es ∧ "type" ∉ Entries.keys es ∧
      Restored readOneOf (.object es) rule (s.depth + 1) := by
  obtain ⟨-, -, h⟩ := Outcome.bind_eq_ok h
  obtain ⟨field, hfield, h⟩ := Outcome.bind_eq_ok h
  obtain ⟨values, hvalues, h⟩ := Outcome.bind_eq_ok h
  cases h
  have hfield := (FieldPath.restores _).slot hs .aside hfield .aside
  have hvalues := (Literal.restores _).list.slot hs .aside hvalues .aside
  refine ⟨[("field", field.json), ("values", .array (values.map Literal.json))], by rw [json],
    show "type" ∉ ["field", "values"] by decide, ?_⟩
  refine restored_object (Nat.zero_lt_of_lt hfield.depth_lt)
    (show ["field", "values"].Nodup by decide) ?_ fun hn => ?_
  · simp [hfield.fits, hvalues.fits]
  · have hfield := hfield.slot_get hn (.head _) 0
    have hvalues := hvalues.slot_get hn (.tail _ (.head _)) 1
    have hcheck := checkRecord_object .aside (kind "In") hn <|
      (settled_slot hfield).cons <| (settled_slot hvalues).cons <| List.forall_mem_nil _
    unfold readOneOf
    simp only [hfield, hvalues, hcheck, Outcome.ok_bind]
    rfl

theorem restored_modulo (hs : s.Plain) (h : readModulo s = .ok rule) :
    ∃ es, rule.json = variantRecord "ModComparison" es ∧ "type" ∉ Entries.keys es ∧
      Restored readModulo (.object es) rule (s.depth + 1) := by
  obtain ⟨-, -, h⟩ := Outcome.bind_eq_ok h
  obtain ⟨field, hfield, h⟩ := Outcome.bind_eq_ok h
  obtain ⟨modulus, hmodulus, h⟩ := Outcome.bind_eq_ok h
  obtain ⟨operator, hoperator, h⟩ := Outcome.bind_eq_ok h
  obtain ⟨right, hright, h⟩ := Outcome.bind_eq_ok h
  cases h
  have hfield := (FieldPath.restores _).slot hs .aside hfield .aside
  have hmodulus := (Literal.restores _).slot hs .aside hmodulus .aside
  have hoperator := (Operator.restores _).slot hs .aside hoperator .aside
  have hright := (Literal.restores _).slot hs .aside hright .aside
  refine ⟨[("left", field.json), ("modValue", modulus.json), ("operator", operator.json),
    ("right", right.json)], by rw [json],
    show "type" ∉ ["left", "modValue", "operator", "right"] by decide, ?_⟩
  refine restored_object (Nat.zero_lt_of_lt hfield.depth_lt)
    (show ["left", "modValue", "operator", "right"].Nodup by decide) ?_ fun hn => ?_
  · simp [hfield.fits, hmodulus.fits, hoperator.fits, hright.fits]
  · have hfield := hfield.slot_get hn (.head _) 0
    have hmodulus := hmodulus.slot_get hn (.tail _ (.head _)) 1
    have hoperator := hoperator.slot_get hn (.tail _ (.tail _ (.head _))) 2
    have hright := hright.slot_get hn (.tail _ (.tail _ (.tail _ (.head _)))) 3
    have hcheck := checkRecord_object .aside (kind "ModComparison") hn <|
      (settled_slot hfield).cons <| (settled_slot hmodulus).cons <|
      (settled_slot hoperator).cons <| (settled_slot hright).cons <| List.forall_mem_nil _
    unfold readModulo
    simp only [hfield, hmodulus, hoperator, hright, hcheck, Outcome.ok_bind]
    rfl

theorem jsonOfRules_eq_map (rules : List Rule) : jsonOfRules rules = rules.map json := by
  induction rules with
  | nil => rw [jsonOfRules, List.map_nil]
  | cons rule rules ih => rw [jsonOfRules, ih, List.map_cons]

theorem restored_onlyIf (hs : s.Plain) (hr : RestoresBelow s.depth (fun _ => read .value) json)
    (h : readOnlyIf s (fun j _ => (read .value (ofJson j)).toOption) = .ok rule) :
    ∃ es, rule.json = variantRecord "When" es ∧ "type" ∉ Entries.keys es ∧
      Restored (fun s => readOnlyIf s fun j _ => (read .value (ofJson j)).toOption) (.object es)
        rule (s.depth + 1) := by
  obtain ⟨-, -, h⟩ := Outcome.bind_eq_ok h
  obtain ⟨condition, hcondition, h⟩ := Outcome.bind_eq_ok h
  obtain ⟨rules, hrules, h⟩ := Outcome.bind_eq_ok h
  cases h
  have hcondition := (Expression.restores _).slot hs .aside hcondition .aside
  have hrules : Restored (readEach (read .value)) (.array (rules.map json)) rules s.depth :=
    hr.each.slot hs .value hrules .value
  refine ⟨[("condition", condition.json), ("rules", .array (rules.map json))],
    by rw [json, jsonOfRules_eq_map], show "type" ∉ ["condition", "rules"] by decide, ?_⟩
  refine restored_object (Nat.zero_lt_of_lt hcondition.depth_lt)
    (show ["condition", "rules"].Nodup by decide) ?_ fun hn => ?_
  · simp [hcondition.fits, hrules.fits]
  · have hcondition := hcondition.slot_get hn (.head _) 0
    have hrules := hrules.slot_get hn (.tail _ (.head _)) 1
    have hcheck := checkRecord_object .aside (kind "When") hn <|
      (settled_slot hcondition).cons <| (settled_slot hrules).cons <| List.forall_mem_nil _
    unfold readOnlyIf
    unfold readEach at hrules hcheck
    simp only [hcondition, hrules, hcheck, Outcome.ok_bind]
    rfl

/-- A kind without fields is read from an empty body. -/
theorem restored_noFields {n : Nat} (hn : 0 < n) (rule : Rule) :
    Restored (fun s => do checkNoFields s; return rule) (.object []) rule (n + 1) := by
  refine restored_object hn List.nodup_nil (List.forall_mem_nil _) fun _ => ?_
  rw [ofJson]
  rfl

end Kinds

/-! ## A rule of any kind -/

/-- Reads a rule of a kind from its body. -/
def readKind (variant : Option String) (s : Source) : Except Problem Rule :=
  match variant with
  | some "Between" => readBetween s
  | some "In" => readOneOf s
  | some "ModComparison" => readModulo s
  | some "Comparison" => do
    let (operator, left, right) ← readComparison s fun x _ => Operand.read x
    return .comparison operator left right
  | some "Conflict" => do
    checkNoFields s
    return .conflict
  | some "NoConflict" => do
    checkNoFields s
    return .noConflict
  | some "When" => readOnlyIf s fun j _ => (read .value (ofJson j)).toOption
  | some "BinaryExpr" => do
    let (connective, left, right) ← readLogical s fun x _ => Expression.read .aside x
    return .logical connective left right
  | some "UnaryExpr" => return .negation (← readNegation s fun x _ => Expression.read .aside x)
  | _ => do
    checkNoFields s
    return .unknown

theorem read_eq_readKind (origin : Origin) (s : Source) : read origin s =
    s.readTagged origin "ValidationRule" variants >>= fun t => readKind t.variant t.body := by
  rw [read]
  rfl

/-- What is written for a rule is a record of its kind, whose body is read back. -/
theorem restored_readKind {s : Source} {rule : Rule} {variant : Option String} {n : Nat}
    (hs : s.Plain) (hpos : 0 < n) (hle : s.depth ≤ n)
    (hr : RestoresBelow s.depth (fun _ => read .value) json) (h : readKind variant s = .ok rule) :
    ∃ name es written, rule.json = variantRecord name es ∧ "type" ∉ Entries.keys es ∧
      (∀ origin, readVariant origin variants (.string name) = .ok written) ∧
      Restored (readKind written) (.object es) rule (n + 1) := by
  have hbound : s.depth + 1 ≤ n + 1 := Nat.succ_le_succ hle
  have hname : ∀ {name : String}, name ∈ variants.names →
      ∀ origin, readVariant origin variants (.string name) = .ok (some name) :=
    fun hmem => readVariant_of_mem hmem
  unfold readKind at h
  split at h
  next =>
    obtain ⟨es, hjson, ht, hes⟩ := restored_between hs h
    exact ⟨"Between", es, some "Between", hjson, ht, hname (by decide), hes.mono hbound⟩
  next =>
    obtain ⟨es, hjson, ht, hes⟩ := restored_oneOf hs h
    exact ⟨"In", es, some "In", hjson, ht, hname (by decide), hes.mono hbound⟩
  next =>
    obtain ⟨es, hjson, ht, hes⟩ := restored_modulo hs h
    exact ⟨"ModComparison", es, some "ModComparison", hjson, ht, hname (by decide), hes.mono hbound⟩
  next =>
    obtain ⟨⟨operator, left, right⟩, hcomparison, hrule⟩ := Outcome.bind_eq_ok h
    cases hrule
    have hc := restored_comparison hs (Operand.restores _) hcomparison
    exact ⟨"Comparison", comparisonEntries operator left.json right, some "Comparison",
      by rw [json], show "type" ∉ ["operator", "left", "right"] by decide, hname (by decide),
      (hc.mono hbound).map fun c => Rule.comparison c.1 c.2.1 c.2.2⟩
  next =>
    obtain ⟨-, -, hrule⟩ := Outcome.bind_eq_ok h
    cases hrule
    exact ⟨"Conflict", [], some "Conflict", by rw [json], List.not_mem_nil, hname (by decide),
      restored_noFields hpos _⟩
  next =>
    obtain ⟨-, -, hrule⟩ := Outcome.bind_eq_ok h
    cases hrule
    exact ⟨"NoConflict", [], some "NoConflict", by rw [json], List.not_mem_nil, hname (by decide),
      restored_noFields hpos _⟩
  next =>
    obtain ⟨es, hjson, ht, hes⟩ := restored_onlyIf hs hr h
    exact ⟨"When", es, some "When", hjson, ht, hname (by decide), hes.mono hbound⟩
  next =>
    obtain ⟨⟨connective, left, right⟩, hlogical, hrule⟩ := Outcome.bind_eq_ok h
    cases hrule
    have hl := restored_logical hs (Expression.restores_aside _) hlogical
    exact ⟨"BinaryExpr", logicalEntries connective left.json right.json, some "BinaryExpr",
      by rw [json], show "type" ∉ ["operator", "left", "right"] by decide, hname (by decide),
      (hl.mono hbound).map fun l => Rule.logical l.1 l.2.1 l.2.2⟩
  next =>
    obtain ⟨argument, hnegation, hrule⟩ := Outcome.bind_eq_ok h
    cases hrule
    have hn := restored_negation hs (Expression.restores_aside _) hnegation
    exact ⟨"UnaryExpr", negationEntries argument.json, some "UnaryExpr", by rw [json],
      show "type" ∉ ["operator", "argument"] by decide, hname (by decide),
      (hn.mono hbound).map Rule.negation⟩
  next =>
    obtain ⟨-, -, hrule⟩ := Outcome.bind_eq_ok h
    cases hrule
    exact ⟨"Unknown", [], none, by rw [json], List.not_mem_nil, fun _ => rfl,
      restored_noFields hpos _⟩

/-- The induction is on the depth: nested rules are nested less deep than the rule that guards
them. -/
theorem restores (n : Nat) : RestoresBelow n read json := by
  induction n with
  | zero => exact fun s _ hlt => absurd hlt (Nat.not_lt_zero _)
  | succ n ih =>
    intro s hs hlt origin rule h origin'
    rw [read_eq_readKind] at h
    obtain ⟨tagged, htagged, h⟩ := Outcome.bind_eq_ok h
    have hpos := depth_pos_of_readTagged htagged
    have hle : tagged.body.depth ≤ n := Nat.le_trans tagged.depth_le (Nat.le_of_lt_succ hlt)
    have hrules : RestoresBelow tagged.body.depth (fun _ => read .value) json :=
      fun x hx hlt _ a ha _ => ih.mono hle hx hlt .value ha .value
    obtain ⟨name, es, written, hjson, ht, hname, hes⟩ :=
      restored_readKind (hs.tagged htagged) hpos tagged.depth_le hrules h
    rw [hjson]
    refine restored_variantRecord origin' "ValidationRule" (hname origin') hes ht ?_
    intro hle' hread
    rw [read_eq_readKind, hread, Outcome.ok_bind]
    exact hes.reads

end Rule
end CalendarRules
