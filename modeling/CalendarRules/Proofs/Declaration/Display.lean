import CalendarRules.Declaration.Display
import CalendarRules.Proofs.Declaration.Expression

/-!
# Display rules are read back

A part of a template is a string, a path or any other document, and the value of a display rule is
computed or a literal.  In both cases the last form takes what no earlier one could, and writes it
as it was read, so that no earlier form can take it the second time.
-/

namespace CalendarRules

open Source

namespace TemplatePart

theorem restores (n : Nat) : RestoresBelow n (fun _ => read) json := by
  intro s hs hlt origin part h _
  have h : read s = .ok part := h
  unfold read at h
  split at h
  next t ht =>
    cases h
    exact ⟨Json.wellFormed_string t, Nat.succ_pos _, by rw [json, ofJson]; rfl⟩
  next problem hstring =>
    split at h
    next path hpath =>
      cases h
      have hpath := FieldPath.restores n hs hlt .aside hpath .aside
      refine ⟨hpath.wellFormed, hpath.depth_lt, ?_⟩
      have hobject : (ofJson path.json).readString =
          .error ((ofJson path.json).unexpected "a string") := by
        rw [FieldPath.json, ofJson]
        rfl
      show read (ofJson path.json) = .ok (.field path)
      unfold read
      rw [hobject, hpath.reads]
    next problem' hpath =>
      obtain ⟨raw, hraw, hpart⟩ := Outcome.map_eq_ok h
      cases hpart
      obtain ⟨j, hj, rfl⟩ := hs
      have hj' := readJson_ofJson hj
      have heq : raw = j := Except.ok.inj (hraw.symm.trans hj')
      subst heq
      refine ⟨hj, ?_, ?_⟩
      · rw [depth_ofJson]
        exact Nat.lt_succ_self _
      · show read (ofJson raw) = .ok (.other raw)
        unfold read
        rw [hstring, hpath, hj']
        rfl

end TemplatePart

namespace DisplayValue

/-- The alternate of a conditional value is a value that may be `null`. -/
theorem readConditional_eq (s : Source) (readValue : Source → Except Problem DisplayValue) :
    readConditional s (fun x _ => readValue x) = do
      let condition := s.slot 0 "condition" fun x _ => Expression.read .aside x
      let consequent := s.slot 1 "consequent" fun x _ => readValue x
      let alternate := s.optionalSlot 2 "alternate" fun x _ => readOption readValue x
      s.checkRecord .aside "struct variant DisplayExpression::Conditional"
        [condition.report, consequent.report, alternate.report]
      return .conditional (← condition.get) (← consequent.get) (← alternate.getD none) := by
  have hslot (read : (x : Source) → x.depth < s.depth → Except Problem (Option DisplayValue))
      (h : ∀ x hx, read x hx = readOption readValue x) :
      s.optionalSlot 2 "alternate" read =
        s.optionalSlot 2 "alternate" fun x _ => readOption readValue x := by
    rw [funext fun x => funext (h x)]
  unfold readConditional
  dsimp only
  rw [hslot _ fun x _ => by cases x <;> rfl]

/-- The entries of a conditional value. -/
def conditionalEntries (condition : Expression) (consequent : DisplayValue)
    (alternate : Option DisplayValue) : Entries :=
  [("condition", condition.json), ("consequent", consequent.json)] ++
    Entries.optional "alternate" (alternate.map json)

theorem json_conditional (condition : Expression) (consequent : DisplayValue)
    (alternate : Option DisplayValue) :
    (conditional condition consequent alternate).json =
      variantRecord "Conditional" (conditionalEntries condition consequent alternate) := by
  cases alternate <;> rw [json] <;> rfl

theorem keys_conditionalEntries_sublist (condition : Expression) (consequent : DisplayValue)
    (alternate : Option DisplayValue) :
    (Entries.keys (conditionalEntries condition consequent alternate)).Sublist
      ["condition", "consequent", "alternate"] := by
  rw [conditionalEntries, Entries.keys_append]
  exact (List.Sublist.refl ["condition", "consequent"]).append (Entries.keys_optional_sublist _ _)

theorem get?_alternate (condition : Expression) (consequent : DisplayValue)
    (alternate : Option DisplayValue) :
    Entries.get? "alternate" (conditionalEntries condition consequent alternate) =
      alternate.map json := by
  rw [conditionalEntries, Entries.get?_append, Entries.get?_optional, if_pos rfl]
  rfl

/-- An alternate is never `null`, since `null` stands for no alternate. -/
theorem restored_conditional {readValue : Source → Except Problem DisplayValue} {s : Source}
    {value : DisplayValue} (hs : s.Plain)
    (hr : RestoresBelow s.depth (fun _ => readValue) json)
    (hnull : ∀ {x : Source} {a}, x.Plain → x ≠ .null → readValue x = .ok a → a.json ≠ .null)
    (h : readConditional s (fun x _ => readValue x) = .ok value) :
    ∃ es, value.json = variantRecord "Conditional" es ∧ "type" ∉ Entries.keys es ∧
      Restored (fun s => readConditional s fun x _ => readValue x) (.object es) value
        (s.depth + 1) := by
  rw [readConditional_eq] at h
  obtain ⟨-, -, h⟩ := Outcome.bind_eq_ok h
  obtain ⟨condition, hcondition, h⟩ := Outcome.bind_eq_ok h
  obtain ⟨consequent, hconsequent, h⟩ := Outcome.bind_eq_ok h
  obtain ⟨alternate, halternate, h⟩ := Outcome.bind_eq_ok h
  cases h
  have hcondition := (Expression.restores _).slot hs .aside hcondition .aside
  have hconsequent := hr.slot hs .aside hconsequent .aside
  have halt := hr.option hs .aside halternate .aside
  have hne : ∀ a, alternate = some a → a.json ≠ .null := by
    intro a ha
    obtain ⟨x, hx, -, hxnull, hread⟩ := exists_of_optionalSlot_option hs halternate ha
    exact hnull hx hxnull hread
  have hkeys := keys_conditionalEntries_sublist condition consequent alternate
  refine ⟨_, json_conditional condition consequent alternate, fun ht => ?_, ?_⟩
  · exact absurd (hkeys.subset ht) (by decide)
  refine restored_object (Nat.zero_lt_of_lt hcondition.depth_lt)
    (hkeys.nodup (by decide)) ?_ fun hn => ?_
  · rw [conditionalEntries, List.forall_mem_append]
    exact ⟨by simp [hcondition.fits, hconsequent.fits], fits_optional halt "alternate"⟩
  · have hcondition := hcondition.slot_get hn (.head _) 0
    have hconsequent := hconsequent.slot_get hn (.tail _ (.head _)) 1
    have halternate := optionalSlot_option_object (get?_alternate condition consequent alternate)
      halt hne 2
    have hcheck := checkRecord_object .aside "struct variant DisplayExpression::Conditional" hn <|
      (settled_slot hcondition).cons <| (settled_slot hconsequent).cons <|
      (settled_optionalSlot halternate).cons <| List.forall_mem_nil _
    rw [readConditional_eq]
    simp only [hcondition, hconsequent, halternate, hcheck, Outcome.ok_bind]
    rfl

theorem restored_template {s : Source} {value : DisplayValue} (hs : s.Plain)
    (h : readTemplate s = .ok value) :
    ∃ es, value.json = variantRecord "Template" es ∧ "type" ∉ Entries.keys es ∧
      Restored readTemplate (.object es) value (s.depth + 1) := by
  obtain ⟨-, -, h⟩ := Outcome.bind_eq_ok h
  obtain ⟨parts, hparts, h⟩ := Outcome.bind_eq_ok h
  cases h
  have hparts := (TemplatePart.restores _).list.slot hs .aside hparts .aside
  refine ⟨[("parts", .array (parts.map TemplatePart.json))], by rw [json],
    show "type" ∉ ["parts"] by decide, ?_⟩
  refine restored_object (Nat.zero_lt_of_lt hparts.depth_lt) (show ["parts"].Nodup by decide)
    (List.forall_mem_singleton.2 hparts.fits) fun hn => ?_
  have hparts := hparts.slot_get hn (.head _) 0
  have hcheck := checkRecord_object .aside "struct variant DisplayExpression::Template" hn <|
    (settled_slot hparts).cons <| List.forall_mem_nil _
  unfold readTemplate
  simp only [hparts, hcheck, Outcome.ok_bind]
  rfl

/-- Reads a computed value. -/
def readComputed (s : Source) : Except Problem DisplayValue := do
  let tagged ← s.readTagged .aside "DisplayExpression" variants
  match tagged.variant with
  | some "Conditional" => readConditional tagged.body fun x _ => read .aside x
  | _ => readTemplate tagged.body

theorem read_eq (origin : Origin) (s : Source) :
    read origin s = do
      s.setAside origin
      match readComputed s with
      | .ok value => return value
      | .error _ => return .literal (← s.readJson) := by
  rw [read]
  rfl

theorem read_cases {origin : Origin} {s : Source} {value : DisplayValue}
    (h : read origin s = .ok value) :
    readComputed s = .ok value ∨
      ∃ j problem, value = .literal j ∧ readComputed s = .error problem ∧ s.readJson = .ok j := by
  rw [read_eq] at h
  obtain ⟨-, -, h⟩ := Outcome.bind_eq_ok h
  split at h
  next value' hvalue =>
    cases h
    exact Or.inl hvalue
  next problem hproblem =>
    obtain ⟨j, hj, h⟩ := Outcome.bind_eq_ok h
    cases h
    exact Or.inr ⟨j, problem, rfl, hproblem, hj⟩

theorem json_computed {s : Source} {value : DisplayValue} (h : readComputed s = .ok value) :
    ∃ name es, value.json = variantRecord name es := by
  obtain ⟨tagged, -, h⟩ := Outcome.bind_eq_ok h
  split at h
  next =>
    rw [readConditional_eq] at h
    obtain ⟨-, -, h⟩ := Outcome.bind_eq_ok h
    obtain ⟨condition, -, h⟩ := Outcome.bind_eq_ok h
    obtain ⟨consequent, -, h⟩ := Outcome.bind_eq_ok h
    obtain ⟨alternate, -, h⟩ := Outcome.bind_eq_ok h
    cases h
    exact ⟨_, _, json_conditional condition consequent alternate⟩
  next =>
    obtain ⟨-, -, h⟩ := Outcome.bind_eq_ok h
    obtain ⟨parts, -, h⟩ := Outcome.bind_eq_ok h
    cases h
    exact ⟨_, _, by rw [json]⟩

theorem json_ne_null {origin : Origin} {s : Source} {value : DisplayValue} (hs : s.Plain)
    (hne : s ≠ .null) (h : read origin s = .ok value) : value.json ≠ .null := by
  rcases read_cases h with h | ⟨j, -, rfl, -, hj⟩
  · obtain ⟨name, es, hjson⟩ := json_computed h
    rw [hjson, variantRecord]
    intro hnull
    cases hnull
  · obtain ⟨k, hk, rfl⟩ := hs
    rw [readJson_ofJson hk] at hj
    cases hj
    rw [json]
    rintro rfl
    exact hne (by rw [ofJson])

theorem read_of_computed {j : Json} {value : DisplayValue} (hj : j.WellFormed)
    (h : readComputed (ofJson j) = .ok value) (origin : Origin) :
    read origin (ofJson j) = .ok value := by
  rw [read_eq, setAside_ofJson hj, Outcome.ok_bind, h]
  rfl

/-- The induction is on the depth: consequent and alternate are nested less deep than the value. -/
theorem restores (n : Nat) : RestoresBelow n read json := by
  induction n with
  | zero => exact fun s _ hlt => absurd hlt (Nat.not_lt_zero _)
  | succ n ih =>
    intro s hs hlt origin value h origin'
    rcases read_cases h with hcomputed | ⟨j, problem, rfl, hproblem, hj⟩
    · suffices hr : Restored readComputed value.json value (s.depth + 1) from
        ⟨hr.wellFormed, hr.depth_lt, read_of_computed hr.wellFormed hr.reads origin'⟩
      obtain ⟨tagged, htagged, hcomputed⟩ := Outcome.bind_eq_ok hcomputed
      have hbody := hs.tagged htagged
      have hle : tagged.body.depth ≤ n := Nat.le_trans tagged.depth_le (Nat.le_of_lt_succ hlt)
      have hbound : tagged.body.depth + 1 ≤ s.depth + 1 := Nat.succ_le_succ tagged.depth_le
      split at hcomputed
      next =>
        obtain ⟨es, hjson, ht, hes⟩ := restored_conditional hbody
          (fun x hx hlt _ a ha _ => ih.mono hle hx hlt .aside ha .aside)
          (fun hx hne ha => json_ne_null hx hne ha) hcomputed
        rw [hjson]
        refine restored_variantRecord .aside "DisplayExpression"
          (readVariant_of_mem (show "Conditional" ∈ variants.names by decide) _)
          (hes.mono hbound) ht ?_
        intro hle' hread
        rw [readComputed, hread, Outcome.ok_bind]
        exact hes.reads
      next =>
        obtain ⟨es, hjson, ht, hes⟩ := restored_template hbody hcomputed
        rw [hjson]
        refine restored_variantRecord .aside "DisplayExpression"
          (readVariant_of_mem (show "Template" ∈ variants.names by decide) _)
          (hes.mono hbound) ht ?_
        intro hle' hread
        rw [readComputed, hread, Outcome.ok_bind]
        exact hes.reads
    · obtain ⟨k, hk, rfl⟩ := hs
      have hj' := readJson_ofJson hk
      have heq : j = k := Except.ok.inj (hj.symm.trans hj')
      subst heq
      rw [json]
      refine ⟨hk, ?_, ?_⟩
      · rw [depth_ofJson]
        exact Nat.lt_succ_self _
      · rw [read_eq, setAside_ofJson hk, Outcome.ok_bind, hproblem, hj']
        rfl

end DisplayValue

namespace DisplayRule

theorem restores (n : Nat) : RestoresBelow n read json := by
  intro s hs _ origin rule h origin'
  obtain ⟨-, -, h⟩ := Outcome.bind_eq_ok h
  obtain ⟨property, hproperty, h⟩ := Outcome.bind_eq_ok h
  obtain ⟨value, hvalue, h⟩ := Outcome.bind_eq_ok h
  cases h
  have hproperty := (restores_name _ DisplayProperty.name_ofName).slot hs origin hproperty origin'
  have hvalue := (DisplayValue.restores _).slot hs origin hvalue origin'
  refine restored_object (Nat.zero_lt_of_lt hvalue.depth_lt)
    (show ["name", "value"].Nodup by decide)
    ?_ fun hn => ?_
  · simp [hproperty.fits, hvalue.fits]
  · have hproperty := hproperty.slot_get hn (.head _) 0
    have hvalue := hvalue.slot_get hn (.tail _ (.head _)) 1
    have hcheck := checkRecord_object origin' "struct DisplayRule" hn <|
      (settled_slot hproperty).cons <| (settled_slot hvalue).cons <| List.forall_mem_nil _
    unfold read
    simp only [hproperty, hvalue, hcheck, Outcome.ok_bind]
    rfl

end DisplayRule
end CalendarRules
