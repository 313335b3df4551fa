import CalendarRules.Declaration.Expression
import CalendarRules.Proofs.Declaration.Literal

/-!
# Expressions are read back

An expression is a variant record, whose name settles how it is read.  The one choice that is left
to the form of a document is the left side of a comparison: it is an expression if it can be read as
one, and a literal otherwise.  A literal that is a value is written as it was read, and no duration
can be read as an expression, because its object names no variant.
-/

namespace CalendarRules

open Source

namespace Operator

theorem restores (n : Nat) : RestoresBelow n (fun _ => read) json := restores_name n text_ofText

end Operator

namespace Connective

theorem restores (n : Nat) : RestoresBelow n (fun _ => read) json := by
  intro s _ _ _ c _ _
  refine ⟨Json.wellFormed_string _, Nat.succ_pos _, ?_⟩
  rw [json, ofJson]
  cases c <;> rfl

end Connective

/-! ## Variant records -/

/-- A name in front of a record that has none adds nothing to its nesting. -/
theorem depth_variantRecord (name : String) (es : Entries) :
    (variantRecord name es).depth = (Json.object es).depth := by
  have hdepth : (Json.string name).depth = 0 := by simp only [Json.depth]
  rw [variantRecord, Json.depth, Json.depthOfEntries, hdepth, Nat.zero_max, Json.depth]

/-- A variant record is read back once its body is: what is left to show is that the reader goes on
with the body after it has split the name off. -/
theorem restored_variantRecord {α β : Type} {readBody : Source → Except Problem β}
    {read : Source → Except Problem α} {variants : Variants} {name : String}
    {variant : Option String} {es : Entries} {b : β} {a : α} {n : Nat} (origin : Origin)
    (expected : String) (hv : readVariant origin variants (.string name) = .ok variant)
    (hbody : Restored readBody (.object es) b n) (ht : "type" ∉ Entries.keys es)
    (hread : ∀ hle, readTagged origin expected variants (ofJson (variantRecord name es)) =
      .ok ⟨variant, ofJson (.object es), hle⟩ → read (ofJson (variantRecord name es)) = .ok a) :
    Restored read (variantRecord name es) a n where
  wellFormed := by
    obtain ⟨hn, hes⟩ := Json.wellFormed_object.1 hbody.wellFormed
    refine Json.wellFormed_object.2 ⟨List.nodup_cons.2 ⟨ht, hn⟩, ?_⟩
    exact List.forall_mem_cons.2 ⟨Json.wellFormed_string name, hes⟩
  depth_lt := by
    rw [depth_variantRecord]
    exact hbody.depth_lt
  reads := by
    obtain ⟨hle, htagged⟩ := readTagged_object origin expected hbody.wellFormed ht hv
    exact hread hle htagged

/-! ## Comparisons -/

section Comparison

variable {readOperand : Source → Except Problem Operand} {s : Source} {operator : Operator}
  {left : Operand} {right : Literal}

theorem restored_comparison (hs : s.Plain)
    (hr : RestoresBelow s.depth (fun _ => readOperand) Operand.json)
    (h : readComparison s (fun x _ => readOperand x) = .ok (operator, left, right)) :
    Restored (fun s => readComparison s fun x _ => readOperand x)
      (.object (comparisonEntries operator left.json right)) (operator, left, right)
      (s.depth + 1) := by
  obtain ⟨-, -, h⟩ := Outcome.bind_eq_ok h
  obtain ⟨_, hoperator, h⟩ := Outcome.bind_eq_ok h
  obtain ⟨_, hleft, h⟩ := Outcome.bind_eq_ok h
  obtain ⟨_, hright, h⟩ := Outcome.bind_eq_ok h
  cases h
  have hoperator := (Operator.restores _).slot hs .aside hoperator .aside
  have hleft := hr.slot hs .aside hleft .aside
  have hright := (Literal.restores _).slot hs .aside hright .aside
  refine restored_object (Nat.zero_lt_of_lt hleft.depth_lt)
    (show ["operator", "left", "right"].Nodup by decide) ?_ fun hn => ?_
  · simp [comparisonEntries, hoperator.fits, hleft.fits, hright.fits]
  · have hoperator := hoperator.slot_get hn (.head _) 0
    have hleft := hleft.slot_get hn (.tail _ (.head _)) 1
    have hright := hright.slot_get hn (.tail _ (.tail _ (.head _))) 2
    have hcheck := checkRecord_object .aside "struct Comparison" hn <|
      (settled_slot hoperator).cons <| (settled_slot hleft).cons <| (settled_slot hright).cons <|
      List.forall_mem_nil _
    unfold readComparison
    simp only [hoperator, hleft, hright, hcheck, Outcome.ok_bind]
    rfl

end Comparison

/-! ## Conjunctions, disjunctions and negations -/

section Logical

variable {readExpression : Source → Except Problem Expression} {s : Source}
  {connective : Connective} {left right argument : Expression}

theorem restored_logical (hs : s.Plain)
    (hr : RestoresBelow s.depth (fun _ => readExpression) Expression.json)
    (h : readLogical s (fun x _ => readExpression x) = .ok (connective, left, right)) :
    Restored (fun s => readLogical s fun x _ => readExpression x)
      (.object (logicalEntries connective left.json right.json)) (connective, left, right)
      (s.depth + 1) := by
  obtain ⟨-, -, h⟩ := Outcome.bind_eq_ok h
  obtain ⟨_, hconnective, h⟩ := Outcome.bind_eq_ok h
  obtain ⟨_, hleft, h⟩ := Outcome.bind_eq_ok h
  obtain ⟨_, hright, h⟩ := Outcome.bind_eq_ok h
  cases h
  have hconnective := (Connective.restores _).slot hs .aside hconnective .aside
  have hleft := hr.slot hs .aside hleft .aside
  have hright := hr.slot hs .aside hright .aside
  refine restored_object (Nat.zero_lt_of_lt hleft.depth_lt)
    (show ["operator", "left", "right"].Nodup by decide) ?_ fun hn => ?_
  · simp [logicalEntries, hconnective.fits, hleft.fits, hright.fits]
  · have hconnective := hconnective.slot_get hn (.head _) 0
    have hleft := hleft.slot_get hn (.tail _ (.head _)) 1
    have hright := hright.slot_get hn (.tail _ (.tail _ (.head _))) 2
    have hcheck := checkRecord_object .aside "struct BinaryExpr" hn <|
      (settled_slot hconnective).cons <| (settled_slot hleft).cons <| (settled_slot hright).cons <|
      List.forall_mem_nil _
    unfold readLogical
    simp only [hconnective, hleft, hright, hcheck, Outcome.ok_bind]
    rfl

theorem restored_negation (hs : s.Plain)
    (hr : RestoresBelow s.depth (fun _ => readExpression) Expression.json)
    (h : readNegation s (fun x _ => readExpression x) = .ok argument) :
    Restored (fun s => readNegation s fun x _ => readExpression x)
      (.object (negationEntries argument.json)) argument (s.depth + 1) := by
  obtain ⟨-, -, hargument⟩ := Outcome.bind_eq_ok h
  have hargument := hr.slot hs .aside hargument .aside
  have hpos := Nat.zero_lt_of_lt hargument.depth_lt
  have hnot : Restored (readName .aside ["not"]) (.string "not") "not" s.depth := by
    refine ⟨Json.wellFormed_string _, hpos, ?_⟩
    rw [ofJson]
    rfl
  refine restored_object hpos (show ["operator", "argument"].Nodup by decide) ?_ fun hn => ?_
  · simp [negationEntries, hnot.fits, hargument.fits]
  · have hoperator := hnot.slot_get hn (.head _) 0
    have hargument := hargument.slot_get hn (.tail _ (.head _)) 1
    have hcheck := checkRecord_object .aside "struct UnaryExpr" hn <|
      (settled_slot hoperator).cons <| (settled_slot hargument).cons <| List.forall_mem_nil _
    unfold readNegation
    simp only [hargument, hcheck, Outcome.ok_bind]

end Logical

/-! ## Expressions and operands -/

/-- A duration names no variant. -/
theorem Expression.read_duration (d : Duration) :
    Expression.read .aside (ofJson d.json) = .error (.mismatch (.missingField "type")) := by
  have hw : d.json.WellFormed := by
    refine Json.wellFormed_object.2 ⟨show ["value", "unit"].Nodup by decide, ?_⟩
    exact List.forall_mem_cons.2 ⟨Json.wellFormed_number _,
      List.forall_mem_singleton.2 (Json.wellFormed_string _)⟩
  have ht : "type" ∉ ["value", "unit"] := by decide
  rw [Expression.read, Duration.json, readTagged_of_notMem _ _ _ hw ht, Outcome.error_bind]

namespace Operand

/-- The left side of a comparison is restored as far as expressions are. -/
theorem restores_of {n : Nat}
    (h : RestoresBelow n (fun _ => Expression.read .aside) Expression.json) :
    RestoresBelow n (fun _ => read) json := by
  intro s hs hlt origin operand hread origin'
  have hread : readBy (Expression.read .aside s) s = .ok operand := hread
  unfold readBy at hread
  split at hread
  next e he =>
    cases hread
    have he : Restored (Expression.read .aside) e.json e (s.depth + 1) := h hs hlt origin he origin
    refine ⟨he.wellFormed, he.depth_lt, ?_⟩
    show readBy (Expression.read .aside (ofJson e.json)) (ofJson e.json) = .ok (.expression e)
    rw [he.reads]
    rfl
  next problem he =>
    obtain ⟨l, hl, hread⟩ := Outcome.map_eq_ok hread
    cases hread
    have hrestored := Literal.restores n hs hlt .aside hl .aside
    refine ⟨hrestored.wellFormed, hrestored.depth_lt, ?_⟩
    have hfails : ∃ problem, Expression.read .aside (ofJson l.json) = .error problem := by
      rcases Literal.source_eq_of_read hs hl with ⟨d, rfl⟩ | heq
      · exact ⟨_, Expression.read_duration d⟩
      · exact ⟨problem, heq ▸ he⟩
    obtain ⟨problem', hfails⟩ := hfails
    show readBy (Expression.read .aside (ofJson l.json)) (ofJson l.json) = .ok (.literal l)
    rw [hfails]
    exact congrArg (Except.map Operand.literal) hrestored.reads

end Operand

namespace Expression

theorem read_cases {origin : Origin} {s : Source} {e : Expression} (h : read origin s = .ok e) :
    ∃ tagged, s.readTagged origin "Expression" variants = .ok tagged ∧
      ((∃ path, e = .field path ∧ FieldPath.read .aside tagged.body = .ok path) ∨
      (∃ operator left right, e = .comparison operator left right ∧
        readComparison tagged.body (fun x _ => Operand.read x) = .ok (operator, left, right)) ∨
      (∃ connective left right, e = .logical connective left right ∧
        readLogical tagged.body (fun x _ => read .aside x) = .ok (connective, left, right)) ∨
      ∃ argument, e = .negation argument ∧
        readNegation tagged.body (fun x _ => read .aside x) = .ok argument) := by
  rw [read] at h
  obtain ⟨tagged, ht, h⟩ := Outcome.bind_eq_ok h
  refine ⟨tagged, ht, ?_⟩
  split at h
  next =>
    obtain ⟨path, hpath, h⟩ := Outcome.bind_eq_ok h
    cases h
    exact Or.inl ⟨path, rfl, hpath⟩
  next =>
    obtain ⟨⟨operator, left, right⟩, hc, h⟩ := Outcome.bind_eq_ok h
    cases h
    exact Or.inr (Or.inl ⟨operator, left, right, rfl, hc⟩)
  next =>
    obtain ⟨⟨connective, left, right⟩, hl, h⟩ := Outcome.bind_eq_ok h
    cases h
    exact Or.inr (Or.inr (Or.inl ⟨connective, left, right, rfl, hl⟩))
  next =>
    obtain ⟨argument, ha, h⟩ := Outcome.bind_eq_ok h
    cases h
    exact Or.inr (Or.inr (Or.inr ⟨argument, rfl, ha⟩))

/-- The induction is on the depth: the sides of a comparison, a conjunction, a disjunction or a
negation are nested less deep than the record. -/
theorem restores (n : Nat) : RestoresBelow n read json := by
  induction n with
  | zero => exact fun s _ hlt => absurd hlt (Nat.not_lt_zero _)
  | succ n ih =>
    intro s hs hlt origin e h origin'
    obtain ⟨tagged, htagged, h⟩ := read_cases h
    have hbody := hs.tagged htagged
    have hle : tagged.body.depth ≤ n := Nat.le_trans tagged.depth_le (Nat.le_of_lt_succ hlt)
    have hbound : tagged.body.depth + 1 ≤ s.depth + 1 := Nat.succ_le_succ tagged.depth_le
    have hargs : RestoresBelow tagged.body.depth (fun _ => read .aside) json :=
      fun x hx hlt _ a ha _ => ih.mono hle hx hlt .aside ha .aside
    rcases h with ⟨path, rfl, hpath⟩ | ⟨operator, left, right, rfl, hcomparison⟩ |
      ⟨connective, left, right, rfl, hlogical⟩ | ⟨argument, rfl, hnegation⟩
    · have hpath := FieldPath.restores (n + 1) hbody (Nat.lt_succ_of_le hle) .aside hpath .aside
      rw [json]
      refine restored_variantRecord origin' "Expression"
        (readVariant_of_mem (show "FieldAccess" ∈ variants.names by decide) origin')
        (hpath.mono hbound)
        (show "type" ∉ ["path"] by decide) ?_
      intro hle' hread
      rw [read, hread, Outcome.ok_bind]
      exact congrArg (· >>= _) hpath.reads
    · have hc := restored_comparison hbody (Operand.restores_of hargs) hcomparison
      rw [json]
      refine restored_variantRecord origin' "Expression"
        (readVariant_of_mem (show "Comparison" ∈ variants.names by decide) origin') (hc.mono hbound)
        (show "type" ∉ ["operator", "left", "right"] by decide) ?_
      intro hle' hread
      rw [read, hread, Outcome.ok_bind]
      exact congrArg (· >>= _) hc.reads
    · have hl := restored_logical hbody hargs hlogical
      rw [json]
      refine restored_variantRecord origin' "Expression"
        (readVariant_of_mem (show "BinaryExpr" ∈ variants.names by decide) origin') (hl.mono hbound)
        (show "type" ∉ ["operator", "left", "right"] by decide) ?_
      intro hle' hread
      rw [read, hread, Outcome.ok_bind]
      exact congrArg (· >>= _) hl.reads
    · have hn := restored_negation hbody hargs hnegation
      rw [json]
      refine restored_variantRecord origin' "Expression"
        (readVariant_of_mem (show "UnaryExpr" ∈ variants.names by decide) origin') (hn.mono hbound)
        (show "type" ∉ ["operator", "argument"] by decide) ?_
      intro hle' hread
      rw [read, hread, Outcome.ok_bind]
      exact congrArg (· >>= _) hn.reads

/-- Below a record everything is read as a part that was set aside. -/
theorem restores_aside (n : Nat) : RestoresBelow n (fun _ => read .aside) json :=
  fun _ hs hlt _ _ h _ => restores n hs hlt .aside h .aside

end Expression

theorem Operand.restores (n : Nat) : RestoresBelow n (fun _ => read) json :=
  restores_of (Expression.restores_aside n)

end CalendarRules
