import CalendarRules.Declaration.Behavior
import CalendarRules.Declaration.Constraint
import CalendarRules.Proofs.Declaration.Expression

/-!
# Behavior rules and constraints are read back

The value of a behavior rule is a flag or a condition, which no document can be both.  The value of
a constraint is a duration, a range or any other document, tried in this order: a range has no
field `value`, so that it cannot be taken for a duration, and another document was neither when it
was read.
-/

namespace CalendarRules

open Source

namespace BehaviorValue

theorem read_cases {origin : Origin} {s : Source} {value : BehaviorValue}
    (h : read origin s = .ok value) :
    (∃ allowed, value = .flag allowed ∧ s.readBool = .ok allowed) ∨
      ∃ e, value = .condition e ∧ Expression.read .aside s = .ok e := by
  obtain ⟨-, -, h⟩ := Outcome.bind_eq_ok h
  split at h
  next allowed hallowed =>
    cases h
    exact Or.inl ⟨allowed, rfl, hallowed⟩
  next =>
    split at h
    next e he =>
      cases h
      exact Or.inr ⟨e, rfl, he⟩
    next => cases h

theorem readBool_expression (e : Expression) :
    ∃ problem, (ofJson e.json).readBool = .error problem := by
  cases e <;> (rw [Expression.json, variantRecord, ofJson]; exact ⟨_, rfl⟩)

theorem restores (n : Nat) : RestoresBelow n read json := by
  intro s hs hlt origin value h origin'
  rcases read_cases h with ⟨allowed, rfl, -⟩ | ⟨e, rfl, he⟩
  · have hw := Json.wellFormed_bool allowed
    refine ⟨hw, Nat.succ_pos _, ?_⟩
    unfold read
    rw [json, setAside_ofJson hw, ofJson]
    rfl
  · have he := Expression.restores n hs hlt .aside he .aside
    obtain ⟨problem, hbool⟩ := readBool_expression e
    refine ⟨he.wellFormed, he.depth_lt, ?_⟩
    unfold read
    rw [json, setAside_ofJson he.wellFormed, Outcome.ok_bind, hbool, he.reads]
    rfl

end BehaviorValue

namespace BehaviorRule

theorem restores (n : Nat) : RestoresBelow n read json := by
  intro s hs _ origin rule h origin'
  obtain ⟨-, -, h⟩ := Outcome.bind_eq_ok h
  obtain ⟨action, haction, h⟩ := Outcome.bind_eq_ok h
  obtain ⟨value, hvalue, h⟩ := Outcome.bind_eq_ok h
  cases h
  have haction := (restores_name _ Action.name_ofName).slot hs origin haction origin'
  have hvalue := (BehaviorValue.restores _).slot hs origin hvalue origin'
  refine restored_object (Nat.zero_lt_of_lt hvalue.depth_lt)
    (show ["name", "value"].Nodup by decide)
    ?_ fun hn => ?_
  · simp [haction.fits, hvalue.fits]
  · have haction := haction.slot_get hn (.head _) 0
    have hvalue := hvalue.slot_get hn (.tail _ (.head _)) 1
    have hcheck := checkRecord_object origin' "struct BehaviorRule" hn <|
      (settled_slot haction).cons <| (settled_slot hvalue).cons <| List.forall_mem_nil _
    unfold read
    simp only [haction, hvalue, hcheck, Outcome.ok_bind]
    rfl

end BehaviorRule

namespace ConstraintValue

theorem read_cases {origin : Origin} {s : Source} {value : ConstraintValue}
    (h : read origin s = .ok value) :
    (∃ d, value = .duration d ∧ Duration.read .aside s = .ok d) ∨
      ∃ problem, Duration.read .aside s = .error problem ∧ (readRange s = .ok value ∨
        ∃ j problem', value = .literal j ∧ readRange s = .error problem' ∧ s.readJson = .ok j) := by
  obtain ⟨-, -, h⟩ := Outcome.bind_eq_ok h
  split at h
  next d hd =>
    cases h
    exact Or.inl ⟨d, rfl, hd⟩
  next problem hd =>
    refine Or.inr ⟨problem, hd, ?_⟩
    split at h
    next value hvalue =>
      cases h
      exact Or.inl hvalue
    next problem' hrange =>
      obtain ⟨j, hj, h⟩ := Outcome.bind_eq_ok h
      cases h
      exact Or.inr ⟨j, problem', rfl, hrange, hj⟩

theorem readRange_object (entries : List Source.Entry) (ending : Option Fault) :
    readRange (.object entries ending) = do
      let s := Source.object entries ending
      let min := s.slot 0 "min" fun x _ => Literal.read .aside x
      let max := s.slot 1 "max" fun x _ => Literal.read .aside x
      s.checkRecord .aside "struct variant ConstraintValue::Range" [min.report, max.report]
      return .range (← min.get) (← max.get) := rfl

theorem restored_range {s : Source} {value : ConstraintValue} (hs : s.Plain)
    (h : readRange s = .ok value) :
    ∃ min max, value = .range min max ∧ Restored readRange value.json value (s.depth + 1) := by
  have hobject : ∃ entries ending, s = .object entries ending := by
    cases s with
    | object entries ending => exact ⟨entries, ending, rfl⟩
    | null | bool _ | number _ | string _ | array _ _ | broken _ => cases h
  obtain ⟨entries, ending, rfl⟩ := hobject
  rw [readRange_object] at h
  obtain ⟨-, -, h⟩ := Outcome.bind_eq_ok h
  obtain ⟨min, hmin, h⟩ := Outcome.bind_eq_ok h
  obtain ⟨max, hmax, h⟩ := Outcome.bind_eq_ok h
  cases h
  have hmin := (Literal.restores _).slot hs .aside hmin .aside
  have hmax := (Literal.restores _).slot hs .aside hmax .aside
  refine ⟨min, max, rfl, restored_object (Nat.zero_lt_of_lt hmin.depth_lt)
    (show ["min", "max"].Nodup by decide) ?_ fun hn => ?_⟩
  · exact List.forall_mem_cons.2 ⟨hmin.fits, List.forall_mem_singleton.2 hmax.fits⟩
  · have hmin := hmin.slot_get hn (.head _) 0
    have hmax := hmax.slot_get hn (.tail _ (.head _)) 1
    have hcheck := checkRecord_object .aside "struct variant ConstraintValue::Range" hn <|
      (settled_slot hmin).cons <| (settled_slot hmax).cons <| List.forall_mem_nil _
    rw [ofJson] at hmin hmax hcheck ⊢
    rw [readRange_object]
    simp only [hmin, hmax, hcheck, Outcome.ok_bind]
    rfl

/-- A range has no field `value`. -/
theorem duration_range (min max : Literal) :
    ∃ problem, Duration.read .aside (ofJson (range min max).json) = .error problem := by
  cases h : Duration.read .aside (ofJson (range min max).json) with
  | error problem => exact ⟨problem, rfl⟩
  | ok d =>
    obtain ⟨-, -, h⟩ := Outcome.bind_eq_ok h
    obtain ⟨value, hvalue, -⟩ := Outcome.bind_eq_ok h
    rw [json, slot_get_object_of_none rfl] at hvalue
    cases hvalue

theorem restores (n : Nat) : RestoresBelow n read json := by
  intro s hs hlt origin value h origin'
  rcases read_cases h with ⟨d, rfl, hd⟩ | ⟨problem, hd, hrange | ⟨j, problem', rfl, hrange, hj⟩⟩
  · have hd := Duration.restores n hs hlt .aside hd .aside
    refine ⟨hd.wellFormed, hd.depth_lt, ?_⟩
    unfold read
    rw [json, setAside_ofJson hd.wellFormed, Outcome.ok_bind, hd.reads]
    rfl
  · obtain ⟨min, max, rfl, hr⟩ := restored_range hs hrange
    obtain ⟨problem', hd'⟩ := duration_range min max
    refine ⟨hr.wellFormed, hr.depth_lt, ?_⟩
    unfold read
    rw [setAside_ofJson hr.wellFormed, Outcome.ok_bind, hd', hr.reads]
    rfl
  · obtain ⟨k, hk, rfl⟩ := hs
    have hj' := readJson_ofJson hk
    have heq : j = k := Except.ok.inj (hj.symm.trans hj')
    subst heq
    refine ⟨hk, ?_, ?_⟩
    · rw [json, depth_ofJson]
      exact Nat.lt_succ_self _
    · unfold read
      rw [json, setAside_ofJson hk, Outcome.ok_bind, hd, hrange, hj']
      rfl

end ConstraintValue

namespace Constraint

theorem restores (n : Nat) : RestoresBelow n read json := by
  intro s hs _ origin c h origin'
  obtain ⟨-, -, h⟩ := Outcome.bind_eq_ok h
  obtain ⟨name, hname, h⟩ := Outcome.bind_eq_ok h
  obtain ⟨value, hvalue, h⟩ := Outcome.bind_eq_ok h
  cases h
  have hname := (restores_readString _).slot hs origin hname origin'
  have hvalue := (ConstraintValue.restores _).slot hs origin hvalue origin'
  refine restored_object (Nat.zero_lt_of_lt hvalue.depth_lt)
    (show ["name", "value"].Nodup by decide)
    ?_ fun hn => ?_
  · simp [hname.fits, hvalue.fits]
  · have hname := hname.slot_get hn (.head _) 0
    have hvalue := hvalue.slot_get hn (.tail _ (.head _)) 1
    have hcheck := checkRecord_object origin' "struct ConstraintRule" hn <|
      (settled_slot hname).cons <| (settled_slot hvalue).cons <| List.forall_mem_nil _
    unfold read
    simp only [hname, hvalue, hcheck, Outcome.ok_bind]
    rfl

end Constraint
end CalendarRules
