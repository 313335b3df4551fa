import CalendarRules.Declaration.Literal
import CalendarRules.Proofs.Json.Restored

/-!
# Literals and paths are read back

A literal is a duration if its document can be read as one.  What was read as any other value could
not be, and cannot be afterwards either, since it is written as it was read.
-/

namespace CalendarRules

open Source

namespace Duration

theorem restores (n : Nat) : RestoresBelow n read json := by
  intro s hs _ origin d h origin'
  obtain ⟨-, -, h⟩ := Outcome.bind_eq_ok h
  obtain ⟨value, hvalue, h⟩ := Outcome.bind_eq_ok h
  obtain ⟨unit, hunit, h⟩ := Outcome.bind_eq_ok h
  cases h
  have hvalue := (restores_readDouble _).slot hs origin hvalue origin'
  have hunit := (restores_readString _).slot hs origin hunit origin'
  refine restored_object (Nat.zero_lt_of_lt hvalue.depth_lt)
    (show ["value", "unit"].Nodup by decide)
    ?_ fun hn => ?_
  · simp [hvalue.fits, hunit.fits]
  · have hvalue := hvalue.slot_get hn (.head _) 0
    have hunit := hunit.slot_get hn (.tail _ (.head _)) 1
    have hcheck := checkRecord_object origin' "struct DurationLiteral" hn <|
      (settled_slot hvalue).cons <| (settled_slot hunit).cons <| List.forall_mem_nil _
    unfold read
    simp only [hvalue, hunit, hcheck, Outcome.ok_bind]
    rfl

end Duration

namespace Literal

theorem read_cases {origin : Origin} {s : Source} {l : Literal} (h : read origin s = .ok l) :
    (∃ d, l = .duration d ∧ Duration.read .aside s = .ok d) ∨
      ∃ j problem, l = .value j ∧ Duration.read .aside s = .error problem ∧ s.readJson = .ok j := by
  obtain ⟨-, -, h⟩ := Outcome.bind_eq_ok h
  split at h
  next d hd =>
    cases h
    exact Or.inl ⟨d, rfl, hd⟩
  next problem hd =>
    obtain ⟨j, hj, h⟩ := Outcome.bind_eq_ok h
    cases h
    exact Or.inr ⟨j, problem, rfl, hd, hj⟩

/-- A literal is a duration, or its document is what was read. -/
theorem source_eq_of_read {origin : Origin} {s : Source} {l : Literal} (hs : s.Plain)
    (h : read origin s = .ok l) : (∃ d, l = .duration d) ∨ s = ofJson l.json := by
  rcases read_cases h with ⟨d, rfl, -⟩ | ⟨j, problem, rfl, -, hj⟩
  · exact Or.inl ⟨d, rfl⟩
  · obtain ⟨k, hk, rfl⟩ := hs
    rw [readJson_ofJson hk] at hj
    cases hj
    exact Or.inr rfl

theorem read_of_duration {j : Json} {d : Duration} (hj : j.WellFormed)
    (h : Duration.read .aside (ofJson j) = .ok d) (origin : Origin) :
    read origin (ofJson j) = .ok (.duration d) := by
  unfold read
  rw [setAside_ofJson hj, Outcome.ok_bind, h]
  rfl

theorem read_of_value {j : Json} {problem : Problem} (hj : j.WellFormed)
    (h : Duration.read .aside (ofJson j) = .error problem) (origin : Origin) :
    read origin (ofJson j) = .ok (.value j) := by
  unfold read
  rw [setAside_ofJson hj, Outcome.ok_bind, h, readJson_ofJson hj]
  rfl

theorem restores (n : Nat) : RestoresBelow n read json := by
  intro s hs hlt origin l h origin'
  rcases read_cases h with ⟨d, rfl, hd⟩ | ⟨j, problem, rfl, hd, hj⟩
  · have hd := Duration.restores n hs hlt .aside hd .aside
    exact ⟨hd.wellFormed, hd.depth_lt, read_of_duration hd.wellFormed hd.reads origin'⟩
  · obtain ⟨k, hk, rfl⟩ := hs
    rw [readJson_ofJson hk] at hj
    cases hj
    refine ⟨hk, ?_, read_of_value hk hd origin'⟩
    rw [depth_ofJson]
    exact Nat.lt_succ_self _

end Literal

namespace FieldPath

theorem restores (n : Nat) : RestoresBelow n read json := by
  intro s hs _ origin path h origin'
  obtain ⟨-, -, h⟩ := Outcome.bind_eq_ok h
  obtain ⟨segments, hpath, h⟩ := Outcome.bind_eq_ok h
  cases h
  have hpath := (restores_readString _).list.slot hs origin hpath origin'
  refine restored_object (Nat.zero_lt_of_lt hpath.depth_lt) (show ["path"].Nodup by decide)
    (List.forall_mem_singleton.2 hpath.fits) fun hn => ?_
  have hpath := hpath.slot_get hn (.head _) 0
  have hcheck := checkRecord_object origin' "struct FieldAccess" hn <|
    (settled_slot hpath).cons <| List.forall_mem_nil _
  unfold read
  simp only [hpath, hcheck, Outcome.ok_bind]
  rfl

end FieldPath
end CalendarRules
