import CalendarRules.Proofs.Json.Nesting
import CalendarRules.Proofs.Json.Restored

/-!
# Values that are kept as they are

Some fields keep a whole document: a value, an object with any keys, or the entries of a record that
are under the names of no field.  What is kept repeats no key and is nested no deeper than readers
get into its source, even if the source has broken parts elsewhere, and it is kept again when it is
read from what is written for it.
-/

namespace CalendarRules
namespace Source

/-! ## Objects with any keys -/

theorem json_of_readJson {s : Source} {j : Json} (h : s.readJson = .ok j) : s.json = .ok j := by
  unfold readJson at h
  split at h
  next k hk => exact hk.trans (congrArg Except.ok (Except.ok.inj h))
  next => cases h

theorem json_of_readEntries {s : Source} {es : Entries} (h : s.readEntries = .ok es) :
    s.json = .ok (.object es) := by
  cases s with
  | object entries ending =>
    obtain ⟨j, hj, h⟩ := Outcome.bind_eq_ok h
    have hjson := json_of_readJson hj
    obtain ⟨settings, -, rfl⟩ := exists_of_json_object hjson
    cases h
    exact hjson
  | null | bool _ | number _ | string _ | array _ _ | broken _ => cases h

theorem restored_readEntries {es : Entries} (h : (Json.object es).WellFormed) {n : Nat}
    (hn : (Json.object es).depth < n) : Restored readEntries (.object es) es n := by
  refine ⟨h, hn, ?_⟩
  have hread := readJson_ofJson h
  rw [ofJson] at hread ⊢
  rw [readEntries, hread]
  rfl

/-! ## Records that keep their other entries -/

/-- A record that keeps its other entries gives those under the names of no field. -/
theorem readOpenRecord_object (expected : String) {es : Entries} {reports : List SlotReport}
    (hw : (Json.object es).WellFormed) (hr : ∀ r ∈ reports, Settled es r) :
    readOpenRecord expected (ofJson (.object es)) reports =
      .ok (es.filter fun e => !(reports.map SlotReport.name).contains e.1) := by
  obtain ⟨hn, hvalues⟩ := Json.wellFormed_object.1 hw
  have hcheck : checkEntries check reports none [] (ofEntries es) = .ok () :=
    checkEntries_ofEntries (fun r h => (hr r h).1) (fun e he => check_ofJson (hvalues e he)) hn
      (fun _ _ => List.not_mem_nil) fun r h hreq => Or.inr ((hr r h).2 hreq)
  have hothers : (ofEntries es).filter
        (fun entry => !entry.1.toOption.any (reports.map SlotReport.name).contains) =
      ofEntries (es.filter fun e => !(reports.map SlotReport.name).contains e.1) := by
    rw [ofEntries_eq_map, ofEntries_eq_map, List.filter_map]
    rfl
  have hwell : (Json.object
      (es.filter fun e => !(reports.map SlotReport.name).contains e.1)).WellFormed :=
    Json.wellFormed_object.2 ⟨hn.sublist (List.filter_sublist.map Prod.fst),
      fun e he => hvalues e (List.mem_filter.1 he).1⟩
  have hread := readJson_ofJson hwell
  rw [ofJson] at hread
  rw [ofJson, readOpenRecord, hcheck, Outcome.ok_bind]
  simp only [hothers, hread, Outcome.ok_bind]
  rfl

theorem exists_entry_of_jsonOfEntries {xs : List Entry} {settings : List (String × Json)}
    (h : jsonOfEntries xs = .ok settings) {key : String} (hkey : key ∈ Entries.keys settings) :
    ∃ x, (Except.ok key, x) ∈ xs := by
  induction xs generalizing settings with
  | nil =>
    rw [jsonOfEntries] at h
    cases h
    cases hkey
  | cons entry xs ih =>
    obtain ⟨k, x⟩ := entry
    obtain ⟨name, j, rest, rfl, -, hrest, rfl⟩ := exists_of_jsonOfEntries_cons h
    rw [Entries.keys_cons] at hkey
    rcases List.mem_cons.1 hkey with rfl | hkey
    · exact ⟨x, List.mem_cons_self⟩
    · obtain ⟨y, hy⟩ := ih hrest hkey
      exact ⟨y, List.mem_cons_of_mem _ hy⟩

/-- What a record keeps of its other entries is a document, under the names of no field. -/
theorem object_of_readOpenRecord {s : Source} {expected : String} {reports : List SlotReport}
    {others : Entries} (h : readOpenRecord expected s reports = .ok others) :
    (Json.object others).WellFormed ∧ (Json.object others).depth ≤ s.reach ∧
      ∀ r ∈ reports, r.name ∉ Entries.keys others := by
  cases s with
  | object entries ending =>
    obtain ⟨-, -, h⟩ := Outcome.bind_eq_ok h
    obtain ⟨j, hj, h⟩ := Outcome.bind_eq_ok h
    have hjson := json_of_readJson hj
    obtain ⟨settings, hsettings, rfl⟩ := exists_of_json_object hjson
    cases h
    refine ⟨wellFormed_of_json hjson, ?_, ?_⟩
    · refine Nat.le_trans (depth_le_reach_of_json hjson) ?_
      rw [reach, reach]
      exact Nat.succ_le_succ (reachOfEntries_filter_le _ entries)
    · intro r hr hname
      obtain ⟨⟨key, value⟩, hmem, rfl⟩ := List.mem_map.1 hname
      obtain ⟨x, hx⟩ := exists_entry_of_jsonOfEntries hsettings
        (Entries.mem_keys (Entries.mem_of_mem_ofSettings hmem))
      have hother := (List.mem_filter.1 hx).2
      rw [Except.toOption, Option.any_some, Bool.not_eq_true', ← Bool.not_eq_true,
        List.contains_iff_mem] at hother
      exact hother (List.mem_map_of_mem hr)
  | null | bool _ | number _ | string _ | array _ _ | broken _ => cases h

end Source
end CalendarRules
