import CalendarRules.Proofs.Time.Zone
import CalendarRules.Time.YearlyZone
import Mathlib.Data.List.Nodup

/-!
# Clocks with yearly rules

The clocks of a zone with a yearly rule are ahead of universal time by its standard offset, and
while daylight saving is in force by what is saved on top of that.  An instant is one of those that
belong to a local time exactly if the clocks show that time (`YearlyZone.mem_instantsAt_iff`), so a
local time that belongs to a single instant tells which one it is.

In the zones of the table, all offsets are whole minutes and less than a day apart.
-/

namespace CalendarRules
namespace YearlyZone

variable {z : YearlyZone}

/-- Seconds by which the clocks go forward, none without daylight saving. -/
def saving (z : YearlyZone) : Nat := z.daylight.elim 0 Daylight.saving

theorem offset_eq (z : YearlyZone) (seconds : Int) :
    z.offset seconds = z.standard ∨ z.offset seconds = z.standard + z.saving := by
  unfold offset saving
  cases z.daylight with
  | none => exact .inl rfl
  | some d =>
    simp only [Option.elim]
    split
    · exact .inr rfl
    · exact .inl rfl

theorem offset_mem_offsets (z : YearlyZone) (seconds : Int) : z.offset seconds ∈ z.offsets := by
  unfold offset offsets
  cases z.daylight with
  | none => exact List.mem_singleton_self _
  | some d =>
    simp only
    split
    · exact .head _
    · exact .tail _ (.head _)

theorem localTime_eq (z : YearlyZone) (seconds : Int) :
    z.zone.localTime seconds = seconds + z.offset seconds :=
  rfl

theorem mem_instantsAt_iff {localTime t : Int} :
    t ∈ z.instantsAt localTime ↔ z.zone.localTime t = localTime := by
  refine ⟨mem_instantsAt, fun h => ?_⟩
  have hback : localTime - z.offset t = t := by
    rw [localTime_eq] at h
    omega
  rw [instantsAt, List.mem_filter, List.mem_map]
  exact ⟨⟨z.offset t, offset_mem_offsets z t, hback⟩, decide_eq_true h⟩

/-- The only instant of what the clocks show at an instant is that instant. -/
theorem eq_of_instantsAt_localTime {t t' : Int} (h : z.instantsAt (z.zone.localTime t) = [t']) :
    t' = t := by
  have hmem : t ∈ z.instantsAt (z.zone.localTime t) := mem_instantsAt_iff.2 rfl
  rw [h, List.mem_singleton] at hmem
  exact hmem.symm

/-- Clocks show a local time exactly once if it belongs to a single instant. -/
theorem existsUnique_localTime_iff (hz : ∀ d ∈ z.daylight, 0 < d.saving) {localTime : Int} :
    (∃! t, z.zone.localTime t = localTime) ↔ ∃ t, z.instantsAt localTime = [t] := by
  have hoffsets : z.offsets.Nodup := by
    unfold offsets
    cases hd : z.daylight with
    | none => exact List.nodup_singleton _
    | some d =>
      have hsaving := hz d hd
      rw [List.nodup_cons, List.mem_singleton]
      exact ⟨by omega, List.nodup_singleton _⟩
  constructor
  · rintro ⟨t, ht, hunique⟩
    have hnodup : (z.instantsAt localTime).Nodup := by
      refine (hoffsets.map fun a b hab => ?_).filter _
      omega
    refine ⟨t, List.perm_singleton.1 ?_⟩
    rw [List.perm_ext_iff_of_nodup hnodup (List.nodup_singleton t)]
    intro t'
    rw [mem_instantsAt_iff, List.mem_singleton]
    constructor
    · exact hunique t'
    · rintro rfl
      exact ht
  · rintro ⟨t, ht⟩
    refine ⟨t, mem_instantsAt_iff.1 (ht ▸ List.mem_singleton_self t), fun t' ht' => ?_⟩
    exact List.mem_singleton.1 (ht ▸ mem_instantsAt_iff.2 ht')

/-! ## Universal time -/

def universal : YearlyZone := ⟨"UTC", 0, none⟩

theorem instantsAt_universal (localTime : Int) : universal.instantsAt localTime = [localTime] := by
  simp [instantsAt, offsets, offset, universal]

/-! ## The table -/

theorem universal_mem_table : universal ∈ table := .head _

theorem zone_of_ofName? {name : String} {known : Zone} (h : Zone.ofName? name = some known) :
    ∃ z, ofName? name = some z ∧ known = z.zone := by
  obtain ⟨offset, hoffset, rfl⟩ := Option.map_eq_some_iff.1 h
  obtain ⟨z, hz, rfl⟩ := Option.map_eq_some_iff.1 hoffset
  exact ⟨z, hz, by rw [zone, name_of_ofName? hz]⟩

theorem saving_lt_day : ∀ z ∈ table, z.saving < 86400 := by
  decide

theorem offset_mod_minute (hz : z ∈ table) (seconds : Int) : z.offset seconds % 60 = 0 := by
  have hwhole : ∀ z ∈ table, z.standard % 60 = 0 ∧ z.saving % 60 = 0 := by decide
  obtain ⟨hstandard, hsaving⟩ := hwhole z hz
  rcases offset_eq z seconds with h | h <;> omega

end YearlyZone
end CalendarRules
