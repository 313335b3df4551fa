import CalendarRules.Time.Zone

/-!
# Zones that a database knows

A known zone has the name that it was looked up by.  Universal time is known as `UTC`, and its
clocks are never ahead.  Outside leap seconds clocks show the local time.
-/

namespace CalendarRules
namespace Zone

theorem localTime_universal (seconds : Int) : universal.localTime seconds = seconds :=
  Int.add_zero seconds

theorem notMem_name_universal : ∀ mark ∈ ['\n', ':', ';'], mark ∉ universal.name.toList := by
  simp [universal]

theorem clock_of_not_isLeap (z : Zone) {t : Instant} (h : t.isLeap = false) :
    z.clock t = z.localTime t.seconds := by
  rw [clock, h, if_neg Bool.false_ne_true, Int.add_zero]

section Known

variable [TimeZones] {z : Zone} {name : String}

theorem ofName?_utc : ofName? "UTC" = some universal := by
  rw [ofName?, TimeZones.utc]
  rfl

theorem name_of_ofName? (h : ofName? name = some z) : z.name = name := by
  obtain ⟨offset, -, rfl⟩ := Option.map_eq_some_iff.1 h
  rfl

theorem notMem_name (h : ofName? name = some z) {mark : Char} (hmark : mark ∈ ['\n', ':', ';']) :
    mark ∉ z.name.toList := by
  rw [name_of_ofName? h]
  refine TimeZones.plain name ?_ mark hmark
  obtain ⟨offset, hoffset, -⟩ := Option.map_eq_some_iff.1 h
  rw [hoffset]
  rfl

end Known

end Zone
end CalendarRules
