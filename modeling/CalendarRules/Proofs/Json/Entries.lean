import CalendarRules.Json

/-!
# Objects as lists of entries

The keys of an object, and what setting a key does to them: a new key goes to the end, a known one
stays where it is.  An object made by settings therefore never repeats a key
(`nodup_keys_ofSettings`), and settings that repeat none are kept as they are
(`ofSettings_eq_self`).
-/

namespace CalendarRules
namespace Entries

/-- The keys of an object in order. -/
def keys (entries : Entries) : List String := entries.map Prod.fst

@[simp] theorem keys_nil : keys [] = [] := rfl

@[simp] theorem keys_cons (key : String) (value : Json) (entries : Entries) :
    keys ((key, value) :: entries) = key :: keys entries := rfl

@[simp] theorem keys_append (entries others : Entries) :
    keys (entries ++ others) = keys entries ++ keys others := List.map_append

theorem keys_optional_sublist (key : String) (value : Option Json) :
    (keys (optional key value)).Sublist [key] := by
  cases value with
  | none => exact List.nil_sublist _
  | some v => exact List.Sublist.refl _

theorem mem_keys {key : String} {value : Json} {entries : Entries} (h : (key, value) ∈ entries) :
    key ∈ keys entries := List.mem_map_of_mem h

/-! ## Look-up -/

theorem get?_cons (key key' : String) (value : Json) (entries : Entries) :
    get? key' ((key, value) :: entries) = if key = key' then some value else get? key' entries :=
  rfl

theorem get?_append (key : String) (entries others : Entries) :
    get? key (entries ++ others) = (get? key entries).or (get? key others) := by
  induction entries with
  | nil => rfl
  | cons entry rest ih =>
    obtain ⟨k, v⟩ := entry
    rw [List.cons_append, get?_cons, get?_cons, ih]
    split <;> rfl

theorem get?_optional (key key' : String) (value : Option Json) :
    get? key' (optional key value) = if key = key' then value else none := by
  cases value with
  | none => exact (ite_self none).symm
  | some v => rfl

theorem mem_of_get? {key : String} {value : Json} {entries : Entries}
    (h : get? key entries = some value) : (key, value) ∈ entries := by
  induction entries with
  | nil => cases h
  | cons entry rest ih =>
    obtain ⟨k, v⟩ := entry
    rw [get?_cons] at h
    split at h
    next hk =>
      cases h
      rw [hk]
      exact List.mem_cons_self
    next => exact List.mem_cons_of_mem _ (ih h)

theorem get?_eq_none {key : String} {entries : Entries} (h : key ∉ keys entries) :
    get? key entries = none := by
  cases hvalue : get? key entries with
  | none => rfl
  | some value => exact absurd (mem_keys (mem_of_get? hvalue)) h

/-- In an object that repeats no key, an entry is what is found under its key. -/
theorem get?_of_mem {key : String} {value : Json} {entries : Entries}
    (hn : (keys entries).Nodup) (h : (key, value) ∈ entries) : get? key entries = some value := by
  induction entries with
  | nil => cases h
  | cons entry rest ih =>
    obtain ⟨k, v⟩ := entry
    rw [keys_cons, List.nodup_cons] at hn
    rw [get?_cons]
    rcases List.mem_cons.1 h with heq | h
    · cases heq
      exact if_pos rfl
    · have hk : k ≠ key := by
        rintro rfl
        exact hn.1 (mem_keys h)
      rw [if_neg hk]
      exact ih hn.2 h

/-! ## Setting a key -/

theorem keys_insert (key : String) (value : Json) (entries : Entries) :
    keys (insert key value entries) =
      if key ∈ keys entries then keys entries else keys entries ++ [key] := by
  induction entries with
  | nil => rfl
  | cons entry rest ih =>
    obtain ⟨k, v⟩ := entry
    rw [insert]
    by_cases hk : k = key
    · simp [hk]
    · rw [if_neg hk, keys_cons, ih, keys_cons]
      by_cases hmem : key ∈ keys rest <;> simp [hmem, Ne.symm hk]

theorem insert_of_notMem {key : String} {entries : Entries} (h : key ∉ keys entries)
    (value : Json) : insert key value entries = entries ++ [(key, value)] := by
  induction entries with
  | nil => rfl
  | cons entry rest ih =>
    obtain ⟨k, v⟩ := entry
    rw [keys_cons, List.mem_cons, not_or] at h
    rw [insert, if_neg (Ne.symm h.1), ih h.2, List.cons_append]

theorem nodup_keys_insert {entries : Entries} (h : (keys entries).Nodup) (key : String)
    (value : Json) : (keys (insert key value entries)).Nodup := by
  rw [keys_insert]
  split
  next => exact h
  next hmem =>
    refine List.nodup_append.2 ⟨h, List.nodup_cons.2 ⟨List.not_mem_nil, List.nodup_nil⟩, ?_⟩
    rintro k hk k' hk' rfl
    rw [List.mem_singleton.1 hk'] at hk
    exact hmem hk

theorem mem_of_mem_insert {key : String} {value : Json} {entries : Entries}
    {entry : String × Json} (h : entry ∈ insert key value entries) :
    entry = (key, value) ∨ entry ∈ entries := by
  induction entries with
  | nil => exact Or.inl (List.mem_singleton.1 h)
  | cons first rest ih =>
    obtain ⟨k, v⟩ := first
    rw [insert] at h
    split at h
    next hk =>
      rw [hk] at h
      exact (List.mem_cons.1 h).imp_right (List.mem_cons_of_mem _)
    next =>
      rcases List.mem_cons.1 h with rfl | h
      · exact Or.inr List.mem_cons_self
      · exact (ih h).imp_right (List.mem_cons_of_mem _)

/-! ## Settings -/

/-- The object after further settings. -/
def settled (entries settings : Entries) : Entries :=
  settings.foldl (fun entries setting => insert setting.1 setting.2 entries) entries

theorem ofSettings_eq (settings : Entries) : ofSettings settings = settled [] settings := rfl

theorem nodup_keys_settled (settings : Entries) {entries : Entries} (h : (keys entries).Nodup) :
    (keys (settled entries settings)).Nodup := by
  induction settings generalizing entries with
  | nil => exact h
  | cons setting rest ih => exact ih (nodup_keys_insert h setting.1 setting.2)

theorem mem_of_mem_settled {settings entries : Entries} {entry : String × Json}
    (h : entry ∈ settled entries settings) : entry ∈ settings ∨ entry ∈ entries := by
  induction settings generalizing entries with
  | nil => exact Or.inr h
  | cons setting rest ih =>
    rcases ih h with hrest | h
    · exact Or.inl (List.mem_cons_of_mem _ hrest)
    · refine (mem_of_mem_insert h).imp_left ?_
      rintro rfl
      exact List.mem_cons_self

theorem settled_eq_append {settings entries : Entries}
    (h : (keys (entries ++ settings)).Nodup) : settled entries settings = entries ++ settings := by
  induction settings generalizing entries with
  | nil => exact (List.append_nil _).symm
  | cons setting rest ih =>
    obtain ⟨k, v⟩ := setting
    have hk : k ∉ keys entries := by
      intro hk
      rw [keys_append, keys_cons, List.nodup_append] at h
      exact h.2.2 k hk k List.mem_cons_self rfl
    have hstep : settled entries ((k, v) :: rest) = settled (entries ++ [(k, v)]) rest := by
      rw [← insert_of_notMem hk]
      rfl
    rw [hstep, ih (by rw [List.append_assoc]; exact h), List.append_assoc, List.singleton_append]

/-- An object made by settings repeats no key. -/
theorem nodup_keys_ofSettings (settings : Entries) : (keys (ofSettings settings)).Nodup :=
  nodup_keys_settled settings List.nodup_nil

/-- Its entries are among those that were set. -/
theorem mem_of_mem_ofSettings {settings : Entries} {entry : String × Json}
    (h : entry ∈ ofSettings settings) : entry ∈ settings :=
  (mem_of_mem_settled h).resolve_right List.not_mem_nil

/-- Settings that repeat no key are kept as they are. -/
theorem ofSettings_eq_self {settings : Entries} (h : (keys settings).Nodup) :
    ofSettings settings = settings := by
  have happend : (keys ([] ++ settings)).Nodup := h
  rw [ofSettings_eq, settled_eq_append happend, List.nil_append]

end Entries

namespace Json

theorem depth_lt_of_mem_entries {e : String × Json} {entries : Entries} (h : e ∈ entries) :
    e.2.depth < (object entries).depth := by
  rw [depth]
  induction entries with
  | nil => cases h
  | cons entry rest ih =>
    obtain ⟨key, x⟩ := entry
    rw [depthOfEntries]
    rcases List.mem_cons.1 h with rfl | h
    · exact Nat.lt_succ_of_le (Nat.le_max_left _ _)
    · exact Nat.lt_of_lt_of_le (ih h) (Nat.succ_le_succ (Nat.le_max_right _ _))

end Json
end CalendarRules
