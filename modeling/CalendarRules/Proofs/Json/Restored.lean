import CalendarRules.Proofs.Json.Record
import Mathlib.Data.List.Basic
import Mathlib.Data.List.Forall2

/-!
# What is read back from what was written

A writer says how a value stands in a document, and its reader is to give the value back.  That
cannot be asked of every value of the type: a literal that holds the document of a duration would
come back as a duration.  It is asked of the values that the reader itself has given
(`RestoresBelow`), and there the question is which form of a value captures the document first.

## The induction

The nodes of a declaration are nested without bound, and one reader serves several of them.  So
the property is stated below a depth: what is known of the fields of a record, whose sources are
nested less deep, gives the property of the record.  The document that is written is nested no
deeper than the source that was read, which is what the limit on nesting in a text needs.
-/

namespace CalendarRules
namespace Source

variable {α : Type}

/-- A document from which a value is read back, nested less deep than a bound. -/
structure Restored (read : Source → Except Problem α) (j : Json) (a : α) (bound : Nat) : Prop where
  wellFormed : j.WellFormed
  depth_lt : j.depth < bound
  reads : read (ofJson j) = .ok a

namespace Restored

variable {read : Source → Except Problem α} {j : Json} {a : α} {n : Nat}

theorem mono (h : Restored read j a n) {m : Nat} (hnm : n ≤ m) : Restored read j a m :=
  ⟨h.wellFormed, Nat.lt_of_lt_of_le h.depth_lt hnm, h.reads⟩

/-- A reader that goes on with what was read. -/
theorem map {β : Type} (h : Restored read j a n) (f : α → β) :
    Restored (fun s => do return f (← read s)) j (f a) n :=
  ⟨h.wellFormed, h.depth_lt, congrArg (fun r => r >>= fun b => pure (f b)) h.reads⟩

/-- What a document has to meet to stand in a field. -/
theorem fits (h : Restored read j a n) : j.WellFormed ∧ j.depth < n := ⟨h.wellFormed, h.depth_lt⟩

theorem slot_get (h : Restored read j a n) {es : Entries} {name : String}
    (hn : (Entries.keys es).Nodup) (hj : (name, j) ∈ es) (i : Nat) :
    ((ofJson (.object es)).slot i name fun x _ => read x).get = .ok a :=
  slot_get_object (Entries.get?_of_mem hn hj) h.reads i

theorem optionalSlot_getD (h : Restored read j a n) {es : Entries} {name : String}
    (hn : (Entries.keys es).Nodup) (hj : (name, j) ∈ es) (i : Nat) (absent : α) :
    ((ofJson (.object es)).optionalSlot i name fun x _ => read x).getD absent = .ok a :=
  optionalSlot_getD_object (Entries.get?_of_mem hn hj) h.reads i absent

end Restored

theorem depthOfEntries_lt {es : Entries} {n : Nat} (hpos : 0 < n)
    (h : ∀ e ∈ es, e.2.depth < n) : Json.depthOfEntries es < n := by
  induction es with
  | nil => exact hpos
  | cons e es ih =>
    rw [List.forall_mem_cons] at h
    rw [Json.depthOfEntries]
    exact Nat.max_lt.2 ⟨h.1, ih h.2⟩

theorem depthOfItems_lt {xs : List Json} {n : Nat} (hpos : 0 < n)
    (h : ∀ x ∈ xs, x.depth < n) : Json.depthOfItems xs < n := by
  induction xs with
  | nil => exact hpos
  | cons x xs ih =>
    rw [List.forall_mem_cons] at h
    rw [Json.depthOfItems]
    exact Nat.max_lt.2 ⟨h.1, ih h.2⟩

/-- A record whose fields are fit to stand in it. -/
theorem restored_object {read : Source → Except Problem α} {es : Entries} {a : α} {n : Nat}
    (hpos : 0 < n) (hn : (Entries.keys es).Nodup)
    (hes : ∀ e ∈ es, e.2.WellFormed ∧ e.2.depth < n)
    (hread : (Entries.keys es).Nodup → read (ofJson (.object es)) = .ok a) :
    Restored read (.object es) a (n + 1) where
  wellFormed := Json.wellFormed_object.2 ⟨hn, fun e he => (hes e he).1⟩
  depth_lt := by
    rw [Json.depth]
    exact Nat.succ_lt_succ (depthOfEntries_lt hpos fun e he => (hes e he).2)
  reads := hread hn

theorem restored_array {read : Source → Except Problem α} {xs : List Json} {a : α} {n : Nat}
    (hpos : 0 < n) (hxs : ∀ x ∈ xs, x.WellFormed ∧ x.depth < n)
    (hread : read (ofJson (.array xs)) = .ok a) : Restored read (.array xs) a (n + 1) where
  wellFormed := Json.wellFormed_array.2 fun x hx => (hxs x hx).1
  depth_lt := by
    rw [Json.depth]
    exact Nat.succ_lt_succ (depthOfItems_lt hpos fun x hx => (hxs x hx).2)
  reads := hread

/-! ## Readers that restore -/

/-- What is written for a value read from a source of a document below a depth is read back. -/
def RestoresBelow (n : Nat) (read : Origin → Source → Except Problem α) (write : α → Json) : Prop :=
  ∀ ⦃s : Source⦄, s.Plain → s.depth < n → ∀ (origin : Origin) ⦃a : α⦄, read origin s = .ok a →
    ∀ origin' : Origin, Restored (read origin') (write a) a (s.depth + 1)

namespace RestoresBelow

variable {read : Origin → Source → Except Problem α} {write : α → Json} {s : Source}
  {a absent : α} {i : Nat} {name : String}

theorem mono {n m : Nat} (h : RestoresBelow n read write) (hmn : m ≤ n) :
    RestoresBelow m read write :=
  fun _ hs hlt origin _ ha origin' => h hs (Nat.lt_of_lt_of_le hlt hmn) origin ha origin'

theorem slot (hr : RestoresBelow s.depth read write) (hs : s.Plain) (origin : Origin)
    (h : (s.slot i name fun x _ => read origin x).get = .ok a) (origin' : Origin) :
    Restored (read origin') (write a) a s.depth := by
  obtain ⟨x, hx, hlt, ha⟩ := exists_of_slot_get hs h
  exact (hr hx hlt origin ha origin').mono hlt

theorem optionalSlot (hr : RestoresBelow s.depth read write) (hs : s.Plain) (origin : Origin)
    (h : (s.optionalSlot i name fun x _ => read origin x).getD absent = .ok a)
    (origin' : Origin) : a = absent ∨ Restored (read origin') (write a) a s.depth := by
  refine (exists_of_optionalSlot_getD hs h).imp_right ?_
  rintro ⟨x, hx, hlt, ha⟩
  exact (hr hx hlt origin ha origin').mono hlt

end RestoresBelow

/-! ## Simple values -/

section Simple

variable (n : Nat)

theorem restored_string (text : String) {n : Nat} (hn : 0 < n) :
    Restored readString (.string text) text n := by
  refine ⟨Json.wellFormed_string text, hn, ?_⟩
  rw [ofJson]
  rfl

theorem restores_readString : RestoresBelow n (fun _ => readString) Json.string :=
  fun _ _ _ _ text _ _ => restored_string text (Nat.succ_pos _)

/-- A name is read as what it stands for, and what it stands for keeps the name. -/
theorem restores_name {ofName : String → α} {name : α → String}
    (h : ∀ word, name (ofName word) = word) :
    RestoresBelow n (fun _ s => s.readString.map ofName) fun a => .string (name a) := by
  intro s _ _ _ a ha _
  obtain ⟨word, -, rfl⟩ := Outcome.map_eq_ok ha
  refine ⟨Json.wellFormed_string _, Nat.succ_pos _, ?_⟩
  show (ofJson (.string (name (ofName word)))).readString.map ofName = .ok (ofName word)
  rw [h, ofJson]
  rfl

theorem restored_bool (b : Bool) {n : Nat} (hn : 0 < n) : Restored readBool (.bool b) b n := by
  refine ⟨Json.wellFormed_bool b, hn, ?_⟩
  rw [ofJson]
  rfl

theorem restores_readBool : RestoresBelow n (fun _ => readBool) Json.bool :=
  fun _ _ _ _ b _ _ => restored_bool b (Nat.succ_pos _)

theorem restores_readDouble :
    RestoresBelow n (fun _ => readDouble) fun x => .number (.float x) := by
  intro s _ _ _ a _ _
  refine ⟨Json.wellFormed_number _, Nat.succ_pos _, ?_⟩
  rw [ofJson]
  rfl

/-- An integer of 64 bits with its sign. -/
def SignedRange (i : Int) : Prop := IntegerRange i ∧ i < 9223372036854775808

theorem signedRange_of_readInteger {s : Source} {i : Int} (h : s.readInteger = .ok i) :
    SignedRange i := by
  unfold readInteger at h
  split at h
  next i' hi =>
    split at h
    next hlt =>
      cases h
      exact ⟨hi, hlt⟩
    next => cases h
  next => cases h

/-- An integer that is small enough to be read is. -/
theorem restored_ofInt {i : Int} (hi : SignedRange i) {n : Nat} (hn : 0 < n) :
    Restored readInteger (.ofInt i) i n := by
  rw [Json.ofInt, dif_pos hi.1]
  refine ⟨Json.wellFormed_number _, hn, ?_⟩
  rw [ofJson, readInteger, if_pos hi.2]

theorem restores_readJson : RestoresBelow n (fun _ => readJson) fun j => j := by
  rintro s ⟨j, hj, rfl⟩ _ _ a ha _
  have ha : (ofJson j).readJson = .ok a := ha
  rw [readJson_ofJson hj] at ha
  cases ha
  refine ⟨hj, ?_, readJson_ofJson hj⟩
  rw [depth_ofJson]
  exact Nat.lt_succ_self _

end Simple

/-! ## Lists -/

/-- A list is read item by item. -/
theorem readItems_ofItems {read : Source → Except Problem α} {xs : List Json} {as : List α} :
    readItems none (ofItems xs) (fun x _ => read x) = .ok as ↔
      List.Forall₂ (fun x a => read (ofJson x) = .ok a) xs as := by
  induction xs generalizing as with
  | nil =>
    rw [ofItems, List.forall₂_nil_left_iff]
    constructor
    · intro h
      cases h
      rfl
    · rintro rfl
      rfl
  | cons x xs ih =>
    rw [ofItems, readItems, List.forall₂_cons_left_iff]
    constructor
    · intro h
      obtain ⟨a, ha, h⟩ := Outcome.bind_eq_ok h
      obtain ⟨as', has, h⟩ := Outcome.bind_eq_ok h
      cases h
      exact ⟨a, as', ha, ih.1 has, rfl⟩
    · rintro ⟨a, as', ha, has, rfl⟩
      rw [ha, Outcome.ok_bind, ih.2 has]
      rfl

theorem readList_array {read : Source → Except Problem α} {xs : List Json} {as : List α} :
    readList read (ofJson (.array xs)) = .ok as ↔
      List.Forall₂ (fun x a => read (ofJson x) = .ok a) xs as := by
  rw [ofJson, readList]
  exact readItems_ofItems

/-- What is in a list was read from one of the items. -/
theorem exists_of_readItems {read : Source → Except Problem α} {ending : Option Fault}
    {items : List Source} {as : List α}
    (h : readItems ending items (fun x _ => read x) = .ok as) {a : α} (ha : a ∈ as) :
    ∃ x ∈ items, read x = .ok a := by
  induction items generalizing as with
  | nil =>
    cases ending with
    | none => cases h; cases ha
    | some fault => cases h
  | cons x items ih =>
    obtain ⟨b, hb, h⟩ := Outcome.bind_eq_ok h
    obtain ⟨bs, hbs, h⟩ := Outcome.bind_eq_ok h
    cases h
    rcases List.mem_cons.1 ha with rfl | ha
    · exact ⟨x, List.mem_cons_self, hb⟩
    · obtain ⟨y, hy, hread⟩ := ih hbs ha
      exact ⟨y, List.mem_cons_of_mem _ hy, hread⟩

theorem exists_array_of_readList {read : Source → Except Problem α} {s : Source} {as : List α}
    (h : readList read s = .ok as) :
    ∃ items ending, s = .array items ending ∧ ∀ a ∈ as, ∃ x ∈ items, read x = .ok a := by
  unfold readList at h
  split at h
  next ending items => exact ⟨_, _, rfl, fun a ha => exists_of_readItems h ha⟩
  next => cases h

theorem exists_of_readList {read : Source → Except Problem α} {xs : List Json} {as : List α}
    (h : readList read (ofJson (.array xs)) = .ok as) {a : α} (ha : a ∈ as) :
    ∃ x ∈ xs, read (ofJson x) = .ok a := by
  rw [ofJson, readList, ofItems_eq_map] at h
  obtain ⟨x, hx, hread⟩ := exists_of_readItems h ha
  obtain ⟨j, hj, rfl⟩ := List.mem_map.1 hx
  exact ⟨j, hj, hread⟩

theorem readLenient_array {xs : List Json} (h : (Json.array xs).WellFormed) (f : Json → Option α) :
    (ofJson (.array xs)).readLenient (fun j _ => f j) = .ok (xs.filterMap f) := by
  have hjson := json_ofJson h
  rw [ofJson] at hjson ⊢
  rw [readLenient]
  split
  next fault hf => rw [hjson] at hf; cases hf
  next js hjs =>
    rw [hjson] at hjs
    cases hjs
    have hattach : (xs.attach.map Subtype.val).filterMap f = xs.attach.filterMap fun x => f x.1 :=
      List.filterMap_map
    rw [List.attach_map_subtype_val] at hattach
    rw [hattach]
  next j hne hj => exact absurd (hj.symm.trans hjson) (by intro heq; cases heq; exact hne _ rfl)

/-- An array whose items are restored one by one. -/
theorem restored_readList {read : Source → Except Problem α} {write : α → Json} {as : List α}
    {n : Nat} (hpos : 0 < n) (h : ∀ a ∈ as, Restored read (write a) a n) :
    Restored (readList read) (.array (as.map write)) as (n + 1) := by
  refine restored_array hpos ?_ (readList_array.2 ?_)
  · intro x hx
    obtain ⟨a, ha, rfl⟩ := List.mem_map.1 hx
    exact (h a ha).fits
  · rw [List.forall₂_map_left_iff, List.forall₂_same]
    exact fun a ha => (h a ha).reads

/-- The entries of an array that can be read, each on its own. -/
def readEach (read : Source → Except Problem α) (s : Source) : Except Problem (List α) :=
  s.readLenient fun j _ => (read (ofJson j)).toOption

theorem restored_readEach {read : Source → Except Problem α} {write : α → Json} {as : List α}
    {n : Nat} (hpos : 0 < n) (h : ∀ a ∈ as, Restored read (write a) a n) :
    Restored (readEach read) (.array (as.map write)) as (n + 1) := by
  have hfits : ∀ x ∈ as.map write, x.WellFormed ∧ x.depth < n := by
    intro x hx
    obtain ⟨a, ha, rfl⟩ := List.mem_map.1 hx
    exact (h a ha).fits
  have hread : ∀ a ∈ as, (read (ofJson (write a))).toOption = some a := by
    intro a ha
    rw [(h a ha).reads]
    rfl
  refine restored_array hpos hfits ?_
  rw [readEach, readLenient_array (Json.wellFormed_array.2 fun x hx => (hfits x hx).1),
    List.filterMap_map]
  have hself : as.filterMap (fun a => (read (ofJson (write a))).toOption) = as := by
    rw [List.filterMap_congr hread, List.filterMap_some]
  exact congrArg Except.ok hself

namespace Plain

variable {s : Source}

theorem array (hs : s.Plain) {items : List Source} {ending : Option Fault}
    (h : s = .array items ending) :
    ∃ xs, (∀ x ∈ xs, x.WellFormed ∧ (ofJson x).depth < s.depth) ∧ s = ofJson (.array xs) ∧
      0 < s.depth := by
  obtain ⟨j, hj, rfl⟩ := hs
  cases j with
  | array xs =>
    refine ⟨xs, fun x hx => ⟨Json.wellFormed_array.1 hj x hx, ?_⟩, rfl, ?_⟩
    · rw [depth_ofJson, depth_ofJson]
      exact Json.depth_lt_of_mem hx
    · rw [h, depth_array]
      exact Nat.succ_pos _
  | null | bool _ | number _ | string _ | object _ => rw [ofJson] at h; cases h

theorem readList (hs : s.Plain) {read : Source → Except Problem α} {as : List α}
    (h : readList read s = .ok as) :
    (∀ a ∈ as, ∃ x : Source, x.Plain ∧ x.depth < s.depth ∧ read x = .ok a) ∧ 0 < s.depth := by
  obtain ⟨items, ending, heq, -⟩ := exists_array_of_readList h
  obtain ⟨xs, hxs, rfl, hpos⟩ := hs.array heq
  refine ⟨fun a ha => ?_, hpos⟩
  obtain ⟨x, hx, hread⟩ := exists_of_readList h ha
  exact ⟨ofJson x, plain_ofJson (hxs x hx).1, (hxs x hx).2, hread⟩

theorem readEach (hs : s.Plain) {read : Source → Except Problem α} {as : List α}
    (h : readEach read s = .ok as) :
    (∀ a ∈ as, ∃ x : Source, x.Plain ∧ x.depth < s.depth ∧ read x = .ok a) ∧ 0 < s.depth := by
  have harray : ∃ items ending, s = .array items ending := by
    unfold Source.readEach readLenient at h
    split at h
    next ending items => exact ⟨_, _, rfl⟩
    next => cases h
  obtain ⟨items, ending, heq⟩ := harray
  obtain ⟨xs, hxs, rfl, hpos⟩ := hs.array heq
  rw [Source.readEach, readLenient_array (Json.wellFormed_array.2 fun x hx => (hxs x hx).1)] at h
  cases h
  refine ⟨fun a ha => ?_, hpos⟩
  obtain ⟨x, hx, hsome⟩ := List.mem_filterMap.1 ha
  refine ⟨ofJson x, plain_ofJson (hxs x hx).1, (hxs x hx).2, ?_⟩
  cases hr : read (ofJson x) with
  | error problem => rw [hr] at hsome; cases hsome
  | ok b => rw [hr] at hsome; cases hsome; rfl

end Plain

namespace RestoresBelow

variable {read : Origin → Source → Except Problem α} {write : α → Json} {n : Nat}

theorem list (hr : RestoresBelow n read write) :
    RestoresBelow n (fun origin => readList (read origin)) fun as => .array (as.map write) := by
  intro s hs hlt origin as has origin'
  obtain ⟨hitems, hpos⟩ := hs.readList has
  refine restored_readList hpos fun a ha => ?_
  obtain ⟨x, hx, hdepth, hread⟩ := hitems a ha
  exact (hr hx (Nat.lt_trans hdepth hlt) origin hread origin').mono hdepth

/-- Entries that cannot be read are not written. -/
theorem each (hr : RestoresBelow n read write) :
    RestoresBelow n (fun origin => readEach (read origin)) fun as => .array (as.map write) := by
  intro s hs hlt origin as has origin'
  obtain ⟨hitems, hpos⟩ := hs.readEach has
  refine restored_readEach hpos fun a ha => ?_
  obtain ⟨x, hx, hdepth, hread⟩ := hitems a ha
  exact (hr hx (Nat.lt_trans hdepth hlt) origin hread origin').mono hdepth

end RestoresBelow

/-! ## Fields that may be left out -/

section Optional

variable {read : Source → Except Problem α} {write : α → Json} {s : Source} {v : Option α}
  {i : Nat} {name : String}

theorem readOption_of_ne {x : Source} (h : x ≠ .null) : readOption read x = (read x).map some := by
  unfold readOption
  split
  next => exact absurd rfl h
  next => rfl

theorem ofJson_ne_null {j : Json} (h : j ≠ .null) : ofJson j ≠ .null := by
  cases j with
  | null => exact absurd rfl h
  | bool _ | number _ | string _ | array _ | object _ => rw [ofJson]; intro heq; cases heq

theorem exists_field_of_optionalSlot_option
    (h : (s.optionalSlot i name fun x _ => readOption read x).getD none = .ok v) {a : α}
    (ha : v = some a) : ∃ x, s.field? i name = some x ∧ x.1 ≠ .null ∧ read x.1 = .ok a := by
  subst ha
  rcases exists_field_of_optionalSlot_getD h with h | ⟨x, hx, hread⟩
  · cases h
  · have hnull : x.1 ≠ .null := by
      intro hnull
      rw [hnull] at hread
      cases hread
    rw [readOption_of_ne hnull] at hread
    obtain ⟨b, hb, hsome⟩ := Outcome.map_eq_ok hread
    cases hsome
    exact ⟨x, hx, hnull, hb⟩

theorem exists_of_optionalSlot_option (hs : s.Plain)
    (h : (s.optionalSlot i name fun x _ => readOption read x).getD none = .ok v) {a : α}
    (ha : v = some a) :
    ∃ x : Source, x.Plain ∧ x.depth < s.depth ∧ x ≠ .null ∧ read x = .ok a := by
  obtain ⟨x, hx, hnull, hread⟩ := exists_field_of_optionalSlot_option h ha
  exact ⟨x.1, hs.field? hx, x.2, hnull, hread⟩

theorem RestoresBelow.option {read : Origin → Source → Except Problem α}
    (hr : RestoresBelow s.depth read write) (hs : s.Plain) (origin : Origin)
    (h : (s.optionalSlot i name fun x _ => readOption (read origin) x).getD none = .ok v)
    (origin' : Origin) : ∀ a, v = some a → Restored (read origin') (write a) a s.depth := by
  intro a ha
  obtain ⟨x, hx, hlt, -, hread⟩ := exists_of_optionalSlot_option hs h ha
  exact (hr hx hlt origin hread origin').mono hlt

theorem optionalSlot_option_object {es : Entries} {n : Nat}
    (hj : Entries.get? name es = v.map write)
    (hv : ∀ a, v = some a → Restored read (write a) a n)
    (hnull : ∀ a, v = some a → write a ≠ .null) (i : Nat) :
    ((ofJson (.object es)).optionalSlot i name fun x _ => readOption read x).getD none =
      .ok v := by
  cases v with
  | none => exact optionalSlot_getD_object_of_none hj i none
  | some a =>
    refine optionalSlot_getD_object hj ?_ i none
    rw [readOption_of_ne (ofJson_ne_null (hnull a rfl)), (hv a rfl).reads]
    rfl

theorem fits_optional {n : Nat} (hv : ∀ a, v = some a → Restored read (write a) a n)
    (name : String) :
    ∀ e ∈ Entries.optional name (v.map write), e.2.WellFormed ∧ e.2.depth < n := by
  intro e he
  cases v with
  | none => cases he
  | some a =>
    rw [List.mem_singleton.1 he]
    exact (hv a rfl).fits

end Optional

/-! ## Lists that are not written when they are empty -/

section Nonempty

variable {read : Source → Except Problem (List α)} {as : List α} {j : Json} {n : Nat}
  {name : String}

theorem optionalSlot_nonempty_object {es : Entries}
    (hj : Entries.get? name es = if as.isEmpty then none else some j)
    (has : as ≠ [] → Restored read j as n) (i : Nat) :
    ((ofJson (.object es)).optionalSlot i name fun x _ => read x).getD [] = .ok as := by
  by_cases hempty : as = []
  · rw [hempty] at hj ⊢
    exact optionalSlot_getD_object_of_none hj i []
  · rw [if_neg (hempty ∘ List.isEmpty_iff.1)] at hj
    exact optionalSlot_getD_object hj (has hempty).reads i []

theorem fits_nonempty (has : as ≠ [] → Restored read j as n) (name : String) :
    ∀ e ∈ Entries.optional name (if as.isEmpty then none else some j),
      e.2.WellFormed ∧ e.2.depth < n := by
  by_cases hempty : as = []
  · rw [if_pos (List.isEmpty_iff.2 hempty)]
    exact List.forall_mem_nil _
  · rw [if_neg (hempty ∘ List.isEmpty_iff.1)]
    exact List.forall_mem_singleton.2 (has hempty).fits

end Nonempty

end Source
end CalendarRules
