import CalendarRules.Json
import CalendarRules.Json.Fault

/-!
# Documents as they were written

A `Source` is what a text says before anything is made of it: the entries of an object in order,
repeated keys included, and the places where the text breaks.  It exists because readers report the
first problem that they meet on their way through the text, and what they meet depends on what they
look for: a string where a number is wanted comes to light before a missing bracket further on,
and a number too large for a double matters only to who reads it.

## Where the text breaks

After a place where the text cannot be followed there is nothing more in the tree: an array or
object that breaks between two parts says so in its `ending`, and a part that breaks is a `broken`
node, after which its container ends.  Readers go through a tree in the order of the text, so that
they meet the break where the text has it.
-/

namespace CalendarRules

inductive Source where
  | null
  | bool (value : Bool)
  | number (value : Number)
  | string (value : String)
  | array (items : List Source) (ending : Option Fault)
  | object (entries : List (Except Break String × Source)) (ending : Option Fault)
  | broken (place : Break)

namespace Source

instance : Inhabited Source := ⟨.null⟩

/-- An entry of an object.  Its key may be a broken string, or something else than a string; if the
text cannot be followed past such a key, the entry holds what stands there. -/
abbrev Entry := Except Break String × Source

/-! ## Nesting -/

mutual

/-- How deep arrays and objects are nested. -/
def depth : Source → Nat
  | .array items _ => depthOfItems items + 1
  | .object entries _ => depthOfEntries entries + 1
  | _ => 0

def depthOfItems : List Source → Nat
  | [] => 0
  | x :: xs => max x.depth (depthOfItems xs)

def depthOfEntries : List (Except Break String × Source) → Nat
  | [] => 0
  | (_, x) :: xs => max x.depth (depthOfEntries xs)

end

@[simp] theorem depth_array (items : List Source) (ending : Option Fault) :
    (array items ending).depth = depthOfItems items + 1 := by simp only [depth]

@[simp] theorem depth_object (entries : List Entry) (ending : Option Fault) :
    (object entries ending).depth = depthOfEntries entries + 1 := by simp only [depth]

@[simp] theorem depthOfItems_cons (x : Source) (xs : List Source) :
    depthOfItems (x :: xs) = max x.depth (depthOfItems xs) := by simp only [depthOfItems]

@[simp] theorem depthOfEntries_cons (key : Except Break String) (x : Source) (xs : List Entry) :
    depthOfEntries ((key, x) :: xs) = max x.depth (depthOfEntries xs) := by
  simp only [depthOfEntries]

theorem depthOfEntries_filter_le (p : Entry → Bool) (entries : List Entry) :
    depthOfEntries (entries.filter p) ≤ depthOfEntries entries := by
  induction entries with
  | nil => exact Nat.le_refl _
  | cons entry rest ih =>
    obtain ⟨key, x⟩ := entry
    rw [List.filter_cons]
    split <;> simp only [depthOfEntries_cons] <;> omega

/-! ## What a source denotes -/

mutual

/-- The document that a source denotes: of a repeated key the last value counts. -/
def json : Source → Except Fault Json
  | .null => .ok .null
  | .bool b => .ok (.bool b)
  | .number n => .ok (.number n)
  | .string s => .ok (.string s)
  | .array items ending => do
    let items ← jsonOfItems items
    match ending with
    | some fault => .error fault
    | none => .ok (.array items)
  | .object entries ending => do
    let settings ← jsonOfEntries entries
    match ending with
    | some fault => .error fault
    | none => .ok (.object (Entries.ofSettings settings))
  | .broken place => .error place.reading

def jsonOfItems : List Source → Except Fault (List Json)
  | [] => .ok []
  | x :: xs => do
    let x ← x.json
    let xs ← jsonOfItems xs
    return x :: xs

def jsonOfEntries : List (Except Break String × Source) → Except Fault (List (String × Json))
  | [] => .ok []
  | (.error place, _) :: _ => .error place.reading
  | (.ok key, x) :: xs => do
    let x ← x.json
    let xs ← jsonOfEntries xs
    return (key, x) :: xs

end

mutual

/-- What stops a reader that only wants to get past a source. -/
def obstacle? : Source → Option Fault
  | .array items ending => (obstacleInItems? items).or ending
  | .object entries ending => (obstacleInEntries? entries).or ending
  | .broken place => place.skipping
  | _ => none

def obstacleInItems? : List Source → Option Fault
  | [] => none
  | x :: xs => x.obstacle?.or (obstacleInItems? xs)

def obstacleInEntries? : List (Except Break String × Source) → Option Fault
  | [] => none
  | (.error place, x) :: xs => (place.skipping.or x.obstacle?).or (obstacleInEntries? xs)
  | (.ok _, x) :: xs => x.obstacle?.or (obstacleInEntries? xs)

end

mutual

/-- A document as the source that denotes it. -/
def ofJson : Json → Source
  | .null => .null
  | .bool b => .bool b
  | .number n => .number n
  | .string s => .string s
  | .array items => .array (ofItems items) none
  | .object entries => .object (ofEntries entries) none

def ofItems : List Json → List Source
  | [] => []
  | x :: xs => ofJson x :: ofItems xs

def ofEntries : List (String × Json) → List (Except Break String × Source)
  | [] => []
  | (key, x) :: xs => (.ok key, ofJson x) :: ofEntries xs

end

/-! ## A document is nested no deeper than its source -/

mutual

theorem depth_ofJson : ∀ j : Json, (ofJson j).depth = j.depth
  | .null | .bool _ | .number _ | .string _ => by simp only [ofJson, depth, Json.depth]
  | .array items => by simp only [ofJson, depth, Json.depth, depthOfItems_ofItems items]
  | .object entries => by simp only [ofJson, depth, Json.depth, depthOfEntries_ofEntries entries]

theorem depthOfItems_ofItems : ∀ xs : List Json, depthOfItems (ofItems xs) = Json.depthOfItems xs
  | [] => by simp only [ofItems, depthOfItems, Json.depthOfItems]
  | x :: xs => by
    simp only [ofItems, depthOfItems, Json.depthOfItems, depth_ofJson x, depthOfItems_ofItems xs]

theorem depthOfEntries_ofEntries :
    ∀ xs : List (String × Json), depthOfEntries (ofEntries xs) = Json.depthOfEntries xs
  | [] => by simp only [ofEntries, depthOfEntries, Json.depthOfEntries]
  | (_, x) :: xs => by
    simp only [ofEntries, depthOfEntries, Json.depthOfEntries, depth_ofJson x,
      depthOfEntries_ofEntries xs]

end

theorem depthOfEntries_insert_le (key : String) (value : Json) (entries : Entries) :
    Json.depthOfEntries (Entries.insert key value entries) ≤
      max (Json.depthOfEntries entries) value.depth := by
  induction entries with
  | nil => simp [Entries.insert, Json.depthOfEntries]
  | cons entry rest ih =>
    obtain ⟨k, v⟩ := entry
    simp only [Entries.insert]
    split <;> simp only [Json.depthOfEntries] <;> omega

theorem depthOfEntries_ofSettings_le (settings : List (String × Json)) :
    Json.depthOfEntries (Entries.ofSettings settings) ≤ Json.depthOfEntries settings := by
  suffices h : ∀ (settings entries : List (String × Json)),
      Json.depthOfEntries
          (settings.foldl (fun entries setting => Entries.insert setting.1 setting.2 entries)
            entries)
        ≤ max (Json.depthOfEntries entries) (Json.depthOfEntries settings) by
    simpa [Entries.ofSettings, Json.depthOfEntries] using h settings []
  intro settings
  induction settings with
  | nil => intro entries; simp [Json.depthOfEntries]
  | cons setting rest ih =>
    intro entries
    obtain ⟨k, v⟩ := setting
    have h1 := ih (Entries.insert k v entries)
    have h2 := depthOfEntries_insert_le k v entries
    simp only [List.foldl_cons, Json.depthOfEntries] at h1 ⊢
    omega

mutual

theorem depth_le_of_json : ∀ {s : Source} {j : Json}, s.json = .ok j → j.depth ≤ s.depth
  | .null, _, h | .bool _, _, h | .number _, _, h | .string _, _, h => by
    simp only [json, Except.ok.injEq] at h; subst h; simp [Json.depth]
  | .broken _, _, h => by simp [json] at h
  | .array items ending, j, h => by
    simp only [json] at h
    cases hi : jsonOfItems items with
    | error e => rw [hi] at h; simp [bind, Except.bind] at h
    | ok xs =>
      rw [hi] at h
      have := depthOfItems_le_of_json hi
      cases ending with
      | some f => simp [bind, Except.bind] at h
      | none =>
        simp only [bind, Except.bind, Except.ok.injEq] at h
        subst h
        simp only [Json.depth, depth]
        omega
  | .object entries ending, j, h => by
    simp only [json] at h
    cases hi : jsonOfEntries entries with
    | error e => rw [hi] at h; simp [bind, Except.bind] at h
    | ok xs =>
      rw [hi] at h
      have := depthOfEntries_le_of_json hi
      have := depthOfEntries_ofSettings_le xs
      cases ending with
      | some f => simp [bind, Except.bind] at h
      | none =>
        simp only [bind, Except.bind, Except.ok.injEq] at h
        subst h
        simp only [Json.depth, depth]
        omega

theorem depthOfItems_le_of_json : ∀ {xs : List Source} {ys : List Json},
    jsonOfItems xs = .ok ys → Json.depthOfItems ys ≤ depthOfItems xs
  | [], _, h => by simp only [jsonOfItems, Except.ok.injEq] at h; subst h; simp [Json.depthOfItems]
  | x :: xs, ys, h => by
    simp only [jsonOfItems] at h
    cases hx : x.json with
    | error e => rw [hx] at h; simp [bind, Except.bind] at h
    | ok y =>
      rw [hx] at h
      cases hxs : jsonOfItems xs with
      | error e => rw [hxs] at h; simp [bind, Except.bind] at h
      | ok ys' =>
        rw [hxs] at h
        have h1 := depth_le_of_json hx
        have h2 := depthOfItems_le_of_json hxs
        simp only [bind, Except.bind, pure, Except.pure, Except.ok.injEq] at h
        subst h
        simp only [Json.depthOfItems, depthOfItems]
        omega

theorem depthOfEntries_le_of_json :
    ∀ {xs : List (Except Break String × Source)} {ys : List (String × Json)},
      jsonOfEntries xs = .ok ys → Json.depthOfEntries ys ≤ depthOfEntries xs
  | [], _, h => by
    simp only [jsonOfEntries, Except.ok.injEq] at h; subst h; simp [Json.depthOfEntries]
  | (.error _, _) :: _, _, h => by simp [jsonOfEntries] at h
  | (.ok key, x) :: xs, ys, h => by
    simp only [jsonOfEntries] at h
    cases hx : x.json with
    | error e => rw [hx] at h; simp [bind, Except.bind] at h
    | ok y =>
      rw [hx] at h
      cases hxs : jsonOfEntries xs with
      | error e => rw [hxs] at h; simp [bind, Except.bind] at h
      | ok ys' =>
        rw [hxs] at h
        have h1 := depth_le_of_json hx
        have h2 := depthOfEntries_le_of_json hxs
        simp only [bind, Except.bind, pure, Except.pure, Except.ok.injEq] at h
        subst h
        simp only [Json.depthOfEntries, depthOfEntries]
        omega

end

end Source
end CalendarRules
