import CalendarRules.Json.Number

/-!
# Documents

The values of a document.  An object is the list of its entries in the order they are shown; readers
build objects whose keys are distinct, and `Entries.insert` keeps them so: a key that is set again
keeps its place and takes the new value.
-/

namespace CalendarRules

inductive Json where
  | null
  | bool (value : Bool)
  | number (value : Number)
  | string (value : String)
  | array (items : List Json)
  | object (entries : List (String × Json))

/-- The entries of an object in order. -/
abbrev Entries := List (String × Json)

namespace Entries

/-- The value under a key. -/
def get? (key : String) : Entries → Option Json
  | [] => none
  | (k, v) :: rest => if k = key then some v else get? key rest

/-- Sets a key: in its place if it is there, else at the end. -/
def insert (key : String) (value : Json) : Entries → Entries
  | [] => [(key, value)]
  | (k, v) :: rest => if k = key then (k, value) :: rest else (k, v) :: insert key value rest

/-- The object with the given settings made one after the other. -/
def ofSettings (settings : List (String × Json)) : Entries :=
  settings.foldl (fun entries setting => insert setting.1 setting.2 entries) []

/-- An entry that is written only if there is a value. -/
def optional (key : String) : Option Json → Entries
  | some value => [(key, value)]
  | none => []

@[simp] theorem insert_nil (key : String) (value : Json) :
    insert key value [] = [(key, value)] := rfl

@[simp] theorem get?_nil (key : String) : get? key [] = none := rfl

theorem get?_insert (key key' : String) (value : Json) (entries : Entries) :
    get? key' (insert key value entries) =
      if key = key' then some value else get? key' entries := by
  induction entries with
  | nil => rfl
  | cons entry rest ih =>
    obtain ⟨k, v⟩ := entry
    by_cases hk : k = key
    · by_cases h : key = key' <;> simp [insert, get?, hk, h]
    · by_cases h : k = key'
      · subst h; simp [insert, get?, hk, Ne.symm hk]
      · simp [insert, get?, hk, h, ih]

end Entries

namespace Json

instance : Inhabited Json := ⟨.null⟩

/-- An integer as a number of a document.  Outside the range of integers there is none. -/
def ofInt (i : Int) : Json := if h : IntegerRange i then .number (.int i h) else .null

def ofNat (n : Nat) : Json := ofInt n

/-- A double as a number of a document.  There is none for an infinity. -/
def ofDouble : Binary64 → Json
  | .finite x => .number (.float x)
  | .infinite _ => .null

/-- A double that may be missing. -/
def ofDouble? (x : Option Binary64) : Json := (x.map ofDouble).getD .null

def isNull : Json → Bool
  | .null => true
  | _ => false

def asString? : Json → Option String
  | .string s => some s
  | _ => none

/-- The value of a number as a double. -/
def asDouble? : Json → Option Finite64
  | .number n => some n.toDouble
  | _ => none

/-! ## Equality

Two documents are equal when their numbers, strings and flags are, their arrays agree item by item
and their objects agree key by key, in whatever order. -/

mutual

def same : Json → Json → Bool
  | .null, .null => true
  | .bool a, .bool b => a == b
  | .number m, .number n => m.same n
  | .string s, .string t => s == t
  | .array xs, .array ys => sameItems xs ys
  | .object xs, .object ys => xs.length == ys.length && sameEntries xs ys
  | _, _ => false

def sameItems : List Json → List Json → Bool
  | [], [] => true
  | x :: xs, y :: ys => same x y && sameItems xs ys
  | _, _ => false

/-- Every entry on the left has an equal under its key on the right. -/
def sameEntries : List (String × Json) → List (String × Json) → Bool
  | [], _ => true
  | (key, x) :: xs, ys =>
    (match Entries.get? key ys with
      | some y => same x y
      | none => false) && sameEntries xs ys

end

/-! ## Nesting -/

mutual

/-- How deep arrays and objects are nested. -/
def depth : Json → Nat
  | .array items => depthOfItems items + 1
  | .object entries => depthOfEntries entries + 1
  | _ => 0

def depthOfItems : List Json → Nat
  | [] => 0
  | x :: xs => max x.depth (depthOfItems xs)

def depthOfEntries : List (String × Json) → Nat
  | [] => 0
  | (_, x) :: xs => max x.depth (depthOfEntries xs)

end

theorem depth_lt_of_mem {x : Json} {items : List Json} (h : x ∈ items) :
    x.depth < (array items).depth := by
  suffices h' : x.depth ≤ depthOfItems items by simp only [depth]; omega
  induction items with
  | nil => cases h
  | cons y ys ih =>
    simp only [depthOfItems]
    rcases List.mem_cons.1 h with rfl | h
    · exact Nat.le_max_left _ _
    · exact Nat.le_trans (ih h) (Nat.le_max_right _ _)

end Json
end CalendarRules
