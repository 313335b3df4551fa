import CalendarRules.Json.Parser
import CalendarRules.Json.Problem

/-!
# Reading records, variants and lists

Readers turn a `Source` into a value of some type, or report the first problem on the way through
the text.  This module has the shapes that they share.

## Records

A record is written as an object, whose keys name its fields, or as an array, which lists the fields
in the order of their declaration.  `Source.slot` finds one field and reads it; `checkRecord` then
goes through the record in the order of the text and settles which problem comes first.  In an
object, keys that name no field are passed over, and a key that names one twice is a problem.  A
field that need not be there may be left out, in an array only at the end.

## Variants

A variant record carries its name under the key `type`, or as the first item of its array form;
`readTagged` splits the name off.

## Origins

A source may come straight from a text, from a value that was read before, or from a part that was
set aside until the name of its variant, or the form of its value, is settled.  The three differ in
little: how they object to an array that is too long, and how the name of a variant may be
written.
-/

namespace CalendarRules

/-- Where a source comes from. -/
inductive Origin where
  /-- Straight from a text. -/
  | text
  /-- From a value that was read before. -/
  | value
  /-- From a part that was set aside. -/
  | aside
  deriving DecidableEq

namespace Source

/-- A broken part anywhere in a source is a problem for who needs the whole of it. -/
def check (s : Source) : Except Problem Unit :=
  match s.json with
  | .ok _ => .ok ()
  | .error fault => .error (.fault fault)

/-- Sets a source aside, which needs the whole of it. -/
def setAside (s : Source) (origin : Origin) : Except Problem Unit :=
  if origin = .text then s.check else .ok ()

/-! ## Simple values -/

def readString : Source → Except Problem String
  | .string s => .ok s
  | s => .error (s.unexpected "a string")

def readBool : Source → Except Problem Bool
  | .bool b => .ok b
  | s => .error (s.unexpected "a boolean")

/-- Any number, as a double. -/
def readDouble : Source → Except Problem Finite64
  | .number n => .ok n.toDouble
  | s => .error (s.unexpected "f64")

/-- An integer of 64 bits with its sign. -/
def readInteger : Source → Except Problem Int
  | .number (.int i _) =>
    if i < 9223372036854775808 then .ok i else .error (.mismatch (.invalidValue (.integer i) "i64"))
  | s => .error (s.unexpected "i64")

/-- Any value at all. -/
def readJson (s : Source) : Except Problem Json :=
  match s.json with
  | .ok j => .ok j
  | .error fault => .error (.fault fault)

/-- An object with any keys. -/
def readEntries (s : Source) : Except Problem Entries :=
  match s with
  | .object _ _ => do
    match ← s.readJson with
    | .object entries => return entries
    | _ => return []
  | s => .error (s.unexpected "a map")

/-- A value that may be `null`. -/
def readOption {α : Type} (read : Source → Except Problem α) : Source → Except Problem (Option α)
  | .null => .ok none
  | s => (read s).map some

/-! ## Lists -/

/-- The items of an array one after the other. -/
def readItems {α : Type} (ending : Option Fault) :
    (items : List Source) → ((x : Source) → x ∈ items → Except Problem α) → Except Problem (List α)
  | [], _ =>
    match ending with
    | some fault => .error (.fault fault)
    | none => .ok []
  | x :: xs, read => do
    let a ← read x (.head xs)
    let as ← readItems ending xs fun y h => read y (.tail x h)
    return a :: as

/-- An array whose items are all read alike. -/
def readList {α : Type} (read : Source → Except Problem α) : Source → Except Problem (List α)
  | .array items ending => readItems ending items fun x _ => read x
  | s => .error (s.unexpected "a sequence")

/-- An array read entry by entry, where an entry that cannot be read is left out.  The entries are
read as values of their own. -/
def readLenient {α : Type} (s : Source) (read : (j : Json) → j.depth < s.depth → Option α) :
    Except Problem (List α) :=
  match s with
  | .array items ending =>
    match h : (array items ending).json with
    | .error fault => .error (.fault fault)
    | .ok (.array js) => .ok <| js.attach.filterMap fun ⟨j, hj⟩ => read j <| by
        have h1 := depth_le_of_json h
        have h2 := Json.depth_lt_of_mem hj
        omega
    | .ok _ => .ok []
  | s => .error (s.unexpected "a sequence")

/-! ## Records -/

/-- The first value under a key. -/
def entryNamed? (name : String) :
    (entries : List Entry) → Option { x : Source // x.depth ≤ depthOfEntries entries }
  | [] => none
  | (key, x) :: rest =>
    if key.toOption == some name then
      some ⟨x, by rw [depthOfEntries_cons]; exact Nat.le_max_left _ _⟩
    else (entryNamed? name rest).map fun y =>
      ⟨y.1, by rw [depthOfEntries_cons]; exact Nat.le_trans y.2 (Nat.le_max_right _ _)⟩

/-- The item at a position. -/
def itemAt? : (items : List Source) → Nat → Option { x : Source // x.depth ≤ depthOfItems items }
  | [], _ => none
  | x :: _, 0 => some ⟨x, by rw [depthOfItems_cons]; exact Nat.le_max_left _ _⟩
  | x :: xs, i + 1 => (itemAt? xs i).map fun y =>
      ⟨y.1, by rw [depthOfItems_cons]; exact Nat.le_trans y.2 (Nat.le_max_right _ _)⟩

/-- The value of a field: under its name in an object, at its position in an array. -/
def field? (s : Source) (index : Nat) (name : String) :
    Option { x : Source // x.depth < s.depth } :=
  match s with
  | .object entries _ => (entryNamed? name entries).map fun x =>
      ⟨x.1, by rw [depth_object]; exact Nat.lt_succ_of_le x.2⟩
  | .array items _ => (itemAt? items index).map fun x =>
      ⟨x.1, by rw [depth_array]; exact Nat.lt_succ_of_le x.2⟩
  | _ => none

end Source

/-- A field of a record, and what came of reading it if it is there. -/
structure Slot (α : Type) where
  name : String
  required : Bool
  outcome : Option (Except Problem α)

namespace Slot

variable {α : Type}

/-- The value of a field that has to be there. -/
def get (slot : Slot α) : Except Problem α :=
  slot.outcome.getD (.error (.mismatch (.missingField slot.name)))

/-- The value of a field that may be left out. -/
def getD (slot : Slot α) (absent : α) : Except Problem α := slot.outcome.getD (.ok absent)

end Slot

/-- A slot without its value. -/
structure SlotReport where
  name : String
  required : Bool
  present : Bool
  problem : Option Problem

def Slot.report {α : Type} (slot : Slot α) : SlotReport where
  name := slot.name
  required := slot.required
  present := slot.outcome.isSome
  problem := match slot.outcome with
    | some (.error problem) => some problem
    | _ => none

namespace Source

/-- Finds a field that has to be there and reads it. -/
def slot {α : Type} (s : Source) (index : Nat) (name : String)
    (read : (x : Source) → x.depth < s.depth → Except Problem α) : Slot α :=
  ⟨name, true, (s.field? index name).map fun x => read x.1 x.2⟩

/-- Finds a field that may be left out and reads it. -/
def optionalSlot {α : Type} (s : Source) (index : Nat) (name : String)
    (read : (x : Source) → x.depth < s.depth → Except Problem α) : Slot α :=
  ⟨name, false, (s.field? index name).map fun x => read x.1 x.2⟩

/-- Gets past a source without making anything of it. -/
def skip (s : Source) : Except Problem Unit :=
  match s.obstacle? with
  | some fault => .error (.fault fault)
  | none => .ok ()

/-- Goes through the entries of a record written as an object.  `seen` are the fields met so far,
and `pass` gets past the value of any other key. -/
def checkEntries (pass : Source → Except Problem Unit) (reports : List SlotReport)
    (ending : Option Fault) : List String → List Entry → Except Problem Unit
  | seen, [] =>
    match ending with
    | some fault => .error (.fault fault)
    | none =>
      match reports.find? fun r => r.required && !seen.contains r.name with
      | some r => .error (.mismatch (.missingField r.name))
      | none => .ok ()
  | _, (.error place, _) :: _ => .error (.fault place.reading)
  | seen, (.ok key, x) :: rest =>
    match reports.find? fun r => r.name == key with
    | none =>
      match pass x with
      | .error problem => .error problem
      | .ok () => checkEntries pass reports ending seen rest
    | some r =>
      if seen.contains key then .error (.mismatch (.duplicateField key))
      else match r.problem with
        | some problem => .error problem
        | none => checkEntries pass reports ending (key :: seen) rest

/-- `n elements`, or `1 element`. -/
def elements (n : Nat) : String := toString n ++ (if n = 1 then " element" else " elements")

/-- What is wrong with an array of `length` items where a record of `count` fields is wanted. -/
def tooLong (origin : Origin) (length count : Nat) : Problem :=
  match origin with
  | .text => .fault .malformed
  | .value => .mismatch (.invalidLength length "fewer elements in array")
  | .aside => .mismatch (.invalidLength length (elements count ++ " in sequence"))

/-- Goes through the items of a record written as an array, from the one at `index` on. -/
def checkItems (origin : Origin) (expected : String) (count : Nat) (ending : Option Fault) :
    Nat → List SlotReport → List Source → Except Problem Unit
  | index, [], items =>
    if items.isEmpty then
      match ending with
      | some fault => .error (.fault fault)
      | none => .ok ()
    else .error (tooLong origin (index + items.length) count)
  | index, r :: rs, [] =>
    match ending with
    | some fault => .error (.fault fault)
    | none =>
      if r.required then
        .error (.mismatch (.invalidLength index (expected ++ " with " ++ elements count)))
      else checkItems origin expected count ending (index + 1) rs []
  | index, r :: rs, _ :: items =>
    match r.problem with
    | some problem => .error problem
    | none => checkItems origin expected count ending (index + 1) rs items

/-- Settles whether a record can be read, and if not, which problem comes first.  The reports are in
the order of the fields' declaration. -/
def checkRecord (origin : Origin) (expected : String) (s : Source) (reports : List SlotReport) :
    Except Problem Unit :=
  match s with
  | .object entries ending => checkEntries skip reports ending [] entries
  | .array items ending => checkItems origin expected reports.length ending 0 reports items
  | s => .error (s.unexpected expected)

/-- Settles the same for a record that keeps the values of its other keys, and gives their entries.
Such a record cannot be written as an array. -/
def readOpenRecord (expected : String) (s : Source) (reports : List SlotReport) :
    Except Problem Entries :=
  match s with
  | .object entries ending => do
    checkEntries check reports ending [] entries
    let names := reports.map SlotReport.name
    let others := entries.filter fun entry => !entry.1.toOption.any names.contains
    match ← (object others none).readJson with
    | .object entries => return entries
    | _ => return []
  | s => .error (s.unexpected expected)

/-! ## Variants -/

/-- The names of the variants of a type. -/
structure Variants where
  names : List String
  /-- Other names are accepted too, as one more variant. -/
  others : Bool

/-- The variant that a source names; `none` is the variant of all other names.  In a part that was
set aside the position of a variant may stand for its name. -/
def readVariant (origin : Origin) (variants : Variants) : Source → Except Problem (Option String)
  | .string name =>
    if variants.names.contains name then .ok (some name)
    else if variants.others then .ok none
    else .error (.mismatch (.unknownVariant name variants.names))
  | .number (.int i h) =>
    if origin = .aside && 0 ≤ i then
      match variants.names[i.toNat]? with
      | some name => .ok (some name)
      | none =>
        if variants.others then .ok none
        else .error (.mismatch (.invalidValue (.integer i)
          ("variant index 0 <= i < " ++ toString variants.names.length)))
    else .error ((number (.int i h)).unexpected "variant identifier")
  | s => .error (s.unexpected "variant identifier")

/-- A variant record without the name of its variant. -/
structure Tagged (s : Source) where
  variant : Option String
  body : Source
  depth_le : body.depth ≤ s.depth

/-- Is not the key that names the variant. -/
def isBodyEntry (entry : Entry) : Bool := !(entry.1.toOption == some "type")

/-- Goes through the entries of a variant record and finds the name of its variant. -/
def findVariant (origin : Origin) (variants : Variants) (ending : Option Fault) :
    Option (Option String) → List Entry → Except Problem (Option String)
  | variant, [] =>
    match ending, variant with
    | some fault, _ => .error (.fault fault)
    | none, some variant => .ok variant
    | none, none => .error (.mismatch (.missingField "type"))
  | _, (.error place, _) :: _ => .error (.fault place.reading)
  | variant, (.ok key, x) :: rest =>
    if key = "type" then
      match variant with
      | some _ => .error (.mismatch (.duplicateField "type"))
      | none =>
        match readVariant origin variants x with
        | .ok variant => findVariant origin variants ending (some variant) rest
        | .error problem => .error problem
    else
      match x.setAside origin with
      | .ok () => findVariant origin variants ending variant rest
      | .error problem => .error problem

/-- Splits the name of its variant off a variant record.  The rest is set aside. -/
def readTagged (origin : Origin) (expected : String) (variants : Variants) (s : Source) :
    Except Problem (Tagged s) :=
  match s with
  | .object entries ending => do
    let variant ← findVariant origin variants ending none entries
    return ⟨variant, .object (entries.filter isBodyEntry) none, by
      simp only [depth_object]
      have := depthOfEntries_filter_le isBodyEntry entries
      omega⟩
  | .array [] ending =>
    match ending with
    | some fault => .error (.fault fault)
    | none => .error (.mismatch (.missingField "type"))
  | .array (tag :: items) ending => do
    let variant ← readVariant origin variants tag
    (array items ending).setAside origin
    return ⟨variant, .array items none, by simp only [depth_array, depthOfItems_cons]; omega⟩
  | s => .error (s.unexpected ("internally tagged enum " ++ expected))

/-- The body of a variant without fields may hold anything by name, but nothing by position. -/
def checkNoFields : Source → Except Problem Unit
  | .array [] _ => .ok ()
  | .array items _ => .error (tooLong .aside items.length 0)
  | _ => .ok ()

/-! ## Names -/

/-- One of a few names: as a string, or as the only key of an object whose value says nothing. -/
def readName (origin : Origin) (names : List String) (s : Source) : Except Problem String :=
  let known (name : String) : Except Problem String :=
    if names.contains name then .ok name
    else .error (.mismatch (.unknownVariant name names))
  let notSingle : Problem := .mismatch (.invalidValue .map "map with a single key")
  match s with
  | .string name => known name
  | .object entries ending =>
    match entries with
    | [] =>
      match origin, ending with
      | .text, some fault => .error (.fault fault)
      | .text, none => .error (.fault .malformed)
      | _, _ => .error notSingle
    | (.error place, x) :: _ =>
      if place.skipping.isNone then .error (.fault place.reading)
      else .error (x.unexpected "variant identifier")
    | (.ok name, x) :: rest => do
      if origin ≠ .text && !rest.isEmpty then throw notSingle
      let name ← known name
      match x with
      | .null => pure ()
      | .object [] none => if origin = .aside then pure () else throw (x.unexpected "unit")
      | x => throw (x.unexpected "unit")
      match ending with
      | some fault => if rest.isEmpty then throw (.fault fault)
      | none => pure ()
      if rest.isEmpty then return name else throw (.fault .malformed)
  | .broken place => .error (.fault place.naming)
  | s =>
    match origin with
    | .text => .error (.fault .malformed)
    | _ => .error (s.unexpected "string or map")

end Source

/-- Reads the document of a text and makes sure that nothing follows it. -/
def Document.read {α : Type} (read : Source → Except Problem α) (document : Document) :
    Except Problem α := do
  let a ← read document.root
  match document.trailing with
  | some fault => .error (.fault fault)
  | none => .ok a

end CalendarRules
