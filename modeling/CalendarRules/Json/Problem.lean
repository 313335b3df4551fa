import CalendarRules.Json.Source
import CalendarRules.Text.Quotation

/-!
# What readers object to

A reader of documents reports one problem: either the text is broken, or it is a document of another
shape than the reader wants.  The wording of the second kind is in `Mismatch.message`.
-/

namespace CalendarRules

/-- What a reader has found in place of what it expected. -/
inductive Found where
  | null
  | boolean (value : Bool)
  | integer (value : Int)
  | float (value : Finite64)
  | string (value : String)
  | sequence
  | map

def Found.describe : Found → String
  | .null => "null"
  | .boolean b => "boolean `" ++ (if b then "true" else "false") ++ "`"
  | .integer i => "integer `" ++ String.ofList (Text.integer i) ++ "`"
  | .float x => "floating point `" ++ String.ofList x.json ++ "`"
  | .string s => "string " ++ Text.quotation s
  | .sequence => "sequence"
  | .map => "map"

/-- How a document differs from what its reader wants. -/
inductive Mismatch where
  | missingField (name : String)
  | duplicateField (name : String)
  | unknownVariant (name : String) (known : List String)
  | invalidType (found : Found) (expected : String)
  | invalidValue (found : Found) (expected : String)
  | invalidLength (length : Nat) (expected : String)
  /-- None of the forms that a value may take fits. -/
  | noVariant (kind : String)
  /-- A timestamp that cannot be read; the text says why. -/
  | timestamp (reason : String)

/-- Alternatives as a message lists them. -/
def alternatives (names : List String) : String :=
  let ticked := names.map fun name => "`" ++ name ++ "`"
  match ticked with
  | [a] => a
  | [a, b] => a ++ " or " ++ b
  | names => "one of " ++ ", ".intercalate names

def Mismatch.message : Mismatch → String
  | .missingField name => "missing field `" ++ name ++ "`"
  | .duplicateField name => "duplicate field `" ++ name ++ "`"
  | .unknownVariant name known =>
    "unknown variant `" ++ name ++ "`, expected " ++ alternatives known
  | .invalidType found expected =>
    "invalid type: " ++ found.describe ++ ", expected " ++ expected
  | .invalidValue found expected =>
    "invalid value: " ++ found.describe ++ ", expected " ++ expected
  | .invalidLength length expected =>
    "invalid length " ++ toString length ++ ", expected " ++ expected
  | .noVariant kind => "data did not match any variant of untagged enum " ++ kind
  | .timestamp reason => reason

/-- Why a document cannot be read. -/
inductive Problem where
  | fault (fault : Fault)
  | mismatch (mismatch : Mismatch)

namespace Source

/-- What a reader finds where a source stands; a broken one shows as its fault. -/
def found : Source → Except Fault Found
  | .null => .ok .null
  | .bool b => .ok (.boolean b)
  | .number (.int i _) => .ok (.integer i)
  | .number (.float x) => .ok (.float x)
  | .string s => .ok (.string s)
  | .array .. => .ok .sequence
  | .object .. => .ok .map
  | .broken place => .error place.reading

/-- The problem of a source that is not what is expected. -/
def unexpected (s : Source) (expected : String) : Problem :=
  match s.found with
  | .ok found => .mismatch (.invalidType found expected)
  | .error fault => .fault fault

end Source
end CalendarRules
