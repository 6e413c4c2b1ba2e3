import SettingsBinding.Json.Fault
import SettingsBinding.Json.Number
import SettingsBinding.Text.Quoted

/-!
What can be wrong with a model document, beyond its JSON.
-/

namespace SettingsBinding.Model

/-- What a value looks like to a reader that expects another one. -/
inductive Shape where
  | null
  | bool (value : Bool)
  | number (value : JsonNumber)
  | string (value : String)
  | sequence
  | map
  deriving DecidableEq, Repr

namespace Shape

def ofJson : Json → Shape
  | .null => null
  | .bool b => bool b
  | .number n => number n
  | .string s => string s
  | .array _ => sequence
  | .object _ => map

def text : Shape → String
  | null => "null"
  | bool b => s!"boolean `{b}`"
  | number (.integer i) => s!"integer `{i}`"
  | number (.double x) => "floating point `" ++ String.ofList (JsonNumber.doubleChars x) ++ "`"
  | string s => "string " ++ Text.quote s
  | sequence => "sequence"
  | map => "map"

end Shape

inductive Problem where
  | json (problem : Json.Problem)
  | missingField (name : String)
  | duplicateField (name : String)
  | wrongType (found : Shape) (expected : String)
  | wrongLength (length : Nat) (expected : String)
  | unknownName (name : String) (known : List String)
  | notASingleEntry
  deriving DecidableEq, Repr

namespace Problem

def message : Problem → String
  | json problem => problem.message
  | missingField name => s!"missing field `{name}`"
  | duplicateField name => s!"duplicate field `{name}`"
  | wrongType found expected => s!"invalid type: {found.text}, expected {expected}"
  | wrongLength length expected => s!"invalid length {length}, expected {expected}"
  | unknownName name known =>
    s!"unknown variant `{name}`, expected one of " ++
      ", ".intercalate (known.map fun k => s!"`{k}`")
  | notASingleEntry => "invalid value: map, expected map with a single key"

end Problem

def withElements (what : String) (count : Nat) : String :=
  s!"{what} with {count} element" ++ if count = 1 then "" else "s"

/-- The problem of a list that goes on behind its `count` elements. -/
def tooLong (length count : Nat) : Problem :=
  .wrongLength length (s!"{count} element" ++ (if count = 1 then "" else "s") ++ " in sequence")

end SettingsBinding.Model
