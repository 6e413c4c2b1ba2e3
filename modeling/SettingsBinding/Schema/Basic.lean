import SettingsBinding.Json.Printer

/-!
Parts of JSON schemas.
-/

namespace SettingsBinding.Schema

abbrev Member := String × Json

def description (text : String) : Member := ("description", .string text)

def defaultValue (value : Json) : Member := ("default", value)

def type (name : String) : Member := ("type", .string name)

def strings (texts : List String) : Json := .array (texts.map .string)

/-- The members of an object of which some have to be there. -/
def required (names : List String) : Member := ("required", strings names)

def properties (members : List Member) : Member := ("properties", .object members)

def oneOfTexts (texts : List String) : List Member := [type "string", ("enum", strings texts)]

def reference (name : String) : Json := .object [("$ref", .string ("#/definitions/" ++ name))]

def arrayOf (name : String) : List Member := [type "array", ("items", reference name)]

def head (title text : String) : List Member :=
  [("$schema", .string "http://json-schema.org/draft-07/schema#"), ("title", .string title),
    description text, type "object"]

end SettingsBinding.Schema
