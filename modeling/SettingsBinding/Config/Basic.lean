import SettingsBinding.Failure
import SettingsBinding.Text.Blank

/-!
The configuration of a pass, and the values that are refused.
-/

namespace SettingsBinding

structure Config where
  /-- What the names of configuration classes end in. -/
  markerSuffix : String := "Configuration"
  /-- The section key of the host class. -/
  hostKey : String := "Host"
  /-- The name of settings files, in any case. -/
  settingsFileName : String := "appsettings.json"
  /-- The name of the generated source. -/
  sourceName : String := "Host.cs"
  /-- The number of spaces to a level of indentation. -/
  indentWidth : Nat := 4
  deriving DecidableEq, Repr

inductive ConfigField where
  | markerSuffix
  | hostKey
  | settingsFileName
  | sourceName
  | indentWidth
  deriving DecidableEq, Repr

namespace ConfigField

/-- The name of a field in a configuration file. -/
def name : ConfigField → String
  | markerSuffix => "marker_suffix"
  | hostKey => "host_key"
  | settingsFileName => "settings_file_name"
  | sourceName => "source_name"
  | indentWidth => "indent_width"

def all : List ConfigField := [markerSuffix, hostKey, settingsFileName, sourceName, indentWidth]

def ofName? (name : String) : Option ConfigField := all.find? (·.name == name)

@[simp] theorem ofName?_name (field : ConfigField) : ofName? field.name = some field := by
  cases field <;> decide

end ConfigField

structure ConfigError where
  field : ConfigField
  message : String
  deriving DecidableEq, Repr

def ConfigError.text (e : ConfigError) : String := e.field.name ++ ": " ++ e.message

namespace Config

def hostClassName (config : Config) : String := config.hostKey ++ config.markerSuffix

def greatestIndentWidth : Nat := 16

def isIdentifierStart (c : Char) : Bool := c.isAlpha || c == '_'

def isIdentifierPart (c : Char) : Bool := c.isAlphanum || c == '_'

/-- Whether a text is an identifier: letters A to Z in either case, digits and underscores, and no
digit in front. -/
def isIdentifier (s : String) : Bool :=
  match s.toList with
  | [] => false
  | c :: rest => isIdentifierStart c && rest.all isIdentifierPart

def checkIdentifier (field : ConfigField) (value : String) : List ConfigError :=
  if isIdentifier value then [] else [⟨field, s!"'{value}' is not a valid identifier"⟩]

def checkNotBlank (field : ConfigField) (value message : String) : List ConfigError :=
  if Text.isBlank value then [⟨field, message⟩] else []

def checkIndentWidth (width : Nat) : List ConfigError :=
  if 1 ≤ width ∧ width ≤ greatestIndentWidth then []
  else [⟨.indentWidth,
    s!"Indent width must be between 1 and {greatestIndentWidth}, got {width}"⟩]

/-- What is refused in a configuration, in the order of its fields. -/
def errors (config : Config) : List ConfigError :=
  checkIdentifier .markerSuffix config.markerSuffix ++
    checkIdentifier .hostKey config.hostKey ++
    checkNotBlank .settingsFileName config.settingsFileName
      "Settings file name must not be empty" ++
    checkNotBlank .sourceName config.sourceName "Source name must not be empty" ++
    checkIndentWidth config.indentWidth

def isValid (config : Config) : Bool := config.errors.isEmpty

def checked (config : Config) : Except Failure Config :=
  if config.isValid then .ok config
  else .error (.config ("; ".intercalate (config.errors.map ConfigError.text)))

end Config

end SettingsBinding
