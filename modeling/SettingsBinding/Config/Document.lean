import SettingsBinding.Config.Basic
import SettingsBinding.Yaml.Printer
import SettingsBinding.Yaml.Reader

/-!
Configurations as YAML documents: a mapping with the fields by name. Fields that are left out have
their default values, and other entries say nothing.
-/

namespace SettingsBinding

namespace Config

/-- The tag of whole numbers. -/
def integerTag : String := "tag:yaml.org,2002:int"

/-- The least number that is too large for a field. -/
def numberBound : Nat := Nat.pow 2 64

/-- The number that a node writes, which is plain, or a block with the tag of whole numbers. -/
def numberOf? : Yaml.Node → Option Nat
  | .scalar style tag text =>
    if style = .plain ∨ (style = .literal ∧ tag = some integerTag) then
      (Yaml.natural? text.toList).filter (· < numberBound)
    else none
  | _ => none

def withField? (config : Config) (field : ConfigField) (node : Yaml.Node) : Option Config :=
  match field with
  | .markerSuffix => node.text?.map fun s => { config with markerSuffix := s }
  | .hostKey => node.text?.map fun s => { config with hostKey := s }
  | .settingsFileName => node.text?.map fun s => { config with settingsFileName := s }
  | .sourceName => node.text?.map fun s => { config with sourceName := s }
  | .indentWidth => (numberOf? node).map fun n => { config with indentWidth := n }

/-- A configuration with the fields that the entries of a mapping write. A field stands there
once. -/
def withEntries? (config : Config) (seen : List ConfigField) :
    List (Yaml.Node × Yaml.Node) → Option Config
  | [] => some config
  | (key, value) :: rest => do
    match ConfigField.ofName? (← key.text?) with
    | none => config.withEntries? seen rest
    | some field =>
      if seen.contains field then none
      else (← config.withField? field value).withEntries? (field :: seen) rest

/-- The configuration that a node writes. The empty node leaves all fields out. -/
def ofNode? : Yaml.Node → Option Config
  | .mapping entries => ({} : Config).withEntries? [] entries
  | .scalar .plain _ "" => some {}
  | _ => none

/-- The configuration that a text writes, or what is wrong with the text. A blank text leaves all
fields out. -/
def ofText [Yaml.Reader] (text : String) : Except String Config :=
  if Text.isBlank text then .ok {}
  else
    match (Yaml.Reader.node? text).bind ofNode? with
    | some config => .ok config
    | none => .error (Yaml.Reader.complaint text)

def fieldText (config : Config) : ConfigField → String
  | .markerSuffix => Yaml.printScalar config.markerSuffix
  | .hostKey => Yaml.printScalar config.hostKey
  | .settingsFileName => Yaml.printScalar config.settingsFileName
  | .sourceName => Yaml.printScalar config.sourceName
  | .indentWidth => s!"{config.indentWidth}\n"

def text (config : Config) : String :=
  String.join (ConfigField.all.map fun field => field.name ++ ": " ++ config.fieldText field)

def exampleText : String :=
  "# appsettings-gen configuration\n" ++
    "# Place this file at .appsettings-gen.yaml in your project root\n" ++
    "# or ~/.config/appsettings-gen/\n\n" ++ ({} : Config).text

end Config

end SettingsBinding
