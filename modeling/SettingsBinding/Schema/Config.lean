import SettingsBinding.Config.Basic
import SettingsBinding.Schema.Basic

/-!
The schema of configuration files.
-/

namespace SettingsBinding.Schema

def fieldDescription : ConfigField → String
  | .markerSuffix => "Suffix that marks a type as a configuration class"
  | .hostKey => "Section key of the aggregate class (`<host_key><marker_suffix>`)"
  | .settingsFileName => "File name of settings documents, compared ignoring case"
  | .sourceName => "Name the generated source is registered under"
  | .indentWidth => "Spaces per indentation level in generated source"

def fieldDefault : ConfigField → Json
  | .markerSuffix => .string ({} : Config).markerSuffix
  | .hostKey => .string ({} : Config).hostKey
  | .settingsFileName => .string ({} : Config).settingsFileName
  | .sourceName => .string ({} : Config).sourceName
  | .indentWidth => .number (.integer ({} : Config).indentWidth)

def fieldType : ConfigField → List Member
  | .indentWidth =>
    [type "integer", ("format", .string "uint"), ("minimum", .number (.double (.zero false)))]
  | _ => [type "string"]

def fieldProperty (field : ConfigField) : Member :=
  (field.name, .object
    ([description (fieldDescription field), defaultValue (fieldDefault field)] ++ fieldType field))

def fieldsByName : List ConfigField :=
  ConfigField.all.mergeSort fun a b => decide (a.name ≤ b.name)

def config : Json :=
  .object (head "GeneratorConfig"
    ("Tunables for one generation pass.\n\n" ++
      "Every field has a default, so an empty config file is valid.") ++
    [properties (fieldsByName.map fieldProperty)])

end SettingsBinding.Schema
