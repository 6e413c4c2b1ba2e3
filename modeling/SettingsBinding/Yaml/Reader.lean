import SettingsBinding.Yaml.Node

/-!
The reader of YAML that commands use. They ask it for the node that a text writes, and for what is
to be said of a text of which nothing can be made.
-/

namespace SettingsBinding.Yaml

class Reader where
  /-- The node that a text writes, if it is one document. -/
  node? : String → Option Node
  /-- What is wrong with a text that cannot be used. -/
  complaint : String → String

/-- This reader tells which documents can be used, but not why the others cannot. -/
instance : Reader where
  node? := Node.parse?
  complaint _ := "not a mapping with the fields of a configuration"

end SettingsBinding.Yaml
