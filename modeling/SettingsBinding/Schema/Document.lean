import SettingsBinding.Schema.Config
import SettingsBinding.Schema.Model

/-!
The schemas that can be asked for.
-/

namespace SettingsBinding

inductive SchemaKind where
  | model
  | config
  deriving DecidableEq, Repr

namespace SchemaKind

def schema : SchemaKind → Json
  | model => Schema.model
  | config => Schema.config

def text (kind : SchemaKind) : String := kind.schema.pretty

end SchemaKind

end SettingsBinding
