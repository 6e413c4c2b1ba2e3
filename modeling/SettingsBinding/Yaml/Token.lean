import SettingsBinding.Yaml.Scalar

/-!
The tokens of a YAML stream. Collections that are written by indentation have tokens for their start
and their end too.
-/

namespace SettingsBinding.Yaml

/-- A tag as it is written: the handle that stands for the start of the tag, and the rest of it. A
tag that is written in full has no handle. -/
structure TagText where
  handle : String
  suffix : String
  deriving DecidableEq, Repr

inductive Directive where
  | version (major minor : Nat)
  /-- A handle, and the start of a tag that it stands for. -/
  | tag (handle start : String)
  deriving DecidableEq, Repr

inductive CollectionKind where
  | sequence
  | mapping
  deriving DecidableEq, Repr

inductive Token where
  | directive (directive : Directive)
  | documentStart
  | documentEnd
  | blockStart (kind : CollectionKind)
  | blockEnd
  | flowStart (kind : CollectionKind)
  | flowEnd (kind : CollectionKind)
  /-- The dash of an element. -/
  | blockEntry
  /-- The comma in brackets. -/
  | flowEntry
  | key
  | value
  | aliasTo (name : String)
  | anchor (name : String)
  | tag (tag : TagText)
  | scalar (style : ScalarStyle) (text : String)
  deriving DecidableEq, Repr

end SettingsBinding.Yaml
