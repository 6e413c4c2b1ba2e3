import SettingsBinding.Failure
import SettingsBinding.Json.Reader
import SettingsBinding.Settings.Tree
import SettingsBinding.Text.Blank

/-!
Settings documents: texts with the names under which they are reported.
-/

namespace SettingsBinding

/-- A settings text and its name, which usually is a path. -/
structure SettingsDocument where
  name : String
  text : String
  deriving DecidableEq, Repr

namespace SettingsTree

/-- The tree that a settings text writes. Its root is an object, and a key that stands twice in an
object has the last of its values. -/
def parse (text : String) : Except Failure SettingsTree :=
  match Json.parse text with
  | .error message => .error (.badJson message)
  | .ok value =>
    match SettingsTree.ofJson value.withUniqueKeys with
    | .ok t => .ok t
    | .error found => .error (.notAnObject "settings document" found)

end SettingsTree

namespace SettingsDocument

def isBlank (d : SettingsDocument) : Bool := Text.isBlank d.text

/-- The tree of a document, or `none` for a blank one. -/
def tree? (d : SettingsDocument) : Except Failure (Option SettingsTree) :=
  if d.isBlank then .ok none
  else withContext ("document " ++ d.name) (some <$> SettingsTree.parse d.text)

end SettingsDocument

end SettingsBinding
