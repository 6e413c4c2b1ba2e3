import SettingsBinding.Failure
import SettingsBinding.Files.Operations
import SettingsBinding.Settings.Document
import SettingsBinding.Text.LetterCase

/-!
Settings files in a directory: those with a given name, in any case. They are taken in the order
of their names, whatever the order in which the directory lists them.
-/

namespace SettingsBinding

namespace SettingsDocument

/-- Whether a path names a settings file: the last name on it is the given one, up to the case of
the letters A to Z. -/
def isSettingsPath (fileName : String) (p : Path) : Bool :=
  (p.fileName?.map (Text.equalIgnoringCase · fileName)).getD false

def settingsNames (directory : Path) (fileName : String) (names : List String) : List String :=
  (names.filter fun name => isSettingsPath fileName (directory.join name)).mergeSort
    fun a b => decide (a ≤ b)

end SettingsDocument

namespace Failure

def ofFile (p : Path) (e : SystemError) : Failure := .ofSystem (some p.text) e.text

end Failure

section

variable {m : Type → Type} [Monad m] [MonadMachine m]

def discoverSettings (directory : Path) (fileName : String) :
    ExceptT Failure m (List Path) := do
  match ← (MonadMachine.list directory : m _) with
  | .error e => throw (.ofFile directory e)
  | .ok names =>
    let paths := (SettingsDocument.settingsNames directory fileName names).map directory.join
    let found ← (paths.filterM MonadMachine.isFile : m _)
    (MonadMachine.log (debug s!"Found {found.length} settings file(s) in {directory.text}") : m _)
    return found

def SettingsDocument.load (p : Path) : ExceptT Failure m SettingsDocument := do
  match ← (MonadMachine.readText p : m _) with
  | .error e => throw (.ofFile p e)
  | .ok text => return ⟨p.text, text⟩

end

end SettingsBinding
