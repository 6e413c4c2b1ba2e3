import SettingsBinding.Commands.Basic
import SettingsBinding.Model.Reader
import SettingsBinding.Pass
import SettingsBinding.Settings.Discovery

/-!
The files that commands read: the model of a program, and settings documents that are named or
found in a directory.
-/

namespace SettingsBinding

variable {m : Type → Type} [Monad m] [MonadMachine m]

def ProgramModel.load (p : Path) : ExceptT Failure m ProgramModel := do
  match ← (MonadMachine.readText p : m _) with
  | .error e => throw (.ofFile p e)
  | .ok text => ExceptT.mk (pure (withContext p.text (ProgramModel.parse text)))

structure SettingsSelection where
  /-- Files in the order in which they are merged. -/
  files : List Path := []
  /-- A directory whose settings files are merged behind them. -/
  directory : Option Path := none
  deriving DecidableEq, Repr

namespace SettingsSelection

def found (selection : SettingsSelection) (fileName : String) :
    ExceptT ErrorTrail m (List Path) := do
  match selection.directory with
  | none => return []
  | some directory =>
    let paths ← inContext s!"Failed to search {directory.text}"
      (discoverSettings directory fileName)
    if paths.isEmpty then
      (MonadMachine.log (warn s!"No {fileName} found in {directory.text}") : m _)
    return paths

def loadDocument (p : Path) : ExceptT ErrorTrail m SettingsDocument := do
  (MonadMachine.log (debug s!"Reading settings document {p.text}") : m _)
  inContext s!"Failed to read settings file {p.text}" (SettingsDocument.load p)

/-- Reads the settings documents, the named files first. -/
def load (selection : SettingsSelection) (fileName : String) :
    ExceptT ErrorTrail m (List SettingsDocument) := do
  let found ← selection.found fileName
  (selection.files ++ found).mapM loadDocument

end SettingsSelection

def checkConfig (config : Config) : ExceptT ErrorTrail m Unit :=
  ExceptT.mk (pure ((config.checked.mapError ErrorTrail.ofFailure).map fun _ => ()))

def PassInput.load (config : Config) (model : Path) (settings : SettingsSelection) :
    ExceptT ErrorTrail m PassInput := do
  let program ← inContext s!"Failed to load semantic model {model.text}" (ProgramModel.load model)
  let documents ← settings.load config.settingsFileName
  checkConfig config
  return { config, raised := fun _ => false, documents, types := program.types }

end SettingsBinding
