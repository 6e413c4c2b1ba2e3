import SettingsBinding.Config.Document
import SettingsBinding.Files.Operations

/-!
Where a configuration comes from: a file that is named, or the first one found in the current
directory, at the root of the repository around it, and among the configuration files of the user.
-/

namespace SettingsBinding

inductive ConfigFileError where
  | notFound (path : Path)
  | unreadable (cause : SystemError)
  | malformed {cause : String}
  deriving DecidableEq, Repr

namespace ConfigFileError

def message : ConfigFileError → String
  | notFound path => "Config file not found: " ++ path.text
  | unreadable cause => "Failed to read config file: " ++ cause.text
  | @malformed cause => "Failed to parse config file: " ++ cause

def cause? : ConfigFileError → Option String
  | unreadable cause => some cause.text
  | @malformed cause => some cause
  | notFound _ => none

end ConfigFileError

namespace Config

/-- The names of configuration files, the first one found counts. -/
def fileNames : List String :=
  [".appsettings-gen.yaml", ".appsettings-gen.yml", "appsettings-gen.yaml", "appsettings-gen.yml"]

/-- The directory among the configuration files of a user. -/
def userDirectoryName : String := "appsettings-gen"

/-- What every repository has at its root. -/
def repositoryMark : String := ".git"

variable {m : Type → Type} [Monad m] [MonadMachine m]

def fileIn? (directory : Path) : m (Option Path) :=
  (fileNames.map directory.join).findM? MonadMachine.pathExists

def repositoryRoot? (directory : Path) : m (Option Path) :=
  directory.ancestors.findM? fun p => MonadMachine.pathExists (p.join repositoryMark)

def fileInAny? : List (m (Option Path)) → m (Option Path)
  | [] => return none
  | directory :: rest => do
    match ← directory with
    | none => fileInAny? rest
    | some p =>
      match ← fileIn? p with
      | some found => return some found
      | none => fileInAny? rest

def findFile? : m (Option Path) := do
  let current := (← MonadMachine.currentDirectory).toOption
  fileInAny? [
    pure current,
    (match current with
      | some p => repositoryRoot? p
      | none => pure none),
    (return (← MonadMachine.configDirectory?).map (·.join userDirectoryName))]

/-- The configuration file to use. A named one counts if it is there. -/
def discover? (named : Option Path) : m (Option Path) := do
  match named with
  | some p => if ← MonadMachine.pathExists p then return some p else findFile?
  | none => findFile?

def load [Yaml.Reader] (p : Path) : ExceptT ConfigFileError m Config := do
  if ← (MonadMachine.pathExists p : m _) then
    match ← (MonadMachine.readText p : m _) with
    | .error e => throw (.unreadable e)
    | .ok text =>
      match ofText text with
      | .error cause => throw (@ConfigFileError.malformed cause)
      | .ok config => return config
  else throw (.notFound p)

/-- The configuration to use, and where it comes from. A named file has to be usable; if one that
was found is not, that is reported and all fields have their default values. -/
def loadOrDefault [Yaml.Reader] (named : Option Path) :
    ExceptT ConfigFileError m (Config × Option Path) := do
  match named with
  | some p => return (← load p, some p)
  | none =>
    match ← (findFile? : m _) with
    | none => return ({}, none)
    | some p =>
      match ← ExceptT.lift (load p).run with
      | .ok config => return (config, some p)
      | .error e =>
        (MonadMachine.log (warn s!"Failed to load config from {p.text}: {e.message}") : m _)
        return ({}, none)

end Config

end SettingsBinding
