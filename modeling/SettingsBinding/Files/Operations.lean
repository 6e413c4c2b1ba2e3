import SettingsBinding.Files.Path
import SettingsBinding.Files.SystemError
import SettingsBinding.Log

/-!
What a command needs of the machine that it runs on: files, and a console to report to.
-/

namespace SettingsBinding

inductive FileKind where
  | file
  | directory
  /-- Neither of them, such as a device. -/
  | special
  deriving DecidableEq, Repr

/-- A monad with the files and the console of a machine. -/
class MonadMachine (m : Type → Type) where
  /-- The content of a text file. -/
  readText : Path → m (Except SystemError String)
  /-- The names in a directory, in any order. -/
  list : Path → m (Except SystemError (List String))
  /-- What a path leads to, if it leads anywhere. -/
  kind? : Path → m (Option FileKind)
  /-- Makes a directory in one that is there. -/
  makeDirectory : Path → m (Except SystemError Unit)
  /-- Writes a text file, in place of what is there. -/
  writeText : Path → String → m (Except SystemError Unit)
  currentDirectory : m (Except SystemError Path)
  /-- The directory for configuration files of the user, if there is one. -/
  configDirectory? : m (Option Path)
  /-- Reports an event. -/
  log : LogEvent → m Unit
  /-- Prints a text. -/
  print : String → m Unit
  /-- Prints a line where errors are printed. -/
  printError : String → m Unit

namespace MonadMachine

variable {m : Type → Type} [Monad m] [MonadMachine m]

def pathExists (p : Path) : m Bool := do return (← kind? p).isSome

def isFile (p : Path) : m Bool := do return (← kind? p) == some .file

def isDirectory (p : Path) : m Bool := do return (← kind? p) == some .directory

def logAll (events : List LogEvent) : m Unit := events.forM log

/-- Makes a directory, unless it is there. -/
def ensureDirectory (p : Path) : m (Except SystemError Unit) := do
  match ← makeDirectory p with
  | .ok () => return .ok ()
  | .error e => if ← isDirectory p then return .ok () else return .error e

/-- Makes a directory and those above it that are missing. `room` bounds their number. -/
def makeDirectories : Nat → Path → m (Except SystemError Unit)
  | 0, p => if p.text = "" then return .ok () else ensureDirectory p
  | room + 1, p => do
    if p.text = "" then return .ok ()
    let result ← ensureDirectory p
    match result, p.parent? with
    | .error .missing, some parent =>
      match ← makeDirectories room parent with
      | .error e => return .error e
      | .ok () => ensureDirectory p
    | _, _ => return result

end MonadMachine

end SettingsBinding
