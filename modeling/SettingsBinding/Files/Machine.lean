import SettingsBinding.Files.Operations
import SettingsBinding.Files.Tree

/-!
A machine as a value: a tree of files, a current directory, and what was reported so far.
-/

namespace SettingsBinding

inductive Utterance where
  | event (event : LogEvent)
  | output (text : String)
  | errorLine (text : String)
  deriving DecidableEq, Repr

namespace Utterance

def output? : Utterance → Option String
  | output text => some text
  | _ => none

/-- What goes to where errors are printed, if events of at least a level are shown there. -/
def errorLine? (level : Option LogLevel) : Utterance → Option String
  | errorLine text => some text
  | output _ => none
  | event e =>
    match level with
    | some least => if least.rank ≤ e.level.rank then some e.line else none
    | none => none

end Utterance

structure Machine where
  files : FileTree := {}
  /-- The current directory. -/
  directory : Location := []
  /-- The directory for configuration files of the user. -/
  configDirectory : Option Path := none
  /-- What was reported, in order. -/
  console : List Utterance := []

namespace Machine

def output (machine : Machine) : String := String.join (machine.console.filterMap Utterance.output?)

/-- The lines that were printed as errors, or reported as events of at least a level. -/
def errorLines (machine : Machine) (level : Option LogLevel) : List String :=
  (machine.console.filterMap (Utterance.errorLine? level)).flatMap (·.splitOn "\n")

def say (utterance : Utterance) : StateM Machine Unit :=
  modify fun machine => { machine with console := machine.console ++ [utterance] }

def change (f : Machine → Except SystemError FileTree) :
    StateM Machine (Except SystemError Unit) := do
  let machine ← get
  match f machine with
  | .ok files =>
    set { machine with files }
    return .ok ()
  | .error e => return .error e

def kindOf : FileEntry → FileKind
  | .directory => .directory
  | .text _ | .binary => .file
  | .special | .faulty => .special

instance : MonadMachine (StateM Machine) where
  readText p := do
    let machine ← get
    return machine.files.readText machine.directory p
  list p := do
    let machine ← get
    return machine.files.list machine.directory p
  kind? p := do
    let machine ← get
    return (machine.files.find? machine.directory p).map kindOf
  makeDirectory p := change fun machine => machine.files.makeDirectory machine.directory p
  writeText p content := change fun machine => machine.files.writeText machine.directory p content
  currentDirectory := do return .ok ⟨"/" ++ "/".intercalate (← get).directory⟩
  configDirectory? := do return (← get).configDirectory
  log e := say (.event e)
  print text := say (.output text)
  printError text := say (.errorLine text)

end Machine

end SettingsBinding
