import SettingsBinding.Commands.Run

/-!
The program: commands on the machine that it runs on.
-/

namespace SettingsBinding

abbrev Terminal := ReaderT LogLevel IO

namespace Terminal

/-- The number of an error, which some operations give with a minus sign. -/
def errorNumber (code : UInt32) : UInt32 := if code < 0x80000000 then code else 0 - code

def systemError (e : IO.Error) : SystemError :=
  match e with
  | .noFileOrDirectory .. => .missing
  | .alreadyExists .. => .exists
  | .inappropriateType _ code _ =>
    if errorNumber code = 20 then .notADirectory
    else if errorNumber code = 21 then .isADirectory
    else .other (toString e)
  | e => .other (toString e)

def attempt {α : Type} (action : IO α) : Terminal (Except SystemError α) := do
  match ← action.toBaseIO with
  | .ok a => return .ok a
  | .error e => return .error (systemError e)

def readText (p : Path) : Terminal (Except SystemError String) := do
  let bytes ← attempt (IO.FS.readBinFile p.text)
  return bytes.bind fun bytes =>
    match String.fromUTF8? bytes with
    | some text => .ok text
    | none => .error .notText

def onDisk (p : Path) := IO.FS.DirEntry.root ⟨p.text, ""⟩

def names (p : Path) : IO (List String) := do
  return (← (onDisk p).readDir).toList.map (·.fileName)

def kind? (p : Path) : Terminal (Option FileKind) := do
  let found ← attempt do return (← (onDisk p).metadata).type
  return found.toOption.map fun
    | .file => .file
    | .dir => .directory
    | _ => .special

/-- The directory for configuration files of the user: the one that the environment names, or the
usual one in the home directory. -/
def configDirectory? : IO (Option Path) := do
  match ← IO.getEnv "XDG_CONFIG_HOME", ← IO.getEnv "HOME" with
  | some directory, home =>
    if directory.startsWith "/" then return some ⟨directory⟩
    else return home.map fun h => (Path.mk h).join ".config"
  | none, home => return home.map fun h => (Path.mk h).join ".config"

instance : MonadMachine Terminal where
  readText := readText
  list p := attempt (names p)
  kind? := kind?
  makeDirectory p := attempt (IO.FS.createDir p.text)
  writeText p content := attempt (IO.FS.writeFile p.text content)
  currentDirectory := attempt do return ⟨(← IO.currentDir).toString⟩
  configDirectory? := configDirectory?
  log e := do
    if (← read).rank ≤ e.level.rank then IO.eprintln e.line
  print text := do
    IO.print text
    (← IO.getStdout).flush
  printError text := IO.eprintln text

end Terminal

def configVariable : String := "APPSETTINGS_GEN_CONFIG"

def shownLevel : Except CommandLine.UsageError Request → LogLevel
  | .ok (.invoke i) => i.logLevel
  | _ => .info

end SettingsBinding

open SettingsBinding in
def main (words : List String) : IO UInt32 := do
  let request := CommandLine.parse (← IO.getEnv configVariable) words
  let code ← ((answerRequest request : Terminal ExitCode).run (shownLevel request) : IO ExitCode)
  return code.toNat.toUInt32
