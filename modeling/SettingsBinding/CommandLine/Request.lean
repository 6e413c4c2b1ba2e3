import SettingsBinding.CommandLine.Arguments
import SettingsBinding.Commands.Pass
import SettingsBinding.Schema.Document

/-!
What a command line asks for.
-/

namespace SettingsBinding

inductive Command where
  | generate (model : Path) (settings : SettingsSelection) (output : Option Path)
  | check (model : Path) (settings : SettingsSelection) (form : CheckReport.Form)
    (output : Option Path)
  | merge (settings : SettingsSelection) (output : Option Path)
  | schema (kind : SchemaKind) (output : Option Path)
  | showConfig
  | initConfig
  deriving DecidableEq, Repr

structure Invocation where
  verbose : Bool
  quiet : Bool
  /-- The configuration file that is named. -/
  config : Option Path
  command : Command
  deriving DecidableEq, Repr

namespace Invocation

/-- The least level of the events that are shown. -/
def logLevel (i : Invocation) : LogLevel :=
  if i.verbose then .debug else if i.quiet then .warn else .info

end Invocation

inductive Request where
  | showVersion
  | invoke (i : Invocation)
  deriving DecidableEq, Repr

namespace CommandLine

/-- The value of an argument; of several the innermost. -/
def value? (given : Given) (a : Argument) : Option String := given.lookup a

def path? (given : Given) (a : Argument) : Option Path := (value? given a).map Path.mk

def isGiven (given : Given) (a : Argument) : Bool := given.any (·.1 == a)

def selection (given : Given) : SettingsSelection where
  files := (given.filter (·.1 == .settings)).map fun (_, value) => ⟨value⟩
  directory := path? given .settingsDir

def reportForm (given : Given) : CheckReport.Form :=
  if value? given .format = some "json" then .json else .text

def schemaKind (given : Given) : SchemaKind :=
  if value? given .kind = some "config" then .config else .model

def command? (given : Given) : Level → Option Command
  | .top | .config => none
  | .generate =>
    (path? given .model).map fun model =>
      .generate model (selection given) (path? given .outputFile)
  | .check =>
    (path? given .model).map fun model =>
      .check model (selection given) (reportForm given) (path? given .outputFile)
  | .merge => some (.merge (selection given) (path? given .outputFile))
  | .schema => some (.schema (schemaKind given) (path? given .outputFile))
  | .configShow => some .showConfig
  | .configInit => some .initConfig

/-- What the words behind the name of the program ask for. A configuration file that the
environment names counts if the command line names none. -/
def parse (environment : Option String) (words : List String) : Except UsageError Request :=
  match readWords environment .top {} words with
  | .error .showVersion => .ok .showVersion
  | .error (.misuse e) => .error e
  | .ok (level, given) =>
    match command? given level with
    | none => .error (.missingSubcommand level)
    | some command =>
      .ok (.invoke {
        verbose := isGiven given .verbose
        quiet := isGiven given .quiet
        config := (path? given .config).or (environment.map Path.mk)
        command })

end CommandLine

end SettingsBinding
