import SettingsBinding.CommandLine.Request

/-!
Running commands: from an invocation to an exit code. An error is printed in one line.
-/

namespace SettingsBinding

def Config.newFileName : String := ".appsettings-gen.yaml"

def versionLine : String := "appsettings-gen 0.1.0\n"

variable {m : Type → Type} [Monad m] [MonadMachine m]

def findConfig [Yaml.Reader] (named : Option Path) : ExceptT ErrorTrail m (Config × Option Path) :=
  (Config.loadOrDefault named).adapt fun e =>
    (ErrorTrail.ofConfigFile e).within "Failed to load configuration"

def passConfig [Yaml.Reader] (named : Option Path) : ExceptT ErrorTrail m Config := do
  let (config, source) ← findConfig named
  if let some p := source then
    (MonadMachine.log (debug s!"Loaded configuration from {p.text}") : m _)
  return config

def runShowConfig [Yaml.Reader] (named : Option Path) : ExceptT ErrorTrail m ExitCode := do
  let (config, source) ← findConfig named
  match source with
  | some p => (MonadMachine.printError ("# Loaded from: " ++ p.text) : m _)
  | none => (MonadMachine.printError "# No config file found; showing defaults" : m _)
  (MonadMachine.print config.text : m _)
  return .success

/-- Writes a configuration file with all fields into the current directory, unless there is one. -/
def runInitConfig : ExceptT ErrorTrail m ExitCode := do
  match ← (MonadMachine.currentDirectory : m _) with
  | .error e => throw ((ErrorTrail.ofSystem e).within "cannot determine current directory")
  | .ok directory =>
    let p := directory.join Config.newFileName
    if ← (MonadMachine.pathExists p : m _) then
      throw ⟨[s!"{p.text} already exists. Remove it first to re-initialize."]⟩
    if let .error e ← (MonadMachine.writeText p Config.exampleText : m _) then
      throw ((ErrorTrail.ofSystem e).within s!"failed to write {p.text}")
    (MonadMachine.printError ("Created " ++ p.text) : m _)
    return .success

def runSchema (kind : SchemaKind) (output : Option Path) (quiet : Bool) :
    ExceptT ErrorTrail m ExitCode := do
  writeOutput output quiet kind.text
  return .success

namespace Invocation

def run [Yaml.Reader] (i : Invocation) : ExceptT ErrorTrail m ExitCode :=
  match i.command with
  | .generate model settings output => do
    runGenerate (← passConfig i.config) i.quiet model settings output
  | .check model settings form output => do
    runCheck (← passConfig i.config) i.quiet model settings form output
  | .merge settings output => do runMerge (← passConfig i.config) i.quiet settings output
  | .schema kind output => runSchema kind output i.quiet
  | .showConfig => runShowConfig i.config
  | .initConfig => runInitConfig

end Invocation

def answerRequest [Yaml.Reader] (request : Except CommandLine.UsageError Request) : m ExitCode := do
  match request with
  | .error e =>
    e.lines.forM MonadMachine.printError
    return .failure
  | .ok .showVersion =>
    MonadMachine.print versionLine
    return .success
  | .ok (.invoke i) =>
    match ← i.run.run with
    | .ok code => return code
    | .error trail =>
      MonadMachine.printError ("Error: " ++ trail.line)
      return .failure

end SettingsBinding
