import SettingsBinding.Commands.Inputs
import SettingsBinding.Commands.Output

/-!
The commands that run a pass or a part of it: `generate` writes the source of the host class,
`check` writes a report, and `merge` writes the merged settings.
-/

namespace SettingsBinding

namespace CheckReport

inductive Form where
  | text
  | json
  deriving DecidableEq, Repr

/-- A report with a line for each mismatch. -/
def text (report : CheckReport) : String :=
  if report.isValid then
    s!"OK: {report.classes.length} configuration class(es) match the settings\n"
  else String.join (report.messages.map (· ++ "\n"))

def toJson (report : CheckReport) : Json :=
  .object [("valid", .bool report.isValid),
    ("documents", .number (.integer report.merged.documentCount)),
    ("classes", .array (report.classes.keys.map .string)),
    ("errors", .array (report.messages.map .string))]

def content (report : CheckReport) : Form → String
  | .text => report.text
  | .json => report.toJson.pretty

def exitCode (report : CheckReport) : ExitCode := if report.isValid then .success else .mismatch

end CheckReport

variable {m : Type → Type} [Monad m] [MonadMachine m]

/-- Runs a pass and writes the source of the host class, if there is one. -/
def runGenerate (config : Config) (quiet : Bool) (model : Path) (settings : SettingsSelection)
    (output : Option Path) : ExceptT ErrorTrail m ExitCode := do
  let input ← PassInput.load config model settings
  (MonadMachine.logAll input.runEvents : m _)
  match input.run with
  | .error failure => throw ((ErrorTrail.ofFailure failure).within "Generation failed")
  | .ok (.generated _ text) =>
    writeOutput output quiet text
    return .success
  | .ok (.failed diagnostic mismatches) =>
    (MonadMachine.printError diagnostic.line : m _)
    unless quiet do
      (mismatches.forM fun mismatch => MonadMachine.printError ("  - " ++ mismatch.message) : m _)
    return .mismatch
  | .ok .skipped => return .success

def runCheck (config : Config) (quiet : Bool) (model : Path) (settings : SettingsSelection)
    (form : CheckReport.Form) (output : Option Path) : ExceptT ErrorTrail m ExitCode := do
  let input ← PassInput.load config model settings
  (MonadMachine.logAll input.checkEvents : m _)
  match input.check with
  | .error failure => throw ((ErrorTrail.ofFailure failure).within "Check failed")
  | .ok report =>
    writeOutput output quiet (report.content form)
    return report.exitCode

def runMerge (config : Config) (quiet : Bool) (settings : SettingsSelection)
    (output : Option Path) : ExceptT ErrorTrail m ExitCode := do
  let documents ← settings.load config.settingsFileName
  checkConfig config
  let input : PassInput := { config, raised := fun _ => false, documents, types := [] }
  (MonadMachine.logAll input.mergeEvents : m _)
  match input.merge with
  | .error failure => throw ((ErrorTrail.ofFailure failure).within "Merge failed")
  | .ok merged =>
    writeOutput output quiet merged.tree.toJson.pretty
    return .success

end SettingsBinding
