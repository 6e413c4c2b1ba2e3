import SettingsBinding.Config.Basic
import SettingsBinding.Diagnostic
import SettingsBinding.Hint
import SettingsBinding.HostSource
import SettingsBinding.Settings.Merged

/-!
A pass: the settings documents are merged, the configuration classes are found and checked against
the merged tree, and the source of the host class is written if all of them match.
-/

namespace SettingsBinding

structure CheckReport where
  merged : MergedSettings
  classes : ClassMap
  mismatches : List Mismatch

namespace CheckReport

def isValid (report : CheckReport) : Bool := report.mismatches.isEmpty

def messages (report : CheckReport) : List String := report.mismatches.map Mismatch.message

end CheckReport

inductive Outcome where
  /-- The source of the host class, under its name. -/
  | generated (name text : String)
  | failed (diagnostic : Diagnostic) (mismatches : List Mismatch)
  /-- The program has no host class. -/
  | skipped
  deriving DecidableEq, Repr

namespace Outcome

def sourceName? : Outcome → Option String
  | generated name _ => some name
  | _ => none

def diagnostic? : Outcome → Option Diagnostic
  | failed diagnostic _ => some diagnostic
  | _ => none

end Outcome

/-- What a pass works on. `raised i` says whether a stop is asked for before the document with
index `i`. -/
structure PassInput where
  config : Config
  raised : Nat → Bool
  documents : List SettingsDocument
  types : List TypeSymbol

namespace PassInput

def merge (input : PassInput) : Except Failure MergedSettings :=
  MergedSettings.ofDocuments input.raised input.documents

def classes (input : PassInput) : ClassMap := .ofTypes input.config.markerSuffix input.types

def report (input : PassInput) (merged : MergedSettings) : CheckReport where
  merged := merged
  classes := input.classes
  mismatches := input.classes.mismatches input.config.hostKey merged.tree

def check (input : PassInput) : Except Failure CheckReport := input.merge.map input.report

def hostSource? (input : PassInput) : Option HostSource :=
  HostSource.ofClasses? input.config.hostKey input.classes

def outcome (input : PassInput) (report : CheckReport) : Outcome :=
  if report.isValid then
    match input.hostSource? with
    | none => .skipped
    | some source => .generated input.config.sourceName (source.text input.config.indentWidth)
  else .failed (.ofMessages report.messages) report.mismatches

def run (input : PassInput) : Except Failure Outcome := input.check.map input.outcome

/-- A full pass, for a configuration of which nothing is refused. -/
def generate (input : PassInput) : Except Failure Outcome := do
  let _ ← input.config.checked
  input.run

def mergeEvents (input : PassInput) : List LogEvent :=
  MergedSettings.events input.raised input.documents ++
    match input.merge with
    | .error _ => []
    | .ok merged =>
      [debug (s!"Merged {merged.documentCount} of {input.documents.length} settings document(s) " ++
        s!"into {merged.tree.size} top-level entries")]

def checkEvents (input : PassInput) : List LogEvent :=
  input.mergeEvents ++
    match input.merge with
    | .error _ => []
    | .ok merged =>
      input.classes.events ++ input.classes.validationEvents input.config.hostKey merged.tree

def outcomeEvents (input : PassInput) : Outcome → List LogEvent
  | .failed _ mismatches =>
    [info s!"Configuration check failed with {mismatches.length} error(s)"]
  | .skipped =>
    [HostSource.event input.config.hostKey input.hostSource?,
      info s!"No {input.config.hostClassName} type found, skipping generation"]
  | .generated name text =>
    [HostSource.event input.config.hostKey input.hostSource?,
      info s!"Generated {name} ({text.utf8ByteSize} bytes)"]

def runEvents (input : PassInput) : List LogEvent :=
  input.checkEvents ++
    match input.run with
    | .error _ => []
    | .ok outcome => input.outcomeEvents outcome

end PassInput

end SettingsBinding
