import SettingsBinding.Json.Printer
import SettingsBinding.Json.Reader

/-!
Diagnostics for the build that runs a pass. All mismatches go into one diagnostic, whose message
holds their texts as a JSON array.
-/

namespace SettingsBinding

inductive Severity where
  | error
  | warning
  | info
  deriving DecidableEq, Repr

def Severity.name : Severity → String
  | error => "error"
  | warning => "warning"
  | info => "info"

/-- A message for the build, without a place in a source file. -/
structure Diagnostic where
  id : String
  title : String
  severity : Severity
  message : String
  deriving DecidableEq, Repr

namespace Diagnostic

/-- What stands in front of the messages that a diagnostic carries. -/
def lead : String := "Generator errors: "

def ofMessages (messages : List String) : Diagnostic where
  id := "ASG001"
  title := "Errors in generator"
  severity := .error
  message := lead ++ (Json.array (messages.map Json.string)).compact

def dropStart? (start cs : List Char) : Option (List Char) :=
  if start.isPrefixOf cs then some (cs.drop start.length) else none

def messages? (d : Diagnostic) : Option (List String) := do
  let payload ← dropStart? lead.toList d.message.toList
  let value ← (Json.read payload).toOption
  value.strings?

def line (d : Diagnostic) : String := s!"{d.severity.name} {d.id}: {d.message}"

end Diagnostic

end SettingsBinding
