import SettingsBinding.Json.Basic
import SettingsBinding.Text.Quoted

/-!
Failures that end a pass: a settings document or a model that cannot be used, a file that cannot be
read, an invalid configuration, or a request to stop. A failure carries a text to which contexts are
put in front, the outermost first.
-/

namespace SettingsBinding

inductive SettingsFault where
  | badJson (message : String)
  | notAnObject (found : JsonKind)
  deriving DecidableEq, Repr

namespace SettingsFault

def message : SettingsFault → String
  | badJson message => "Invalid JSON structure: " ++ message
  | notAnObject found => "Root of the document must be a JSON object, found " ++ found.name

end SettingsFault

inductive Failure where
  | settings (context : String) (cause : SettingsFault)
  | model (text : String)
  | io (path : Option String) (text : String) (cause : String)
  | config (text : String)
  | cancelled
  deriving DecidableEq, Repr

namespace Failure

def badJson (message : String) : Failure := .settings "JSON deserialization" (.badJson message)

def notAnObject (document : String) (found : JsonKind) : Failure :=
  .settings ("in " ++ document) (.notAnObject found)

def ofSystem (path : Option String) (cause : String) : Failure := .io path cause cause

def message : Failure → String
  | settings context _ => "Failed to parse settings: " ++ context
  | model text => "Invalid semantic model: " ++ text
  | io path text _ => "IO error at " ++ Text.quoteOption path ++ ": " ++ text
  | config text => "Invalid configuration: " ++ text
  | cancelled => "Generation cancelled"

def cause? : Failure → Option String
  | settings _ cause => some cause.message
  | io _ _ cause => some cause
  | _ => none

/-- A context in front of a text; in front of an empty text it stands alone. -/
def chain (context text : String) : String :=
  if text = "" then context else context ++ ": " ++ text

def addContext (failure : Failure) (context : String) : Failure :=
  match failure with
  | settings text cause => .settings (chain context text) cause
  | model text => .model (chain context text)
  | io path text cause => .io path (chain context text) cause
  | config text => .config (chain context text)
  | cancelled => .cancelled

/-- The text of a failure and of its cause, as one line. -/
def messages (failure : Failure) : List String :=
  failure.message :: failure.cause?.toList

end Failure

/-- Puts a context in front of the failure of a result, if it is one. -/
def withContext {α : Type} (context : String) (result : Except Failure α) : Except Failure α :=
  result.mapError (·.addContext context)

@[simp] theorem withContext_ok {α : Type} (context : String) (a : α) :
    withContext context (.ok a) = .ok a := rfl

@[simp] theorem withContext_error {α : Type} (context : String) (failure : Failure) :
    withContext context (.error failure : Except Failure α) =
      .error (failure.addContext context) := rfl

/-- Puts a context in front of the failure of a result, if it is one; only then is the context
made. -/
def withContextFrom {α : Type} (make : Unit → String) : Except Failure α → Except Failure α
  | .ok a => .ok a
  | .error failure => .error (failure.addContext (make ()))

@[simp] theorem withContextFrom_ok {α : Type} (make : Unit → String) (a : α) :
    withContextFrom make (.ok a) = .ok a := rfl

@[simp] theorem withContextFrom_error {α : Type} (make : Unit → String) (failure : Failure) :
    withContextFrom make (.error failure : Except Failure α) =
      .error (failure.addContext (make ())) := rfl

end SettingsBinding
