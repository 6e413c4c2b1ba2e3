import SettingsBinding.Config.Lookup
import SettingsBinding.Failure

/-!
How a command ends: with an exit code, or with an error that is printed together with its contexts.
-/

namespace SettingsBinding

inductive ExitCode where
  | success
  /-- The settings do not match the configuration classes. -/
  | mismatch
  | failure
  deriving DecidableEq, Repr

namespace ExitCode

def toNat : ExitCode → Nat
  | success => 0
  | mismatch => 1
  | failure => 2

end ExitCode

/-- The texts of an error: its contexts, the outermost first, its own text, and that of its cause.
-/
structure ErrorTrail where
  texts : List String
  deriving DecidableEq, Repr

namespace ErrorTrail

def line (trail : ErrorTrail) : String := ": ".intercalate trail.texts

def ofFailure (failure : Failure) : ErrorTrail := ⟨failure.messages⟩

def ofSystem (e : SystemError) : ErrorTrail := ⟨[e.text]⟩

def ofConfigFile (e : ConfigFileError) : ErrorTrail := ⟨e.message :: e.cause?.toList⟩

def within (context : String) (trail : ErrorTrail) : ErrorTrail := ⟨context :: trail.texts⟩

end ErrorTrail

/-- A step whose failure is an error of a command, behind a context. -/
def inContext {m : Type → Type} [Monad m] {α : Type} (context : String)
    (step : ExceptT Failure m α) : ExceptT ErrorTrail m α :=
  step.adapt fun failure => (ErrorTrail.ofFailure failure).within context

end SettingsBinding
