import SettingsBinding.Commands.Basic

/-!
Where a command writes its result: to a file, or to the console.
-/

namespace SettingsBinding

/-- A text with a line break at its end. -/
def endLine (content : String) : String :=
  if content.toList.getLast? = some '\n' then content else content ++ "\n"

variable {m : Type → Type} [Monad m] [MonadMachine m]

/-- Writes a result to a file, in a directory that is made if it is missing. -/
def writeFile (p : Path) (content : String) : ExceptT ErrorTrail m Unit := do
  if let some parent := p.parent? then
    if let .error e ← (MonadMachine.makeDirectories parent.pieces.length parent : m _) then
      throw ((ErrorTrail.ofSystem e).within s!"Failed to create output directory {parent.text}")
  if let .error e ← (MonadMachine.writeText p content : m _) then
    throw ((ErrorTrail.ofSystem e).within s!"Failed to write output to {p.text}")

def writeOutput (output : Option Path) (quiet : Bool) (content : String) :
    ExceptT ErrorTrail m Unit := do
  match output with
  | none => (MonadMachine.print (endLine content) : m _)
  | some p =>
    writeFile p content
    unless quiet do
      (MonadMachine.log (info s!"Output written to {p.text}") : m _)

end SettingsBinding
