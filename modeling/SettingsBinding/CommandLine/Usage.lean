import SettingsBinding.CommandLine.Grammar

/-!
Wrong uses of the command line.
-/

namespace SettingsBinding.CommandLine

inductive UsageError where
  | valueRequired (a : Argument)
  | badValue (a : Argument) (value : String)
  /-- A value behind the equals sign of an argument that takes none. -/
  | unexpectedValue (a : Argument) (value : String)
  | repeated (a : Argument)
  | unexpectedWord (word : String)
  | unknownSubcommand (word : String)
  | missingSubcommand (level : Level)
  | missingArguments (missing : List Argument)
  deriving DecidableEq, Repr

namespace UsageError

def message : UsageError → String
  | valueRequired a => s!"a value is required for '{a.label}' but none was supplied"
  | badValue a value => s!"invalid value '{value}' for '{a.label}'"
  | unexpectedValue a value =>
    s!"unexpected value '{value}' for '{a.label}' found; no more were expected"
  | repeated a => s!"the argument '{a.label}' cannot be used multiple times"
  | unexpectedWord word => s!"unexpected argument '{word}' found"
  | unknownSubcommand word => s!"unrecognized subcommand '{word}'"
  | missingSubcommand level => s!"'{level.title}' requires a subcommand but one was not provided"
  | missingArguments _ => "the following required arguments were not provided:"

def lines (e : UsageError) : List String :=
  ("error: " ++ e.message) ::
    match e with
    | missingArguments missing => missing.map fun a => "  " ++ a.label
    | _ => []

end UsageError

end SettingsBinding.CommandLine
