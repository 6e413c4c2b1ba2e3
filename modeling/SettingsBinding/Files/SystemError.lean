/-!
What can go wrong with a file.
-/

namespace SettingsBinding

inductive SystemError where
  | missing
  | exists
  | notADirectory
  | isADirectory
  /-- What is there cannot be opened. -/
  | cannotOpen
  /-- The device fails. -/
  | inputOutput
  /-- The content is no text. -/
  | notText
  /-- A path holds a character that no name can hold. -/
  | badPath
  | other (text : String)
  deriving DecidableEq, Repr

namespace SystemError

def text : SystemError → String
  | missing => "No such file or directory (os error 2)"
  | .exists => "File exists (os error 17)"
  | notADirectory => "Not a directory (os error 20)"
  | isADirectory => "Is a directory (os error 21)"
  | cannotOpen => "No such device or address (os error 6)"
  | inputOutput => "Input/output error (os error 5)"
  | notText => "stream did not contain valid UTF-8"
  | badPath => "file name contained an unexpected NUL byte"
  | other text => text

end SystemError

end SettingsBinding
