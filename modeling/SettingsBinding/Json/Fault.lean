import SettingsBinding.Text.Bytes

/-!
Faults of JSON texts: what is wrong, and where. A place is kept as the number of bytes of the text
that lie behind it, and is told as a line and a column, both in bytes.
-/

namespace SettingsBinding.Json

inductive Problem where
  | unfinishedValue
  | unfinishedArray
  | unfinishedObject
  | unfinishedString
  | expectedValue
  | expectedWord
  | badNumber
  | numberTooLarge
  | expectedColon
  | expectedCommaOrBracket
  | expectedCommaOrBrace
  | trailingComma
  | keyNotString
  | trailingCharacters
  | tooDeep
  | badEscape
  | controlCharacter
  | loneSurrogate
  | unfinishedSurrogatePair
  deriving DecidableEq, Repr

def Problem.message : Problem → String
  | unfinishedValue => "EOF while parsing a value"
  | unfinishedArray => "EOF while parsing a list"
  | unfinishedObject => "EOF while parsing an object"
  | unfinishedString => "EOF while parsing a string"
  | expectedValue => "expected value"
  | expectedWord => "expected ident"
  | badNumber => "invalid number"
  | numberTooLarge => "number out of range"
  | expectedColon => "expected `:`"
  | expectedCommaOrBracket => "expected `,` or `]`"
  | expectedCommaOrBrace => "expected `,` or `\x7d`"
  | trailingComma => "trailing comma"
  | keyNotString => "key must be a string"
  | trailingCharacters => "trailing characters"
  | tooDeep => "recursion limit exceeded"
  | badEscape => "invalid escape"
  | controlCharacter => "control character (\\u0000-\\u001F) found while parsing a string"
  | loneSurrogate => "lone leading surrogate in hex escape"
  | unfinishedSurrogatePair => "unexpected end of hex escape"

/-- A problem, and the number of bytes of the text behind the place where it was met. -/
structure Fault (π : Type) where
  problem : π
  left : Nat
  deriving DecidableEq, Repr

namespace Fault

variable {π ρ : Type}

def here (problem : π) (rest : List Char) : Fault π := ⟨problem, Text.byteLength rest⟩

/-- A fault one byte into the text `rest`, or at its end. -/
def next (problem : π) (rest : List Char) : Fault π := ⟨problem, Text.byteLength rest - 1⟩

def map (f : π → ρ) (fault : Fault π) : Fault ρ := ⟨f fault.problem, fault.left⟩

end Fault

/-- The line and the column that lie `offset` bytes behind the given ones. -/
def placeFrom (line column : Nat) : List Char → Nat → Nat × Nat
  | [], _ => (line, column)
  | c :: rest, offset =>
    if offset < c.utf8Size then (line, column + offset)
    else if c = '\n' then placeFrom (line + 1) 0 rest (offset - 1)
    else placeFrom line (column + c.utf8Size) rest (offset - c.utf8Size)

/-- The line and the column of the place in `text` that has `left` bytes behind it. Lines count from
one, and a column is the number of bytes since the last line feed. -/
def place (text : List Char) (left : Nat) : Nat × Nat :=
  placeFrom 1 0 text (Text.byteLength text - left)

def messageAt (message : String) (text : List Char) (left : Nat) : String :=
  let (line, column) := place text left
  s!"{message} at line {line} column {column}"

def isBlank (c : Char) : Bool := c == ' ' || c == '\t' || c == '\n' || c == '\r'

def skipBlank (cs : List Char) : List Char := cs.dropWhile isBlank

theorem skipBlank_cons_of_not_isBlank {c : Char} (h : isBlank c = false) (cs : List Char) :
    skipBlank (c :: cs) = c :: cs := by
  simp [skipBlank, h]

end SettingsBinding.Json
