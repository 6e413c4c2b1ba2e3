/-!
The text of a YAML stream and a place in it. Lines end with a carriage return, a line feed, both,
a next line character or one of the Unicode separators.
-/

namespace SettingsBinding.Yaml

def isAllowed (c : Char) : Bool :=
  let n := c.toNat
  n == 0x09 || n == 0x0a || n == 0x0d || (0x20 ≤ n && n ≤ 0x7e) || n == 0x85 ||
    (0xa0 ≤ n && n ≤ 0xd7ff) || (0xe000 ≤ n && n ≤ 0xfffd) || 0x10000 ≤ n

def isBlank (c : Char) : Bool := c == ' ' || c == '\t'

def isBreak (c : Char) : Bool :=
  c == '\r' || c == '\n' || c == '\u0085' || c == '\u2028' || c == '\u2029'

def isNameChar (c : Char) : Bool := c.isAlphanum || c == '_' || c == '-'

def startsBlank : List Char → Bool
  | [] => true
  | c :: _ => isBlank c || isBreak c

def startsBreak : List Char → Bool
  | [] => true
  | c :: _ => isBreak c

/-- The mark of byte order, which may stand in front of a stream. -/
def byteOrderMark : Char := '\ufeff'

/-- A place in a stream: the text behind it, and where it stands. -/
structure Cursor where
  rest : List Char
  index : Nat := 0
  line : Nat := 0
  column : Nat := 0

namespace Cursor

def next? (c : Cursor) : Option Char := c.rest.head?

def advance (c : Cursor) (count : Nat) : Cursor :=
  { c with rest := c.rest.drop count, index := c.index + count, column := c.column + count }

def advanceWhile (c : Cursor) (p : Char → Bool) : Cursor :=
  c.advance (c.rest.takeWhile p).length

/-- Moves over a line break, if one comes next, and gives its form in values: a line feed, but for
the Unicode separators. -/
def readBreak (c : Cursor) : List Char × Cursor :=
  let past (count : Nat) : Cursor :=
    { rest := c.rest.drop count, index := c.index + count, line := c.line + 1, column := 0 }
  match c.rest with
  | '\r' :: '\n' :: _ => (['\n'], past 2)
  | '\u2028' :: _ => (['\u2028'], past 1)
  | '\u2029' :: _ => (['\u2029'], past 1)
  | b :: _ => if isBreak b then (['\n'], past 1) else ([], c)
  | [] => ([], c)

def atDocumentMark (c : Cursor) : Bool :=
  c.column == 0 &&
    match c.rest with
    | '-' :: '-' :: '-' :: rest => startsBlank rest
    | '.' :: '.' :: '.' :: rest => startsBlank rest
    | _ => false

/-- Moves to the end of a line if only white space and a comment are left of it. -/
def toLineEnd? (c : Cursor) : Option Cursor :=
  let c := c.advanceWhile isBlank
  let c := if c.next? = some '#' then c.advanceWhile (!isBreak ·) else c
  if startsBreak c.rest then some c.readBreak.2 else none

end Cursor

end SettingsBinding.Yaml
