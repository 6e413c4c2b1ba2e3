import SettingsBinding.Yaml.Reading

/-!
Scalars as they are written. A text is plain where nothing else can be meant by it. It is in
single quotes otherwise, in double quotes where it holds characters that have to be escaped, and a
block where it has several lines.
-/

namespace SettingsBinding.Yaml

def isPrintable (c : Char) : Bool :=
  let n := c.toNat
  n == 0x0a || (0x20 ≤ n && n ≤ 0x7e) || (0xa0 ≤ n && n ≤ 0xd7ff) ||
    (0xe000 ≤ n && n ≤ 0xfffd && c != byteOrderMark) || 0x10000 ≤ n

def hasAdjacent (p q : Char → Bool) : List Char → Bool
  | a :: b :: rest => (p a && q b) || hasAdjacent p q (b :: rest)
  | _ => false

def hasAtEdge (p : Char → Bool) (cs : List Char) : Bool :=
  (cs.head?.map p).getD false || (cs.getLast?.map p).getD false

def isSpace (c : Char) : Bool := c == ' '

/-- Whether nothing in a text has to be escaped: no unprintable characters, and no spaces that the
end of a line would swallow. -/
def needsNoEscape (cs : List Char) : Bool :=
  cs.all isPrintable && !hasAdjacent isSpace isBreak cs

def canBeBlock (cs : List Char) : Bool := needsNoEscape cs && cs.getLast? != some ' '

def canBeSingleQuoted (cs : List Char) : Bool :=
  needsNoEscape cs && !hasAdjacent isBreak isSpace cs

/-- The characters that start no plain scalar, whatever follows. -/
def leadingIndicators : List Char :=
  ['#', ',', '[', ']', '\x7b', '\x7d', '&', '*', '!', '|', '>', '\'', '"', '%', '@', '\x60']

def startsWithIndicator (cs : List Char) : Bool :=
  cs.take 3 == ['-', '-', '-'] || cs.take 3 == ['.', '.', '.'] ||
    match cs with
    | [] => false
    | c :: rest =>
      leadingIndicators.contains c || ((c == '?' || c == ':' || c == '-') && startsBlank rest)

/-- Whether a text holds a colon in front of white space or a number sign behind it. -/
def holdsIndicator : List Char → Bool
  | [] => false
  | c :: rest =>
    (c == ':' && startsBlank rest) ||
      ((isBlank c || isBreak c) && rest.head? == some '#') || holdsIndicator rest

def canBePlain (cs : List Char) : Bool :=
  canBeSingleQuoted cs && !hasAtEdge isSpace cs && !cs.any isBreak && !startsWithIndicator cs &&
    !holdsIndicator cs

def ScalarStyle.ofText (s : String) : ScalarStyle :=
  let cs := s.toList
  if cs.contains '\n' then (if canBeBlock cs then .literal else .doubleQuoted)
  else if !isAmbiguous s && canBePlain cs then .plain
  else if canBeSingleQuoted cs then .singleQuoted
  else .doubleQuoted

def scalarIndent : List Char := [' ', ' ']

/-- A text between single quotes. `broken` tells whether a line break stands before it. -/
def singleQuotedBody (broken : Bool) : List Char → List Char
  | [] => if broken then scalarIndent else []
  | c :: rest =>
    if isBreak c then c :: singleQuotedBody true rest
    else
      (if broken then scalarIndent else []) ++ (if c = '\'' then ['\'', '\''] else [c]) ++
        singleQuotedBody false rest

def hexUpper (n : Nat) : Char := (Nat.digitChar n).toUpper

def hexDigits : Nat → Nat → List Char
  | 0, _ => []
  | count + 1, n => hexDigits count (n / 16) ++ [hexUpper (n % 16)]

/-- The escape of a character behind the backslash: its letter, or its number in as few digits as
there is a letter for. -/
def escapeOf (c : Char) : List Char :=
  match escapes.find? (·.2 == c) with
  | some (letter, _) => [letter]
  | none =>
    let n := c.toNat
    if n ≤ 0xff then 'x' :: hexDigits 2 n
    else if n ≤ 0xffff then 'u' :: hexDigits 4 n
    else 'U' :: hexDigits 8 n

def doubleQuotedChar (c : Char) : List Char :=
  if !isPrintable c || isBreak c || c == '"' || c == '\\' then '\\' :: escapeOf c else [c]

/-- The lines of a block, each with its indentation. `broken` tells whether a line starts here. -/
def blockBody (broken : Bool) : List Char → List Char
  | [] => []
  | c :: rest =>
    if isBreak c then c :: blockBody true rest
    else (if broken then scalarIndent else []) ++ c :: blockBody false rest

def chompingMark (cs : List Char) : List Char :=
  match cs.reverse with
  | [] => ['-']
  | last :: before =>
    if !isBreak last then ['-']
    else if (before.head?.map isBreak).getD true then ['+']
    else []

/-- The head of a block: its indentation, if the first character could be taken for a part of it,
and what to keep of its end. -/
def blockHead (cs : List Char) : List Char :=
  let indentation :=
    if (cs.head?.map fun c => isSpace c || isBreak c).getD false then ['2'] else []
  '|' :: indentation ++ chompingMark cs

def printScalar (s : String) : String :=
  let cs := s.toList
  String.ofList <|
    match ScalarStyle.ofText s with
    | .singleQuoted => ['\''] ++ singleQuotedBody false cs ++ ['\'', '\n']
    | .doubleQuoted => ['"'] ++ cs.flatMap doubleQuotedChar ++ ['"', '\n']
    | .literal =>
      let end' := if (cs.getLast?.map isBreak).getD false then [] else ['\n']
      blockHead cs ++ ['\n'] ++ blockBody true cs ++ end'
    | _ => cs ++ ['\n']

end SettingsBinding.Yaml
