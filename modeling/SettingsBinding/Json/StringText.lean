import SettingsBinding.Json.Fault

/-!
Strings in JSON texts. Writing escapes quotation marks, backslashes and the controls below U+0020,
and nothing else. Reading takes every escape of the format; a character beyond U+FFFF may be
escaped as a pair of surrogates, and a surrogate that stands alone is refused.
-/

namespace SettingsBinding.Json

def escapeLetters : List (Char × Char) :=
  [('"', '"'), ('\\', '\\'), ('/', '/'), ('b', '\x08'), ('f', '\x0c'), ('n', '\n'), ('r', '\r'),
    ('t', '\t')]

def hexDigitValue? (c : Char) : Option Nat :=
  if '0' ≤ c ∧ c ≤ '9' then some (c.toNat - '0'.toNat)
  else if 'a' ≤ c ∧ c ≤ 'f' then some (c.toNat - 'a'.toNat + 10)
  else if 'A' ≤ c ∧ c ≤ 'F' then some (c.toNat - 'A'.toNat + 10)
  else none

def hexValue? (a b c d : Char) : Option Nat := do
  let a ← hexDigitValue? a
  let b ← hexDigitValue? b
  let c ← hexDigitValue? c
  let d ← hexDigitValue? d
  pure (((a * 16 + b) * 16 + c) * 16 + d)

/-- Reads four hexadecimal digits. Whatever they are, they count as four bytes. -/
def readHex (cs : List Char) : Except (Fault Problem) (Nat × List Char) :=
  let fault : Fault Problem :=
    if Text.byteLength cs < 4 then ⟨.unfinishedString, 0⟩
    else ⟨.badEscape, Text.byteLength cs - 4⟩
  match cs with
  | a :: b :: c :: d :: rest =>
    match hexValue? a b c d with
    | some n => .ok (n, rest)
    | none => .error fault
  | _ => .error fault

def isLeadingSurrogate (n : Nat) : Bool := 0xd800 ≤ n && n ≤ 0xdbff

def isTrailingSurrogate (n : Nat) : Bool := 0xdc00 ≤ n && n ≤ 0xdfff

def pairedCharacter (leading trailing : Nat) : Char :=
  Char.ofNat (0x10000 + (leading - 0xd800) * 0x400 + (trailing - 0xdc00))

/-- Reads the given character, the second half of an escaped pair of surrogates. -/
def readPairChar (expected : Char) : List Char → Except (Fault Problem) (List Char)
  | [] => .error (.here .unfinishedString [])
  | c :: rest =>
    if c = expected then .ok rest else .error (.next .unfinishedSurrogatePair (c :: rest))

def readCode (cs : List Char) : Except (Fault Problem) (Char × List Char) := do
  let (code, rest) ← readHex cs
  if isTrailingSurrogate code then
    .error (.here .loneSurrogate rest)
  else if isLeadingSurrogate code then
    let rest ← readPairChar '\\' rest
    let rest ← readPairChar 'u' rest
    let (second, rest) ← readHex rest
    if isTrailingSurrogate second then pure (pairedCharacter code second, rest)
    else .error (.here .loneSurrogate rest)
  else pure (Char.ofNat code, rest)

def readEscape : List Char → Except (Fault Problem) (Char × List Char)
  | [] => .error (.here .unfinishedString [])
  | c :: rest =>
    if c = 'u' then readCode rest
    else
      match escapeLetters.lookup c with
      | some character => .ok (character, rest)
      | none => .error (.next .badEscape (c :: rest))

/-- Reads the characters of a string, up to and with the closing quotation mark. `room` bounds the
number of characters. -/
def readChars (room : Nat) (cs : List Char) : Except (Fault Problem) (List Char × List Char) :=
  match room, cs with
  | 0, _ => .error (.here .unfinishedString [])
  | _, [] => .error (.here .unfinishedString [])
  | room + 1, c :: rest =>
    if c = '"' then .ok ([], rest)
    else if c = '\\' then do
      let (character, rest) ← readEscape rest
      let (characters, rest) ← readChars room rest
      pure (character :: characters, rest)
    else if c.toNat < 0x20 then .error (.next .controlCharacter (c :: rest))
    else do
      let (characters, rest) ← readChars room rest
      pure (c :: characters, rest)

def readString (room : Nat) (cs : List Char) : Except (Fault Problem) (String × List Char) := do
  let (characters, rest) ← readChars room cs
  pure (String.ofList characters, rest)

/-- The letter that escapes a character, where it has one and has to be escaped. -/
def escapeLetter? : Char → Option Char
  | '"' => some '"'
  | '\\' => some '\\'
  | '\x08' => some 'b'
  | '\x0c' => some 'f'
  | '\n' => some 'n'
  | '\r' => some 'r'
  | '\t' => some 't'
  | _ => none

def escapeChar (c : Char) : List Char :=
  match escapeLetter? c with
  | some letter => ['\\', letter]
  | none =>
    if c.toNat < 0x20 then
      ['\\', 'u', '0', '0', Nat.digitChar (c.toNat / 16), Nat.digitChar (c.toNat % 16)]
    else [c]

def stringChars (s : String) : List Char := '"' :: s.toList.flatMap escapeChar ++ ['"']

end SettingsBinding.Json
