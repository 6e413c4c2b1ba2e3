import SettingsBinding.Json.Reader

/-!
Skipping JSON values that nobody asks for. The grammar is that of reading with three differences:
numbers may be of any size, brackets may be nested to any depth, and escaped surrogates may stand
alone.
-/

namespace SettingsBinding.Json.Skip

inductive Frame where
  | array
  | object
  deriving DecidableEq, Repr

def string (room : Nat) (cs : List Char) : Except (Fault Problem) (List Char) :=
  match room, cs with
  | 0, _ => .error (.here .unfinishedString [])
  | _, [] => .error (.here .unfinishedString [])
  | room + 1, c :: rest =>
    if c = '"' then .ok rest
    else if c = '\\' then
      match rest with
      | [] => .error (.here .unfinishedString [])
      | letter :: behind =>
        if letter = 'u' then do
          let (_, rest) ← readHex behind
          string room rest
        else if (escapeLetters.lookup letter).isSome then string room behind
        else .error (.next .badEscape rest)
    else if c.toNat < 0x20 then .error (.here .controlCharacter (c :: rest))
    else string room rest

/-- Skips digits of which at least one is due; a text that has none is at fault behind its first
byte. -/
def someDigits (cs : List Char) : Except (Fault Problem) (List Char) :=
  match cs with
  | [] => .error (.here .badNumber [])
  | c :: rest =>
    if c.isDigit then .ok (rest.dropWhile Char.isDigit)
    else .error (.next .badNumber (c :: rest))

def exponent : List Char → Except (Fault Problem) (List Char)
  | [] => .ok []
  | c :: rest =>
    if c = 'e' ∨ c = 'E' then
      match rest with
      | '+' :: rest => someDigits rest
      | '-' :: rest => someDigits rest
      | rest => someDigits rest
    else .ok (c :: rest)

def fraction : List Char → Except (Fault Problem) (List Char)
  | '.' :: rest => do
    let rest ← someDigits rest
    exponent rest
  | rest => exponent rest

def number : List Char → Except (Fault Problem) (List Char)
  | '0' :: c :: rest =>
    if c.isDigit then .error (.next .badNumber (c :: rest)) else fraction (c :: rest)
  | cs => do
    let rest ← someDigits cs
    fraction rest

def scalar (room : Nat) : List Char → Except (Fault Problem) (List Char)
  | [] => .error (.next .unfinishedValue [])
  | 'n' :: rest => readWord ['u', 'l', 'l'] rest
  | 't' :: rest => readWord ['r', 'u', 'e'] rest
  | 'f' :: rest => readWord ['a', 'l', 's', 'e'] rest
  | '-' :: rest => number rest
  | '"' :: rest => string room rest
  | c :: rest =>
    if c.isDigit then number (c :: rest) else .error (.next .expectedValue (c :: rest))

def key (room : Nat) (cs : List Char) : Except (Fault Problem) (List Char) :=
  match skipBlank cs with
  | [] => .error (.next .unfinishedObject [])
  | '"' :: rest => do
    let rest ← string room rest
    readColon rest
  | rest => .error (.next .keyNotString rest)

def lead (room : Nat) (frame : Frame) (cs : List Char) : Except (Fault Problem) (List Char) :=
  match frame with
  | .array => .ok cs
  | .object => key room cs

/-- Closes brackets as long as closing ones follow. The result is `none` behind the last of them, or
the brackets that are still open and the text behind the next comma. -/
def close (frames : List Frame) (behindElement : Bool) (cs : List Char) :
    Except (Fault Problem) (Option (Frame × List Frame) × List Char) :=
  match frames with
  | [] => .ok (none, cs)
  | frame :: outer =>
    match frame, skipBlank cs with
    | .array, [] => .error (.next .unfinishedArray [])
    | .object, [] => .error (.next .unfinishedObject [])
    | .array, ']' :: rest => close outer true rest
    | .object, '\x7d' :: rest => close outer true rest
    | frame, c :: rest =>
      if !behindElement then .ok (some (frame, outer), c :: rest)
      else if c = ',' then .ok (some (frame, outer), rest)
      else
        let problem := match frame with
          | .array => Problem.expectedCommaOrBracket
          | .object => Problem.expectedCommaOrBrace
        .error (.next problem (c :: rest))

/-- Skips the rest of a value, of which the brackets `frames` are open and an element is due. -/
def remainder (textRoom room : Nat) (frames : List Frame) (cs : List Char) :
    Except (Fault Problem) (List Char) :=
  match room with
  | 0 => .error (.here .unfinishedValue cs)
  | room + 1 => do
    let (closed, cs) ← match skipBlank cs with
      | '[' :: cs => close (.array :: frames) false cs
      | '\x7b' :: cs => close (.object :: frames) false cs
      | cs => do
        let cs ← scalar textRoom cs
        close frames true cs
    match closed with
    | none => pure cs
    | some (frame, outer) =>
      let cs ← lead textRoom frame cs
      remainder textRoom room (frame :: outer) cs

def value (room : Nat) (cs : List Char) : Except (Fault Problem) (List Char) :=
  remainder room room [] cs

end SettingsBinding.Json.Skip
