import SettingsBinding.Json.Number
import SettingsBinding.Json.StringText

/-!
Reading JSON values. The grammar is the strict one: no comma behind the last element, no control
characters in strings, and nothing but white space behind the value. At most `depthLimit` brackets
may be open at a time.

The steps that find the next element of an array or the next key of an object are separate from what
is done with them, so that documents of a fixed shape are read with the same steps.
-/

namespace SettingsBinding.Json

/-- The number of brackets that may be open at a time. -/
def depthLimit : Nat := 127

def readWord : List Char → List Char → Except (Fault Problem) (List Char)
  | [], cs => .ok cs
  | _ :: _, [] => .error (.here .unfinishedValue [])
  | w :: word, c :: rest =>
    if c = w then readWord word rest else .error (.next .expectedWord (c :: rest))

/-- The text from the next element of an array on, or `none` in front of the closing bracket. -/
def nextItem? (first : Bool) (cs : List Char) : Except (Fault Problem) (Option (List Char)) :=
  match skipBlank cs with
  | [] => .error (.next .unfinishedArray [])
  | ']' :: _ => .ok none
  | c :: rest =>
    if first then .ok (some (c :: rest))
    else if c = ',' then
      match skipBlank rest with
      | [] => .error (.next .unfinishedValue [])
      | ']' :: rest => .error (.next .trailingComma (']' :: rest))
      | rest => .ok (some rest)
    else .error (.next .expectedCommaOrBracket (c :: rest))

def closeArray (cs : List Char) : Except (Fault Problem) (List Char) :=
  match skipBlank cs with
  | [] => .error (.next .unfinishedArray [])
  | ']' :: rest => .ok rest
  | ',' :: rest =>
    match skipBlank rest with
    | ']' :: rest => .error (.next .trailingComma (']' :: rest))
    | rest => .error (.next .trailingCharacters rest)
  | rest => .error (.next .trailingCharacters rest)

/-- The text from the quotation mark of the next key of an object on, or `none` in front of the
closing brace. -/
def nextKey? (first : Bool) (cs : List Char) : Except (Fault Problem) (Option (List Char)) :=
  let atKey : List Char → Except (Fault Problem) (Option (List Char))
    | [] => .error (.next .unfinishedValue [])
    | '"' :: rest => .ok (some rest)
    | '\x7d' :: rest => .error (.next .trailingComma ('\x7d' :: rest))
    | rest => .error (.next .keyNotString rest)
  match skipBlank cs with
  | [] => .error (.next .unfinishedObject [])
  | '\x7d' :: _ => .ok none
  | c :: rest =>
    if first then atKey (c :: rest)
    else if c = ',' then atKey (skipBlank rest)
    else .error (.next .expectedCommaOrBrace (c :: rest))

def readColon (cs : List Char) : Except (Fault Problem) (List Char) :=
  match skipBlank cs with
  | [] => .error (.next .unfinishedObject [])
  | ':' :: rest => .ok rest
  | rest => .error (.next .expectedColon rest)

def closeObject (cs : List Char) : Except (Fault Problem) (List Char) :=
  match skipBlank cs with
  | [] => .error (.next .unfinishedObject [])
  | '\x7d' :: rest => .ok rest
  | ',' :: rest => .error (.next .trailingComma (',' :: rest))
  | rest => .error (.next .trailingCharacters rest)

def readItems (readItem : List Char → Except (Fault Problem) (Json × List Char)) (room : Nat)
    (first : Bool) (cs : List Char) : Except (Fault Problem) (List Json × List Char) :=
  match room with
  | 0 => .error (.here .unfinishedArray cs)
  | room + 1 => do
    match ← nextItem? first cs with
    | none =>
      let rest ← closeArray cs
      pure ([], rest)
    | some rest =>
      let (item, rest) ← readItem rest
      let (items, rest) ← readItems readItem room false rest
      pure (item :: items, rest)

/-- Reads the members of an object and its closing brace. `textRoom` bounds the length of keys. -/
def readMembers (textRoom : Nat)
    (readItem : List Char → Except (Fault Problem) (Json × List Char)) (room : Nat)
    (first : Bool) (cs : List Char) : Except (Fault Problem) (List (String × Json) × List Char) :=
  match room with
  | 0 => .error (.here .unfinishedObject cs)
  | room + 1 => do
    match ← nextKey? first cs with
    | none =>
      let rest ← closeObject cs
      pure ([], rest)
    | some rest =>
      let (key, rest) ← readString textRoom rest
      let rest ← readColon rest
      let (value, rest) ← readItem rest
      let (members, rest) ← readMembers textRoom readItem room false rest
      pure ((key, value) :: members, rest)

/-- Reads a value. `room` bounds the lengths of strings, arrays and objects, and `depth` the
number of brackets that may be opened inside each other. -/
def readValue (room depth : Nat) (cs : List Char) : Except (Fault Problem) (Json × List Char) :=
  match skipBlank cs with
  | [] => .error (.next .unfinishedValue [])
  | 'n' :: rest => return (.null, ← readWord ['u', 'l', 'l'] rest)
  | 't' :: rest => return (.bool true, ← readWord ['r', 'u', 'e'] rest)
  | 'f' :: rest => return (.bool false, ← readWord ['a', 'l', 's', 'e'] rest)
  | '-' :: rest => do
    let (n, rest) ← JsonNumber.read true rest
    pure (.number n, rest)
  | '"' :: rest => do
    let (s, rest) ← readString room rest
    pure (.string s, rest)
  | '[' :: rest =>
    match depth with
    | 0 => .error (.next .tooDeep ('[' :: rest))
    | depth + 1 => do
      let (items, rest) ← readItems (readValue room depth) room true rest
      pure (.array items, rest)
  | '\x7b' :: rest =>
    match depth with
    | 0 => .error (.next .tooDeep ('\x7b' :: rest))
    | depth + 1 => do
      let (members, rest) ← readMembers room (readValue room depth) room true rest
      pure (.object members, rest)
  | c :: rest =>
    if c.isDigit then do
      let (n, rest) ← JsonNumber.read false (c :: rest)
      pure (.number n, rest)
    else .error (.next .expectedValue (c :: rest))

def readEnd (cs : List Char) : Except (Fault Problem) Unit :=
  match skipBlank cs with
  | [] => .ok ()
  | rest => .error (.next .trailingCharacters rest)

/-- No string, array or object of a text is longer than this. -/
def roomFor (cs : List Char) : Nat := cs.length + 1

/-- The value that a text writes, with every member of its objects. -/
def read (cs : List Char) : Except (Fault Problem) Json := do
  let (value, rest) ← readValue (roomFor cs) depthLimit cs
  readEnd rest
  pure value

def faultMessage (cs : List Char) (fault : Fault Problem) : String :=
  messageAt fault.problem.message cs fault.left

def parse (text : String) : Except String Json :=
  (read text.toList).mapError (faultMessage text.toList)

def strings? : Json → Option (List String)
  | .array items => items.mapM fun
    | .string s => some s
    | _ => none
  | _ => none

end SettingsBinding.Json
