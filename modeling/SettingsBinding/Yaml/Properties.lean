import SettingsBinding.Yaml.Token

/-!
Anchors, aliases, tags and directives: what is said of a node or of a document.
-/

namespace SettingsBinding.Yaml

def readName (c : Cursor) : Option (String × Cursor) :=
  let name := c.rest.takeWhile isNameChar
  let behind := c.advance name.length
  if name ≠ [] ∧ (startsBlank behind.rest ∨
      ['?', ':', ',', ']', '\x7d', '%', '@', '\x60'].contains (behind.next?.getD ' ')) then
    some (String.ofList name, behind)
  else none

def uriPunctuation : List Char :=
  [';', '/', '?', ':', '@', '&', '=', '+', '$', '.', '!', '~', '*', '\'', '(', ')']

/-- The characters of a tag that is written in full or in a directive, besides. -/
def fullUriPunctuation : List Char := [',', '[', ']']

def isUriChar (full : Bool) (c : Char) : Bool :=
  isNameChar c || uriPunctuation.contains c || (full && fullUriPunctuation.contains c)

def readUriByte (c : Cursor) : Option (Nat × Cursor) :=
  match c.rest with
  | '%' :: high :: low :: _ => (hexNumber? [high, low]).map fun n => (n, c.advance 3)
  | _ => none

/-- The number of bytes of a character by its first byte, and what that byte says of the
character. -/
def leadingByte? (n : Nat) : Option (Nat × Nat) :=
  if n < 0x80 then some (0, n)
  else if 0xc0 ≤ n ∧ n < 0xe0 then some (1, n - 0xc0)
  else if 0xe0 ≤ n ∧ n < 0xf0 then some (2, n - 0xe0)
  else if 0xf0 ≤ n ∧ n < 0xf8 then some (3, n - 0xf0)
  else none

def readUriBytes (count value : Nat) (c : Cursor) : Option (Nat × Cursor) :=
  match count with
  | 0 => some (value, c)
  | count + 1 => do
    let (n, c) ← readUriByte c
    if 0x80 ≤ n ∧ n < 0xc0 then readUriBytes count (64 * value + (n - 0x80)) c else none

def readUriEscape (c : Cursor) : Option (Char × Cursor) := do
  let (n, c) ← readUriByte c
  let (count, value) ← leadingByte? n
  let (value, c) ← readUriBytes count value c
  pure (Char.ofNat value, c)

def readUri (full : Bool) (room : Nat) (c : Cursor) : Option (List Char × Cursor) :=
  match room, c.next? with
  | room + 1, some character =>
    if character == '%' then do
      let (escaped, c) ← readUriEscape c
      let (text, c) ← readUri full room c
      pure (escaped :: text, c)
    else if isUriChar full character then do
      let (text, c) ← readUri full room (c.advance 1)
      pure (character :: text, c)
    else some ([], c)
  | _, _ => some ([], c)

def readUri1 (full : Bool) (c : Cursor) : Option (List Char × Cursor) := do
  let (text, c) ← readUri full c.rest.length c
  if text = [] then none else pure (text, c)

/-- Reads an exclamation mark, the name behind it and the exclamation mark behind that, so far as
they are there. -/
def readHandle (c : Cursor) : Option (List Char × Cursor) :=
  if c.next? = some '!' then
    let name := (c.rest.drop 1).takeWhile isNameChar
    let behind := c.advance (1 + name.length)
    if behind.next? = some '!' then some ('!' :: name ++ ['!'], behind.advance 1)
    else some ('!' :: name, behind)
  else none

def isHandle (text : List Char) : Bool := 1 < text.length && text.getLast? == some '!'

def readFullTag (c : Cursor) : Option (TagText × Cursor) := do
  let (suffix, c) ← readUri1 true c
  if c.next? = some '>' then pure (⟨"", String.ofList suffix⟩, c.advance 1) else none

/-- Reads a tag that starts with a handle. An exclamation mark alone is a tag without handle. -/
def readShortTag (c : Cursor) : Option (TagText × Cursor) := do
  let (handle, c) ← readHandle c
  if isHandle handle then
    let (suffix, c) ← readUri1 false c
    pure (⟨String.ofList handle, String.ofList suffix⟩, c)
  else
    let (rest, c) ← readUri false c.rest.length c
    let suffix := handle.drop 1 ++ rest
    if suffix = [] then pure (⟨"", "!"⟩, c) else pure (⟨"!", String.ofList suffix⟩, c)

/-- Reads a tag, behind which there is white space, or in brackets a comma. -/
def readTag (inFlow : Bool) (c : Cursor) : Option (TagText × Cursor) := do
  let (tag, c) ←
    if c.rest.take 2 == ['!', '<'] then readFullTag (c.advance 2) else readShortTag c
  if startsBlank c.rest || (inFlow && c.next? == some ',') then pure (tag, c) else none

def maxVersionDigits : Nat := 9

def readVersionNumber (c : Cursor) : Option (Nat × Cursor) :=
  let digits := c.rest.takeWhile Char.isDigit
  if digits ≠ [] ∧ digits.length ≤ maxVersionDigits then
    some (digits.foldl (fun n d => 10 * n + (d.toNat - '0'.toNat)) 0, c.advance digits.length)
  else none

def readVersion (c : Cursor) : Option (Directive × Cursor) := do
  let (major, c) ← readVersionNumber (c.advanceWhile isBlank)
  if c.next? = some '.' then
    let (minor, c) ← readVersionNumber (c.advance 1)
    pure (.version major minor, c)
  else none

def readTagDirective (c : Cursor) : Option (Directive × Cursor) := do
  let (handle, c) ← readHandle (c.advanceWhile isBlank)
  let isBlankBehind := (c.next?.map isBlank).getD false
  if (handle = ['!'] ∨ isHandle handle) ∧ isBlankBehind then
    let (start, c) ← readUri1 true (c.advanceWhile isBlank)
    if startsBlank c.rest then
      pure (.tag (String.ofList handle) (String.ofList start), c)
    else none
  else none

def readDirective (c : Cursor) : Option (Directive × Cursor) := do
  let name := c.rest.takeWhile isNameChar
  let c := c.advance name.length
  if startsBlank c.rest then
    let (directive, c) ←
      match String.ofList name with
      | "YAML" => readVersion c
      | "TAG" => readTagDirective c
      | _ => none
    let c ← c.toLineEnd?
    pure (directive, c)
  else none

end SettingsBinding.Yaml
