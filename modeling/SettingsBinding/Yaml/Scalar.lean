import SettingsBinding.Yaml.Cursor

/-!
The texts of scalars: plain ones, quoted ones, and blocks of lines. A single line break between two
lines of a plain or a quoted scalar stands for a space, and of several the first one is dropped.
-/

namespace SettingsBinding.Yaml

inductive ScalarStyle where
  | plain
  | singleQuoted
  | doubleQuoted
  | literal
  | folded
  deriving DecidableEq, Repr

/-- White space inside a scalar: the blanks before the first line break, that break, and the breaks
behind it. -/
structure Gap where
  blanks : List Char := []
  first : List Char := []
  more : List Char := []
  broken : Bool := false

namespace Gap

def fold (g : Gap) : List Char :=
  if !g.broken then g.blanks
  else if g.first = ['\n'] then (if g.more = [] then [' '] else g.more)
  else g.first ++ g.more

/-- Reads white space. A tab left of the column `margin` on a later line is refused. -/
def read (margin : Int) (g : Gap) (room : Nat) (c : Cursor) : Option (Gap × Cursor) :=
  match room, c.next? with
  | room + 1, some character =>
    if isBlank character then
      if g.broken && decide ((c.column : Int) < margin) && character == '\t' then none
      else if g.broken then read margin g room (c.advance 1)
      else read margin { g with blanks := g.blanks ++ [character] } room (c.advance 1)
    else if isBreak character then
      let (lineBreak, c) := c.readBreak
      if g.broken then read margin { g with more := g.more ++ lineBreak } room c
      else read margin { g with first := lineBreak, broken := true } room c
    else some (g, c)
  | _, _ => some (g, c)

end Gap

/-- Whether a plain scalar ends in front of a text. In brackets it also ends at their punctuation.
-/
def endsPlain (inFlow : Bool) : List Char → Bool
  | [] => true
  | c :: rest =>
    isBlank c || isBreak c || (c == ':' && startsBlank rest) ||
      (inFlow && [',', '[', ']', '\x7b', '\x7d'].contains c)

/-- Whether a colon in brackets is followed by punctuation, which is refused. -/
def hasStrayColon (inFlow : Bool) : List Char → Bool
  | ':' :: c :: _ => inFlow && [',', '?', '[', ']', '\x7b', '\x7d'].contains c
  | _ => false

def readPlainRun (inFlow : Bool) (room : Nat) (c : Cursor) : Option (List Char × Cursor) :=
  match room, c.next? with
  | room + 1, some character =>
    if !startsBlank c.rest && hasStrayColon inFlow c.rest then none
    else if endsPlain inFlow c.rest then some ([], c)
    else do
      let (text, c) ← readPlainRun inFlow room (c.advance 1)
      pure (character :: text, c)
  | _, _ => some ([], c)

/-- A scalar that was read. A plain one tells whether a line break was read behind it. -/
structure ReadScalar where
  text : List Char
  lineEnded : Bool
  cursor : Cursor

/-- Reads a plain scalar, of which `text` was read and `gap` is the white space behind it. Outside
of brackets, later lines reach at least to the column `margin`. -/
def readPlain (inFlow : Bool) (margin : Int) (text : List Char) (gap : Gap) (room : Nat)
    (c : Cursor) : Option ReadScalar :=
  let done : ReadScalar := ⟨text, gap.broken, c⟩
  match room with
  | 0 => some done
  | room + 1 =>
    if c.atDocumentMark || c.next? == some '#' then some done
    else do
      let (run, behind) ← readPlainRun inFlow (room + 1) c
      let text := if run = [] then text else text ++ gap.fold ++ run
      let gap := if run = [] then gap else {}
      if behind.rest = [] || !startsBlank behind.rest then
        pure ⟨text, gap.broken, behind⟩
      else
        let (gap, behind) ← gap.read margin (room + 1) behind
        if !inFlow && decide ((behind.column : Int) < margin) then
          pure ⟨text, gap.broken, behind⟩
        else readPlain inFlow margin text gap room behind

def escapes : List (Char × Char) :=
  [('0', '\x00'), ('a', '\x07'), ('b', '\x08'), ('t', '\t'), ('\t', '\t'), ('n', '\n'),
    ('v', '\x0b'), ('f', '\x0c'), ('r', '\r'), ('e', '\x1b'), (' ', ' '), ('"', '"'), ('/', '/'),
    ('\\', '\\'), ('N', '\u0085'), ('_', '\u00a0'), ('L', '\u2028'), ('P', '\u2029')]

def numericEscapes : List (Char × Nat) := [('x', 2), ('u', 4), ('U', 8)]

def hexDigit? (c : Char) : Option Nat :=
  if c.isDigit then some (c.toNat - '0'.toNat)
  else if 'a' ≤ c ∧ c ≤ 'f' then some (c.toNat - 'a'.toNat + 10)
  else if 'A' ≤ c ∧ c ≤ 'F' then some (c.toNat - 'A'.toNat + 10)
  else none

def hexNumber? (digits : List Char) : Option Nat :=
  digits.foldlM (fun n d => (hexDigit? d).map (16 * n + ·)) 0

def character? (n : Nat) : Option Char :=
  if n ≤ 0x10ffff ∧ ¬(0xd800 ≤ n ∧ n ≤ 0xdfff) then some (Char.ofNat n) else none

def readEscape (c : Cursor) : Option (Char × Cursor) := do
  let letter ← c.next?
  match escapes.lookup letter with
  | some character => some (character, c.advance 1)
  | none =>
    let count ← numericEscapes.lookup letter
    let digits := (c.rest.drop 1).take count
    if digits.length < count then none
    else
      let character ← (hexNumber? digits).bind character?
      some (character, c.advance (count + 1))

def readQuoted (single : Bool) (room : Nat) (c : Cursor) : Option (List Char × Cursor) :=
  match room with
  | 0 => none
  | room + 1 => do
    if c.atDocumentMark then none
    else
      let quote := if single then '\'' else '"'
      let character ← c.next?
      if isBlank character || isBreak character then
        let (gap, c) ← ({} : Gap).read (-1) (room + 1) c
        let (text, c) ← readQuoted single room c
        pure (gap.fold ++ text, c)
      else if single && c.rest.take 2 == ['\'', '\''] then
        let (text, c) ← readQuoted single room (c.advance 2)
        pure ('\'' :: text, c)
      else if character == quote then pure ([], c.advance 1)
      else if !single && character == '\\' then
        let c := c.advance 1
        if (c.next?.map isBreak).getD false then
          let (gap, c) ← ({ broken := true } : Gap).read (-1) (room + 1) c.readBreak.2
          let (text, c) ← readQuoted single room c
          pure (gap.fold ++ text, c)
        else
          let (escaped, c) ← readEscape c
          let (text, c) ← readQuoted single room c
          pure (escaped :: text, c)
      else
        let (text, c) ← readQuoted single room (c.advance 1)
        pure (character :: text, c)

/-- What is kept of the line breaks at the end of a block. -/
inductive Chomping where
  | strip
  | clip
  | keep
  deriving DecidableEq, Repr

/-- The head of a block: what is kept at its end, and its indentation relative to the collection
that it stands in, if that is given. -/
structure BlockHead where
  chomping : Chomping := .clip
  indent : Option Nat := none

namespace BlockHead

def chompingOf? : Char → Option Chomping
  | '+' => some .keep
  | '-' => some .strip
  | _ => none

def readIndent (head : BlockHead) (c : Cursor) : Option (BlockHead × Cursor) :=
  match c.next? with
  | some d =>
    if d == '0' then none
    else if d.isDigit then
      some ({ head with indent := some (d.toNat - '0'.toNat) }, c.advance 1)
    else some (head, c)
  | none => some (head, c)

def readChomping (head : BlockHead) (c : Cursor) : BlockHead × Cursor :=
  match c.next?.bind chompingOf? with
  | some chomping => ({ head with chomping }, c.advance 1)
  | none => (head, c)

def read (c : Cursor) : Option (BlockHead × Cursor) :=
  match c.next?.bind chompingOf? with
  | some _ =>
    let (head, c) := readChomping {} c
    head.readIndent c
  | none => do
    let (head, behind) ← ({} : BlockHead).readIndent c
    if head.indent.isSome then pure (head.readChomping behind) else pure (head, behind)

end BlockHead

/-- The empty lines in front of a line of a block: their breaks, and the widest of their
indentations and that of the line itself. -/
structure BlockBreaks where
  breaks : List Char := []
  widest : Nat := 0

/-- Reads empty lines and indentation, up to the column `indent` where that is known. -/
def readBlockBreaks (indent : Option Nat) (b : BlockBreaks) (room : Nat) (c : Cursor) :
    Option (BlockBreaks × Cursor) :=
  match room with
  | 0 => some (b, c)
  | room + 1 =>
    let spaces := (c.rest.takeWhile (· == ' ')).length
    let c := c.advance (match indent with
      | some n => min spaces (n - c.column)
      | none => spaces)
    let b := { b with widest := max b.widest c.column }
    let inMargin := match indent with
      | some n => decide (c.column < n)
      | none => true
    match c.next? with
    | some character =>
      if inMargin && character == '\t' then none
      else if isBreak character then
        let (lineBreak, c) := c.readBreak
        readBlockBreaks indent { b with breaks := b.breaks ++ lineBreak } room c
      else some (b, c)
    | none => some (b, c)

/-- Joins a line break to the text of a block: a folded one between two lines that do not start with
white space stands for a space, or for nothing if empty lines follow. -/
def joinBreak (literal : Bool) (lineBreak breaks : List Char) (blankBefore blankBehind : Bool) :
    List Char :=
  if !literal && lineBreak == ['\n'] && !blankBefore && !blankBehind then
    (if breaks = [] then [' '] else []) ++ breaks
  else lineBreak ++ breaks

/-- Reads the lines of a block, all of which are indented to the column `indent`. `text` is what was
read, `lineBreak` the break of its last line, and `breaks` those of the empty lines behind it. -/
def readBlockLines (literal : Bool) (indent : Nat) (text lineBreak breaks : List Char)
    (blankBefore : Bool) (room : Nat) (c : Cursor) :
    Option ((List Char × List Char × List Char) × Cursor) :=
  let done := ((text, lineBreak, breaks), c)
  match room with
  | 0 => some done
  | room + 1 =>
    match c.next? with
    | none => some done
    | some character =>
      if c.column ≠ indent then some done
      else do
        let blankBehind := isBlank character
        let text := text ++ joinBreak literal lineBreak breaks blankBefore blankBehind
        let line := c.rest.takeWhile (!isBreak ·)
        let (lineBreak, c) := (c.advance line.length).readBreak
        let (b, c) ← readBlockBreaks (some indent) {} (room + 1) c
        readBlockLines literal indent (text ++ line) lineBreak b.breaks blankBehind room c

/-- Reads a block behind its indicator. `parent` is the indentation of the collection that it stands
in, or negative at the top level. -/
def readBlock (literal : Bool) (parent : Int) (room : Nat) (c : Cursor) :
    Option (List Char × Cursor) := do
  let (head, c) ← BlockHead.read c
  let c ← c.toLineEnd?
  let given := head.indent.map fun n => (max parent 0).toNat + n
  let (leading, c) ← readBlockBreaks given {} room c
  let indent := given.getD (max (max leading.widest (parent + 1).toNat) 1)
  let ((text, lineBreak, breaks), c) ←
    readBlockLines literal indent [] [] leading.breaks false room c
  let tail := match head.chomping with
    | .strip => []
    | .clip => lineBreak
    | .keep => lineBreak ++ breaks
  pure (text ++ tail, c)

end SettingsBinding.Yaml
