import SettingsBinding.Yaml.Properties

/-!
From the text of a YAML stream to its tokens. A key is recognised only by the colon behind it, so
every token that may turn out to be a key is kept in mind, one for each pair of open brackets; the
tokens of the key, and of the mapping that it may start, are then inserted in front of it.
-/

namespace SettingsBinding.Yaml

/-- A token that is a key if a colon follows. -/
structure PossibleKey where
  /-- At the indentation of the collection around it nothing else can stand. -/
  required : Bool
  /-- Its position among the tokens. -/
  position : Nat
  /-- Where it starts. -/
  start : Cursor

namespace PossibleKey

/-- The most characters from the start of a key to the colon behind it. -/
def maxLength : Nat := 1024

def isStale (key : PossibleKey) (c : Cursor) : Bool :=
  decide (key.start.line < c.line) || decide (key.start.index + maxLength < c.index)

end PossibleKey

structure Lexer where
  cursor : Cursor
  tokens : Array Token := #[]
  /-- The column of the innermost collection that is written by indentation, or `-1`. -/
  indent : Int := -1
  outerIndents : List Int := []
  /-- Whether a key may start here. -/
  keyAllowed : Bool := true
  possibleKey : Option PossibleKey := none
  /-- The possible keys outside of the brackets that are open. -/
  outerKeys : List (Option PossibleKey) := []

namespace Lexer

def inFlow (l : Lexer) : Bool := !l.outerKeys.isEmpty

def push (l : Lexer) (t : Token) : Lexer := { l with tokens := l.tokens.push t }

def allowKey (l : Lexer) (allowed : Bool) : Lexer := { l with keyAllowed := allowed }

def moveTo (l : Lexer) (c : Cursor) : Lexer := { l with cursor := c }

/-- Moves over white space, comments and line breaks. A tab counts as white space only where no
key may start. -/
def skipBlank (room : Nat) (l : Lexer) : Lexer :=
  match room with
  | 0 => l
  | room + 1 =>
    let c := l.cursor
    let c := if c.index = 0 ∧ c.next? = some byteOrderMark then c.advance 1 else c
    let c := c.advanceWhile fun x => x == ' ' || ((l.inFlow || !l.keyAllowed) && x == '\t')
    let c := if c.next? = some '#' then c.advanceWhile (!isBreak ·) else c
    if (c.next?.map isBreak).getD false then
      skipBlank room { l with cursor := c.readBreak.2, keyAllowed := l.keyAllowed || !l.inFlow }
    else l.moveTo c

def dropStale (c : Cursor) : Option PossibleKey → Option (Option PossibleKey)
  | none => some none
  | some key =>
    if key.isStale c then (if key.required then none else some none) else some (some key)

def dropStaleKeys (l : Lexer) : Option Lexer := do
  let possibleKey ← dropStale l.cursor l.possibleKey
  let outerKeys ← l.outerKeys.mapM (dropStale l.cursor)
  pure { l with possibleKey, outerKeys }

/-- Forgets the possible key, which is refused where nothing but a key can stand. -/
def dropKey (l : Lexer) : Option Lexer :=
  match l.possibleKey with
  | some key => if key.required then none else some { l with possibleKey := none }
  | none => some l

def saveKey (l : Lexer) : Option Lexer :=
  if l.keyAllowed then do
    let required := !l.inFlow && l.indent == (l.cursor.column : Int)
    let l ← l.dropKey
    pure { l with possibleKey := some ⟨required, l.tokens.size, l.cursor⟩ }
  else some l

def unindentTo (column indent : Int) (outer : List Int) (tokens : Array Token) :
    Int × List Int × Array Token :=
  if column < indent then
    match outer with
    | next :: outer => unindentTo column next outer (tokens.push .blockEnd)
    | [] => (indent, [], tokens)
  else (indent, outer, tokens)

def unindent (l : Lexer) (column : Int) : Lexer :=
  if l.inFlow then l
  else
    let (indent, outerIndents, tokens) := unindentTo column l.indent l.outerIndents l.tokens
    { l with indent, outerIndents, tokens }

/-- Starts a collection at a column behind that of the one around it. Its token comes at a position
among the tokens. -/
def indentTo (l : Lexer) (column position : Nat) (kind : CollectionKind) : Lexer :=
  if !l.inFlow && decide (l.indent < (column : Int)) then
    { l with
      indent := column
      outerIndents := l.indent :: l.outerIndents
      tokens := l.tokens.insertIdxIfInBounds position (.blockStart kind) }
  else l

def indentHere (l : Lexer) (kind : CollectionKind) : Option Lexer :=
  if l.inFlow then some l
  else if l.keyAllowed then some (l.indentTo l.cursor.column l.tokens.size kind)
  else none

def indicator (l : Lexer) (length : Nat) (t : Token) : Lexer :=
  (l.moveTo (l.cursor.advance length)).push t

def documentMark (l : Lexer) (t : Token) : Option Lexer := do
  let l ← (l.unindent (-1)).dropKey
  pure ((l.allowKey false).indicator 3 t)

def directive (l : Lexer) : Option Lexer := do
  let l ← (l.unindent (-1)).dropKey
  let (d, c) ← readDirective (l.cursor.advance 1)
  pure (((l.allowKey false).moveTo c).push (.directive d))

def flowStart (l : Lexer) (kind : CollectionKind) : Option Lexer := do
  let l ← l.saveKey
  let l := { l with outerKeys := l.possibleKey :: l.outerKeys, possibleKey := none }
  pure ((l.allowKey true).indicator 1 (.flowStart kind))

def flowEnd (l : Lexer) (kind : CollectionKind) : Option Lexer := do
  let l ← l.dropKey
  let l := match l.outerKeys with
    | key :: outerKeys => { l with possibleKey := key, outerKeys }
    | [] => l
  pure ((l.allowKey false).indicator 1 (.flowEnd kind))

def flowEntry (l : Lexer) : Option Lexer := do
  let l ← l.dropKey
  pure ((l.allowKey true).indicator 1 .flowEntry)

def blockEntry (l : Lexer) : Option Lexer := do
  let l ← (← l.indentHere .sequence).dropKey
  pure ((l.allowKey true).indicator 1 .blockEntry)

def key (l : Lexer) : Option Lexer := do
  let l ← (← l.indentHere .mapping).dropKey
  pure ((l.allowKey (!l.inFlow)).indicator 1 .key)

def value (l : Lexer) : Option Lexer :=
  match l.possibleKey with
  | some key =>
    let l := { l with
      possibleKey := none
      tokens := l.tokens.insertIdxIfInBounds key.position .key }
    let l := l.indentTo key.start.column key.position .mapping
    some ((l.allowKey false).indicator 1 .value)
  | none => do
    let l ← l.indentHere .mapping
    pure ((l.allowKey (!l.inFlow)).indicator 1 .value)

def node (l : Lexer) (read : Cursor → Option (Token × Cursor)) : Option Lexer := do
  let l ← l.saveKey
  let (t, c) ← read l.cursor
  pure (((l.allowKey false).moveTo c).push t)

def aliasTo (l : Lexer) : Option Lexer :=
  l.node fun c => (readName (c.advance 1)).map fun (name, c) => (.aliasTo name, c)

def anchor (l : Lexer) : Option Lexer :=
  l.node fun c => (readName (c.advance 1)).map fun (name, c) => (.anchor name, c)

def tag (l : Lexer) : Option Lexer :=
  l.node fun c => (readTag l.inFlow c).map fun (tag, c) => (.tag tag, c)

def quoted (l : Lexer) (single : Bool) : Option Lexer :=
  l.node fun c =>
    (readQuoted single (c.rest.length + 1) (c.advance 1)).map fun (text, c) =>
      (.scalar (if single then .singleQuoted else .doubleQuoted) (String.ofList text), c)

/-- Reads a plain scalar. If it ends behind a line break, a key may start there. -/
def plain (l : Lexer) : Option Lexer := do
  let l ← l.saveKey
  let s ← readPlain l.inFlow (l.indent + 1) [] {} (l.cursor.rest.length + 1) l.cursor
  pure (((l.allowKey s.lineEnded).moveTo s.cursor).push (.scalar .plain (String.ofList s.text)))

def block (l : Lexer) (literal : Bool) : Option Lexer := do
  let l ← l.dropKey
  let (text, c) ← readBlock literal l.indent (l.cursor.rest.length + 1) (l.cursor.advance 1)
  pure (((l.allowKey true).moveTo c).push
    (.scalar (if literal then .literal else .folded) (String.ofList text)))

def indicators : List Char :=
  ['-', '?', ':', ',', '[', ']', '\x7b', '\x7d', '#', '&', '*', '!', '|', '>', '\'', '"', '%', '@',
    '\x60']

/-- Whether a plain scalar starts here. A dash, and outside of brackets a question mark or a
colon, may start one if no white space follows. -/
def startsPlain (inFlow : Bool) (c : Char) (rest : List Char) : Bool :=
  (!isBlank c && !isBreak c && !indicators.contains c) ||
    (c == '-' && !startsBlank rest) ||
    (!inFlow && (c == '?' || c == ':') && !startsBlank rest)

def token (l : Lexer) (c : Char) (rest : List Char) : Option Lexer :=
  if l.cursor.column == 0 && c == '%' then l.directive
  else if l.cursor.atDocumentMark then
    l.documentMark (if c == '-' then .documentStart else .documentEnd)
  else
    match c with
    | '[' => l.flowStart .sequence
    | '\x7b' => l.flowStart .mapping
    | ']' => l.flowEnd .sequence
    | '\x7d' => l.flowEnd .mapping
    | ',' => l.flowEntry
    | '*' => l.aliasTo
    | '&' => l.anchor
    | '!' => l.tag
    | '\'' => l.quoted true
    | '"' => l.quoted false
    | _ =>
      if c == '-' && startsBlank rest then l.blockEntry
      else if c == '?' && (l.inFlow || startsBlank rest) then l.key
      else if c == ':' && (l.inFlow || startsBlank rest) then l.value
      else if c == '|' && !l.inFlow then l.block true
      else if c == '>' && !l.inFlow then l.block false
      else if startsPlain l.inFlow c rest then l.plain
      else none

def finish (l : Lexer) : Option (List Token) := do
  let l ← (l.unindent (-1)).dropKey
  pure l.tokens.toList

/-- Moves to the next token, in front of which collections may end. -/
def ready (l : Lexer) : Option Lexer := do
  let l ← (l.skipBlank (l.cursor.rest.length + 1)).dropStaleKeys
  pure (l.unindent l.cursor.column)

def run (room : Nat) (l : Lexer) : Option (List Token) :=
  match room with
  | 0 => l.ready.bind finish
  | room + 1 => do
    let l ← l.ready
    match l.cursor.rest with
    | c :: rest => run room (← l.token c rest)
    | [] => l.finish

end Lexer

def tokens? (text : String) : Option (List Token) :=
  let cs := text.toList
  if cs.all isAllowed then ({ cursor := { rest := cs } } : Lexer).run (cs.length + 1) else none

end SettingsBinding.Yaml
