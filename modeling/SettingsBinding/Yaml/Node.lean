import SettingsBinding.Yaml.Lexer

/-!
The document of a YAML stream as a tree of nodes. An alias stands for the node with its anchor;
inside that node itself it stands for an empty collection.
-/

namespace SettingsBinding.Yaml

inductive Node where
  | scalar (style : ScalarStyle) (tag : Option String) (text : String)
  | sequence (items : List Node)
  | mapping (entries : List (Node × Node))
  deriving Repr, Inhabited

namespace Node

/-- What stands where a node is left out. -/
def empty : Node := .scalar .plain none ""

def text? : Node → Option String
  | scalar _ _ text => some text
  | _ => none

def emptyCollection : CollectionKind → Node
  | .sequence => .sequence []
  | .mapping => .mapping []

end Node

/-- What is left of a stream, and the nodes with anchors in the order of their starts. -/
structure Pending where
  tokens : List Token
  anchored : Array (String × Node) := #[]

abbrev Step (α : Type) := StateT Pending Option α

namespace Step

def peek? : Step (Option Token) := do return (← get).tokens.head?

def skip : Step Unit := modify fun p => { p with tokens := p.tokens.tail }

def nextIsIn (ts : List Token) : Step Bool := do
  return ((← peek?).map ts.contains).getD false

/-- Takes a token away if it comes next. -/
def accept (t : Token) : Step Bool := do
  if ← nextIsIn [t] then
    skip
    return true
  else return false

def expect (t : Token) : Step Unit := do
  if ← accept t then return () else failure

def anchor? : Step (Option String) := do
  match ← peek? with
  | some (.anchor name) =>
    skip
    return some name
  | _ => return none

def tag? : Step (Option TagText) := do
  match ← peek? with
  | some (.tag tag) =>
    skip
    return some tag
  | _ => return none

def properties : Step (Option String × Option TagText) := do
  let anchor ← anchor?
  let tag ← tag?
  match anchor with
  | some name => return (some name, tag)
  | none => return (← anchor?, tag)

def anchored (anchor : Option String) (node : Node) : Step Node := do
  match anchor with
  | some name => modify fun p => { p with anchored := p.anchored.push (name, node) }
  | none => pure ()
  return node

/-- Reads a collection, which has its anchor before it is read. -/
def collection (anchor : Option String) (kind : CollectionKind) (read : Step Node) : Step Node := do
  let position := (← get).anchored.size
  let _ ← anchored anchor (.emptyCollection kind)
  let node ← read
  match anchor with
  | some name =>
    modify fun p => { p with anchored := p.anchored.setIfInBounds position (name, node) }
  | none => pure ()
  return node

/-- The node that an alias stands for: the last one with the anchor. -/
def aliased (name : String) : Step Node := do
  match (← get).anchored.toList.reverse.lookup name with
  | some node => return node
  | none => failure

def orEmpty (stops : List Token) (read : Step Node) : Step Node := do
  if ← nextIsIn stops then return .empty else read

end Step

abbrev TagHandles := List (String × String)

def defaultHandles : TagHandles := [("!", "!"), ("!!", "tag:yaml.org,2002:")]

def TagText.resolve? (handles : TagHandles) (tag : TagText) : Option String :=
  if tag.handle = "" then some tag.suffix
  else (handles.lookup tag.handle).map (· ++ tag.suffix)

inductive Place where
  | block
  /-- In a mapping that is written by indentation, where a sequence needs none of its own. -/
  | blockMapping
  | flow
  deriving DecidableEq, Repr

/-- The tokens in front of which a part of a mapping that is written by indentation is left out. -/
def blockMappingStops : List Token := [.key, .value, .blockEnd]

mutual

def readNode (handles : TagHandles) (room : Nat) (place : Place) : Step Node := do
  match room with
  | 0 => failure
  | room + 1 =>
    if let some (.aliasTo name) ← Step.peek? then
      Step.skip
      return ← Step.aliased name
    let (anchor, tagText) ← Step.properties
    let tag ← tagText.mapM fun t => (t.resolve? handles : Option String)
    let next ← Step.peek?
    if place = .blockMapping ∧ next = some .blockEntry then
      Step.collection anchor .sequence (.sequence <$> readIndentless handles room)
    else
      match next with
      | some (.scalar style text) =>
        Step.skip
        Step.anchored anchor (.scalar style (if tag = some "!" then none else tag) text)
      | some (.flowStart .sequence) =>
        Step.skip
        Step.collection anchor .sequence (.sequence <$> readFlowSequence handles room true)
      | some (.flowStart .mapping) =>
        Step.skip
        Step.collection anchor .mapping (.mapping <$> readFlowMapping handles room true)
      | some (.blockStart kind) =>
        if place = .flow then readEmpty anchor tag
        else
          Step.skip
          match kind with
          | .sequence =>
            Step.collection anchor .sequence (.sequence <$> readBlockSequence handles room)
          | .mapping =>
            Step.collection anchor .mapping (.mapping <$> readBlockMapping handles room)
      | _ => readEmpty anchor tag
where
  /-- A node that has an anchor or a tag only. -/
  readEmpty (anchor tag : Option String) : Step Node :=
    if anchor.isSome || tag.isSome then Step.anchored anchor (.scalar .plain tag "") else failure

def readBlockSequence (handles : TagHandles) (room : Nat) : Step (List Node) := do
  match room with
  | 0 => failure
  | room + 1 =>
    if ← Step.accept .blockEntry then
      let item ← Step.orEmpty [.blockEntry, .blockEnd] (readNode handles room .block)
      return item :: (← readBlockSequence handles room)
    else
      Step.expect .blockEnd
      return []

/-- Reads the elements of a sequence that has no indentation of its own. -/
def readIndentless (handles : TagHandles) (room : Nat) : Step (List Node) := do
  match room with
  | 0 => failure
  | room + 1 =>
    if ← Step.accept .blockEntry then
      let item ← Step.orEmpty (.blockEntry :: blockMappingStops) (readNode handles room .block)
      return item :: (← readIndentless handles room)
    else return []

def readBlockMapping (handles : TagHandles) (room : Nat) : Step (List (Node × Node)) := do
  match room with
  | 0 => failure
  | room + 1 =>
    if ← Step.accept .key then
      let key ← Step.orEmpty blockMappingStops (readNode handles room .blockMapping)
      let value ←
        if ← Step.accept .value then
          Step.orEmpty blockMappingStops (readNode handles room .blockMapping)
        else pure .empty
      return (key, value) :: (← readBlockMapping handles room)
    else
      Step.expect .blockEnd
      return []

/-- Reads the elements of a sequence in brackets, of which `first` tells whether there is none
yet. An element with a key is a mapping of one entry. -/
def readFlowSequence (handles : TagHandles) (room : Nat) (first : Bool) : Step (List Node) := do
  match room with
  | 0 => failure
  | room + 1 =>
    if ← Step.accept (.flowEnd .sequence) then return []
    unless first do Step.expect .flowEntry
    if ← Step.accept .key then
      let key ←
        if ← Step.nextIsIn [.value, .flowEntry, .flowEnd .sequence] then
          Step.skip
          pure .empty
        else readNode handles room .flow
      let value ←
        if ← Step.accept .value then
          Step.orEmpty [.flowEntry, .flowEnd .sequence] (readNode handles room .flow)
        else pure .empty
      return .mapping [(key, value)] :: (← readFlowSequence handles room false)
    else if ← Step.accept (.flowEnd .sequence) then return []
    else
      let item ← readNode handles room .flow
      return item :: (← readFlowSequence handles room false)

def readFlowMapping (handles : TagHandles) (room : Nat) (first : Bool) :
    Step (List (Node × Node)) := do
  match room with
  | 0 => failure
  | room + 1 =>
    if ← Step.accept (.flowEnd .mapping) then return []
    unless first do Step.expect .flowEntry
    if ← Step.accept .key then
      let key ← Step.orEmpty [.value, .flowEntry, .flowEnd .mapping] (readNode handles room .flow)
      let value ←
        if ← Step.accept .value then
          Step.orEmpty [.flowEntry, .flowEnd .mapping] (readNode handles room .flow)
        else pure .empty
      return (key, value) :: (← readFlowMapping handles room false)
    else if ← Step.accept (.flowEnd .mapping) then return []
    else
      let key ← readNode handles room .flow
      return (key, .empty) :: (← readFlowMapping handles room false)

end

structure Preamble where
  hasVersion : Bool := false
  handles : TagHandles := []

namespace Preamble

def versions : List (Nat × Nat) := [(1, 1), (1, 2)]

/-- Adds a line. The version and each handle may be given once. -/
def add? (p : Preamble) : Directive → Option Preamble
  | .version major minor =>
    if p.hasVersion || !versions.contains (major, minor) then none
    else some { p with hasVersion := true }
  | .tag handle start =>
    if (p.handles.lookup handle).isSome then none
    else some { p with handles := p.handles ++ [(handle, start)] }

def read? (p : Preamble) : List Token → Option (Preamble × List Token)
  | .directive d :: rest => (p.add? d).bind fun p => p.read? rest
  | tokens => some (p, tokens)

end Preamble

def Token.endsDocument : Token → Bool
  | .directive _ | .documentStart | .documentEnd => true
  | _ => false

def readContent (handles : TagHandles) (started : Bool) (tokens : List Token) :
    Option (Node × List Token) :=
  if started && (tokens.head?.map Token.endsDocument).getD true then some (.empty, tokens)
  else
    let room := 2 * tokens.length + 2
    ((readNode handles room .block).run { tokens }).map fun (node, p) => (node, p.tokens)

/-- The node of the only document of a stream, or nothing if it has none. -/
def documentOf (tokens : List Token) : Option (Node × List Token) :=
  match tokens with
  | [] => some (.empty, [])
  | .directive _ :: _ | .documentStart :: _ => do
    let (p, tokens) ← ({} : Preamble).read? tokens
    match tokens with
    | .documentStart :: tokens => readContent (p.handles ++ defaultHandles) true tokens
    | _ => none
  | _ => readContent defaultHandles false tokens

/-- The node that a text writes, if it is the only one. A text without a document writes the empty
node. -/
def Node.parse? (text : String) : Option Node := do
  let (node, rest) ← documentOf (← tokens? text)
  if rest.all (· == .documentEnd) then some node else none

end SettingsBinding.Yaml
