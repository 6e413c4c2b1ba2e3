import SettingsBinding.Failure
import SettingsBinding.Json.Skip
import SettingsBinding.Model.Member
import SettingsBinding.Text.Blank

/-!
Reading model documents. The shape of a document is checked while its text is read, so that a fault
has a place: a value of the wrong type is at fault behind it, and a record that lacks a field or has
one twice is at fault where reading it is given up, behind its closing bracket if that comes next.
-/

namespace SettingsBinding.Model

open Json (Fault)

/-- Why the reading of the elements of an array or object ends early: a fault that has a place, or a
problem that gets one when the array or object is given up. -/
inductive Stop where
  | fault (fault : Fault Problem)
  | loose (problem : Problem) (rest : List Char)

def ofJsonStep {α : Type} (step : Except (Fault Json.Problem) α) : Except (Fault Problem) α :=
  step.mapError (·.map .json)

/-- A step whose faults have places, among the elements of an array or object. -/
def inside {α : Type} (step : Except (Fault Problem) α) : Except Stop α := step.mapError .fault

def insideJson {α : Type} (step : Except (Fault Json.Problem) α) : Except Stop α :=
  inside (ofJsonStep step)

/-- The text at which an array is given up. -/
def giveUpArray (cs : List Char) : List Char :=
  match Json.skipBlank cs with
  | ']' :: rest => rest
  | ',' :: rest => Json.skipBlank rest
  | rest => rest

def giveUpObject (cs : List Char) : List Char :=
  match Json.skipBlank cs with
  | '\x7d' :: rest => rest
  | rest => rest

def endArray {α : Type} (elements : Except Stop (α × List Char)) :
    Except (Fault Problem) (α × List Char) :=
  match elements with
  | .ok (a, rest) => do
    let rest ← ofJsonStep (Json.closeArray rest)
    pure (a, rest)
  | .error (.fault f) => .error f
  | .error (.loose problem rest) => .error (.here problem (giveUpArray rest))

def endObject {α : Type} (members : Except Stop (α × List Char)) :
    Except (Fault Problem) (α × List Char) :=
  match members with
  | .ok (a, rest) => do
    let rest ← ofJsonStep (Json.closeObject rest)
    pure (a, rest)
  | .error (.fault f) => .error f
  | .error (.loose problem rest) => .error (.here problem (giveUpObject rest))

/-- What a value looks like, and the text behind it. A bracket is not read. -/
def readShape (room : Nat) : List Char → Except (Fault Problem) (Shape × List Char)
  | '[' :: rest => .ok (.sequence, '[' :: rest)
  | '\x7b' :: rest => .ok (.map, '\x7b' :: rest)
  | cs => do
    let (value, rest) ← ofJsonStep (Json.readValue room 0 cs)
    pure (.ofJson value, rest)

def unexpected {α : Type} (room : Nat) (expected : String) (cs : List Char) :
    Except (Fault Problem) α := do
  let (found, rest) ← readShape room cs
  .error (.here (.wrongType found expected) rest)

def readText (room : Nat) (expected : String) (cs : List Char) :
    Except (Fault Problem) (String × List Char) :=
  match Json.skipBlank cs with
  | '"' :: rest => ofJsonStep (Json.readString room rest)
  | rest => unexpected room expected rest

def readElements {α : Type} (readItem : List Char → Except Stop (α × List Char)) (room : Nat)
    (first : Bool) (cs : List Char) : Except Stop (List α × List Char) :=
  match room with
  | 0 => .error (.loose (.json .unfinishedArray) cs)
  | room + 1 => do
    match ← insideJson (Json.nextItem? first cs) with
    | none => pure ([], cs)
    | some rest =>
      let (item, rest) ← readItem rest
      let (items, rest) ← readElements readItem room false rest
      pure (item :: items, rest)

/-- Reads an array, inside of which `depth` brackets may be opened. -/
def readArray {α : Type} (room depth : Nat)
    (readItem : List Char → Except Stop (α × List Char)) (cs : List Char) :
    Except (Fault Problem) (List α × List Char) :=
  match Json.skipBlank cs with
  | '[' :: rest =>
    if depth = 0 then .error (.next (.json .tooDeep) ('[' :: rest))
    else endArray (readElements readItem room true rest)
  | rest => unexpected room "a sequence" rest

/-- Reads an element of a record that is written as an array, unless the array ends here. -/
def readElement? {α : Type} (readItem : List Char → Except (Fault Problem) (α × List Char))
    (first : Bool) (cs : List Char) : Except Stop (Option α × List Char) := do
  match ← insideJson (Json.nextItem? first cs) with
  | none => pure (none, cs)
  | some rest =>
    let (item, rest) ← inside (readItem rest)
    pure (some item, rest)

/-- Reads the members of a record that is written as an object, up to its closing brace. `readField`
reads the value of a known field into the state, and the values of unknown fields are skipped. -/
def readFields {σ : Type}
    (readField : String → Option (σ → List Char → Except (Fault Problem) (σ × List Char)))
    (textRoom room : Nat) (seen : List String) (first : Bool) (state : σ) (cs : List Char) :
    Except Stop (σ × List Char) :=
  match room with
  | 0 => .error (.loose (.json .unfinishedObject) cs)
  | room + 1 => do
    match ← insideJson (Json.nextKey? first cs) with
    | none => pure (state, cs)
    | some rest =>
      let (key, rest) ← insideJson (Json.readString textRoom rest)
      match readField key with
      | none =>
        let rest ← insideJson (Json.readColon rest)
        let rest ← insideJson (Json.Skip.value textRoom rest)
        readFields readField textRoom room seen false state rest
      | some read =>
        if key ∈ seen then .error (.loose (.duplicateField key) rest)
        else
          let rest ← insideJson (Json.readColon rest)
          let (state, rest) ← inside (read state rest)
          readFields readField textRoom room (key :: seen) false state rest

def readRecord {α : Type} (room depth : Nat) (expected : String)
    (ofElements ofMembers : List Char → Except Stop (α × List Char)) (cs : List Char) :
    Except (Fault Problem) (α × List Char) :=
  match Json.skipBlank cs with
  | '[' :: rest =>
    if depth = 0 then .error (.next (.json .tooDeep) ('[' :: rest)) else endArray (ofElements rest)
  | '\x7b' :: rest =>
    if depth = 0 then .error (.next (.json .tooDeep) ('\x7b' :: rest))
    else endObject (ofMembers rest)
  | rest => unexpected room expected rest

def readTag (room : Nat) (cs : List Char) : Except (Fault Problem) (MemberKind × List Char) := do
  let (tag, rest) ← readText room "variant identifier" cs
  match MemberKind.names.lookup tag with
  | some kind => pure (kind, rest)
  | none => .error (.here (.unknownName tag (Json.keys MemberKind.names)) rest)

/-- Reads a tagged object: its tag, which may stand anywhere, and its other members. -/
def readTaggedMembers (textRoom depth room : Nat) (tag : Option MemberKind) (first : Bool)
    (cs : List Char) : Except Stop ((MemberKind × List (String × Json)) × List Char) :=
  match room with
  | 0 => .error (.loose (.json .unfinishedObject) cs)
  | room + 1 => do
    match ← insideJson (Json.nextKey? first cs) with
    | none =>
      match tag with
      | some kind => pure ((kind, []), cs)
      | none => .error (.loose (.missingField "kind") cs)
    | some rest =>
      let (key, rest) ← insideJson (Json.readString textRoom rest)
      if key = "kind" then
        match tag with
        | some _ => .error (.loose (.duplicateField "kind") rest)
        | none =>
          let rest ← insideJson (Json.readColon rest)
          let (kind, rest) ← inside (readTag textRoom rest)
          readTaggedMembers textRoom depth room (some kind) false rest
      else
        let rest ← insideJson (Json.readColon rest)
        let (value, rest) ← insideJson (Json.readValue textRoom depth rest)
        let ((kind, members), rest) ← readTaggedMembers textRoom depth room tag false rest
        pure ((kind, (key, value) :: members), rest)

def readTaggedItems (room depth : Nat) (cs : List Char) :
    Except Stop ((MemberKind × List Json) × List Char) := do
  match ← readElement? (readTag room) true cs with
  | (none, rest) => .error (.loose (.missingField "kind") rest)
  | (some kind, rest) =>
    let (items, rest) ← readElements
      (fun cs => insideJson (Json.readValue room depth cs)) room false rest
    pure ((kind, items), rest)

/-- Reads a member of a type. It is read as a whole before its fields are looked at, so that a
problem with them has no place of its own. -/
def readMember (room depth : Nat) (cs : List Char) : Except Stop (Member × List Char) := do
  let ((kind, content), rest) ← inside <|
    readRecord room depth "internally tagged enum MemberSymbol"
      (fun cs => do
        let ((kind, items), rest) ← readTaggedItems room (depth - 1) cs
        pure ((kind, MemberContent.items items), rest))
      (fun cs => do
        let ((kind, members), rest) ← readTaggedMembers room (depth - 1) room none true cs
        pure ((kind, MemberContent.fields members), rest))
      cs
  match decodeMember kind content with
  | .ok member => pure (member, rest)
  | .error problem => .error (.loose problem rest)

structure TypeSymbolFields where
  name : Option String := none
  nameSpace : String := ""
  members : List Member := []

def readTypeSymbol (room depth : Nat) :
    List Char → Except (Fault Problem) (TypeSymbol × List Char) :=
  let readName := readText room "a string"
  let readMembers := readArray room (depth - 1) (readMember room (depth - 2))
  readRecord room depth "struct TypeSymbol"
    (fun cs => do
      match ← readElement? readName true cs with
      | (none, rest) => .error (.loose (.wrongLength 0 (withElements "struct TypeSymbol" 3)) rest)
      | (some name, rest) =>
        let (nameSpace, rest) ← readElement? readName false rest
        let (members, rest) ← readElement? readMembers false rest
        pure (⟨name, nameSpace.getD "", members.getD []⟩, rest))
    (fun cs => do
      let (fields, rest) ← readFields (σ := TypeSymbolFields)
        (fun
          | "name" => some fun fields cs => do
            let (name, rest) ← readName cs
            pure ({ fields with name := some name }, rest)
          | "namespace" => some fun fields cs => do
            let (nameSpace, rest) ← readName cs
            pure ({ fields with nameSpace }, rest)
          | "members" => some fun fields cs => do
            let (members, rest) ← readMembers cs
            pure ({ fields with members }, rest)
          | _ => none)
        room room [] true {} cs
      match fields.name with
      | some name => pure (⟨name, fields.nameSpace, fields.members⟩, rest)
      | none => .error (.loose (.missingField "name") rest))

def readSyntaxTree (room depth : Nat) :
    List Char → Except (Fault Problem) (SyntaxTree × List Char) :=
  let readPath := readText room "a string"
  let readTypes := readArray room (depth - 1) fun cs => inside (readTypeSymbol room (depth - 2) cs)
  readRecord room depth "struct SyntaxTreeModel"
    (fun cs => do
      let (path, rest) ← readElement? readPath true cs
      let (types, rest) ← readElement? readTypes path.isNone rest
      pure (⟨path.getD "", types.getD []⟩, rest))
    (readFields
      (fun
        | "path" => some fun tree cs => do
          let (path, rest) ← readPath cs
          pure ({ tree with path }, rest)
        | "types" => some fun tree cs => do
          let (types, rest) ← readTypes cs
          pure ({ tree with types }, rest)
        | _ => none)
      room room [] true ⟨"", []⟩)

def readProgram (room depth : Nat) :
    List Char → Except (Fault Problem) (ProgramModel × List Char) :=
  let readTrees := readArray room (depth - 1) fun cs => inside (readSyntaxTree room (depth - 2) cs)
  readRecord room depth "struct ProgramModel"
    (fun cs => do
      let (trees, rest) ← readElement? readTrees true cs
      pure (⟨trees.getD []⟩, rest))
    (readFields
      (fun
        | "syntax_trees" => some fun model cs => do
          let (syntaxTrees, rest) ← readTrees cs
          pure ({ model with syntaxTrees }, rest)
        | _ => none)
      room room [] true ⟨[]⟩)

def readDocument (cs : List Char) : Except (Fault Problem) ProgramModel := do
  let (model, rest) ← readProgram (Json.roomFor cs) Json.depthLimit cs
  ofJsonStep (Json.readEnd rest)
  pure model

end SettingsBinding.Model

namespace SettingsBinding.ProgramModel

/-- The first source file that holds a type with a blank name. -/
def unnamed? (model : ProgramModel) : Option SyntaxTree :=
  model.syntaxTrees.find? fun tree => tree.types.any fun symbol => Text.isBlank symbol.name

/-- The program of a model document. All of its types have names. -/
def parse (text : String) : Except Failure ProgramModel :=
  match Model.readDocument text.toList with
  | .error fault =>
    .error (.model ("malformed model document: " ++
      Json.messageAt fault.problem.message text.toList fault.left))
  | .ok model =>
    match model.unnamed? with
    | some tree => .error (.model s!"type with empty name in syntax tree '{tree.path}'")
    | none => .ok model

def typeCount (model : ProgramModel) : Nat := model.types.length

end SettingsBinding.ProgramModel
