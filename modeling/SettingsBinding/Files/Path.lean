/-!
Paths: names between slashes. Empty names and names of one dot stand for nothing, but for one dot
in front of a relative path.
-/

namespace SettingsBinding

structure Path where
  text : String
  deriving DecidableEq, Repr

namespace Path

def isAbsolute (p : Path) : Bool := p.text.toList.head? == some '/'

/-- The texts between the slashes, of which there is at least one. -/
def pieces (p : Path) : List String := (p.text.toList.splitOn '/').map String.ofList

/-- Whether a piece stands for nothing. -/
def isIdle (piece : String) : Bool := piece == "" || piece == "."

def dropLastWhile {α : Type} (test : α → Bool) (xs : List α) : List α :=
  (xs.reverse.dropWhile test).reverse

/-- The pieces behind the first one that lead somewhere, or stand in front of one that does. -/
def body (p : Path) : List String := dropLastWhile isIdle p.pieces.tail

/-- The first piece. It is empty in a path from the root. -/
def lead (p : Path) : String := p.pieces.headD ""

def ofPieces (pieces : List String) : Path := ⟨"/".intercalate pieces⟩

/-- The last name of a path, if it does not lead to a parent directory. -/
def fileName? (p : Path) : Option String :=
  let last := p.body.getLast?.getD p.lead
  if isIdle last || last == ".." then none else some last

/-- The path without its last name. A single name has the empty path. -/
def parent? (p : Path) : Option Path :=
  match p.body with
  | [] => if p.lead == "" then none else some ⟨""⟩
  | _ :: _ =>
    let front := dropLastWhile isIdle p.body.dropLast
    if front == [] && p.isAbsolute then some ⟨"/"⟩ else some (ofPieces (p.lead :: front))

def join (p : Path) (name : String) : Path :=
  if p.text = "" ∨ p.text.toList.getLast? = some '/' then ⟨p.text ++ name⟩
  else ⟨p.text ++ "/" ++ name⟩

/-- A path and the directories above it, the nearest first. `room` bounds their number. -/
def ancestorsWithin : Nat → Path → List Path
  | 0, p => [p]
  | room + 1, p =>
    match p.parent? with
    | none => [p]
    | some parent => p :: ancestorsWithin room parent

def ancestors (p : Path) : List Path := ancestorsWithin p.pieces.length p

end Path

end SettingsBinding
