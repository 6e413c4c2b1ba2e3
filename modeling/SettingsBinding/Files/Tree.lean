import SettingsBinding.Files.Path
import SettingsBinding.Files.SystemError

/-!
Trees of files. A tree lists its entries, each with the names that lead to it from the root. A
path is followed piece by piece, and every piece but the last has to lead to a directory.
-/

namespace SettingsBinding

/-- The names that lead from the root to a place. -/
abbrev Location := List String

inductive FileEntry where
  | directory
  | text (content : String)
  /-- A file whose content is no text. -/
  | binary
  /-- Neither a directory nor a file, such as a socket. -/
  | special
  /-- A special entry at which the listing of its directory breaks off. -/
  | faulty
  deriving DecidableEq, Repr

namespace FileEntry

def isDirectory : FileEntry → Bool
  | directory => true
  | _ => false

def isFile : FileEntry → Bool
  | text _ | binary => true
  | _ => false

end FileEntry

namespace FileTree

/-- A list of entries with an entry at a place: instead of the one that is there, or at the end. -/
def putIn (l : Location) (e : FileEntry) :
    List (Location × FileEntry) → List (Location × FileEntry)
  | [] => [(l, e)]
  | (k, old) :: rest => if k = l then (k, e) :: rest else (k, old) :: putIn l e rest

theorem keys_putIn (l : Location) (e : FileEntry) (es : List (Location × FileEntry)) :
    (putIn l e es).map Prod.fst =
      if l ∈ es.map Prod.fst then es.map Prod.fst else es.map Prod.fst ++ [l] := by
  induction es with
  | nil => simp [putIn]
  | cons entry rest ih =>
    obtain ⟨k, old⟩ := entry
    by_cases h : k = l
    · simp [putIn, h]
    · by_cases hl : l ∈ rest.map Prod.fst
      · rw [if_pos hl] at ih
        rw [if_pos (by rw [List.map_cons]; exact List.mem_cons_of_mem _ hl)]
        simp [putIn, h, ih]
      · rw [if_neg hl] at ih
        rw [if_neg (by rw [List.map_cons]; exact fun hm =>
          (List.mem_cons.1 hm).elim (fun hkl => h hkl.symm) hl)]
        simp [putIn, h, ih]

theorem nodup_putIn (l : Location) (e : FileEntry) {es : List (Location × FileEntry)}
    (h : (es.map Prod.fst).Nodup) : ((putIn l e es).map Prod.fst).Nodup := by
  rw [keys_putIn]
  split
  · exact h
  · next hl =>
    refine List.nodup_append.2 ⟨h, by simp, fun a ha b hb => ?_⟩
    rw [List.mem_singleton.1 hb]
    exact fun hab => hl (hab ▸ ha)

end FileTree

/-- A tree of files. The root is a directory and is not listed, and no place is listed twice. -/
structure FileTree where
  entries : List (Location × FileEntry) := []
  nodup : (entries.map Prod.fst).Nodup := by simp

namespace FileTree

def get? (t : FileTree) (l : Location) : Option FileEntry :=
  if l = [] then some .directory else t.entries.lookup l

def isDirectory (t : FileTree) (l : Location) : Bool :=
  ((t.get? l).map FileEntry.isDirectory).getD false

/-- Whether a place is free or holds a file. -/
def takesFile (t : FileTree) (l : Location) : Bool := ((t.get? l).map FileEntry.isFile).getD true

def put (t : FileTree) (l : Location) (e : FileEntry) : FileTree :=
  ⟨putIn l e t.entries, nodup_putIn l e t.nodup⟩

theorem lookup_putIn (l k : Location) (e : FileEntry) (es : List (Location × FileEntry)) :
    (putIn l e es).lookup k = if k = l then some e else es.lookup k := by
  induction es with
  | nil =>
    by_cases h : k = l
    · simp [putIn, h]
    · have hkl : (k == l) = false := by simpa using h
      simp [putIn, List.lookup_cons, hkl, h]
  | cons entry rest ih =>
    obtain ⟨j, old⟩ := entry
    by_cases hj : j = l
    · by_cases hk : k = l
      · simp [putIn, hj, hk]
      · have hkl : (k == l) = false := by simpa using hk
        simp [putIn, hj, hk, List.lookup_cons, hkl]
    · by_cases hk : k = j
      · have hl : ¬k = l := fun h => hj (hk ▸ h)
        simp [putIn, hj, hk]
      · have hkj : (k == j) = false := by simpa using hk
        simp [putIn, hj, List.lookup_cons, hkj, ih]

/-- Nothing but the place itself changes. -/
theorem get?_put (t : FileTree) {l : Location} (e : FileEntry) (k : Location) (hl : l ≠ []) :
    (t.put l e).get? k = if k = l then some e else t.get? k := by
  by_cases hk : k = []
  · have hkl : ¬k = l := fun h => hl (h ▸ hk)
    simp [get?, hk, Ne.symm hl]
  · simp [get?, put, hk, lookup_putIn]

def names (t : FileTree) (l : Location) : List String :=
  t.entries.filterMap fun (k, _) => if k.dropLast = l then k.getLast? else none

def step (t : FileTree) (l : Location) (piece : String) : Except SystemError Location :=
  match t.get? l with
  | none => .error .missing
  | some .directory =>
    if Path.isIdle piece then .ok l
    else if piece = ".." then .ok l.dropLast
    else
      match t.get? (l ++ [piece]) with
      | some _ => .ok (l ++ [piece])
      | none => .error .missing
  | some _ => .error .notADirectory

def follow (t : FileTree) (l : Location) (pieces : List String) : Except SystemError Location :=
  pieces.foldlM t.step l

/-- Where a path starts, if the current directory is at a place. -/
def start (directory : Location) (p : Path) : Location :=
  if p.isAbsolute then [] else directory

def checkPath (p : Path) : Except SystemError Unit :=
  if p.text.toList.contains '\x00' then .error .badPath
  else if p.text = "" then .error .missing
  else .ok ()

def resolve (t : FileTree) (directory : Location) (p : Path) : Except SystemError Location := do
  checkPath p
  t.follow (start directory p) p.pieces

def find? (t : FileTree) (directory : Location) (p : Path) : Option FileEntry :=
  match t.resolve directory p with
  | .ok l => t.get? l
  | .error _ => none

def readText (t : FileTree) (directory : Location) (p : Path) : Except SystemError String := do
  match t.get? (← t.resolve directory p) with
  | some (.text content) => .ok content
  | some .binary => .error .notText
  | some .directory => .error .isADirectory
  | some _ => .error .cannotOpen
  | none => .error .missing

/-- Whether a directory is listed to the end. -/
def canList (t : FileTree) (l : Location) : Bool :=
  (t.names l).all fun name => t.get? (l ++ [name]) != some .faulty

def list (t : FileTree) (directory : Location) (p : Path) : Except SystemError (List String) := do
  let l ← t.resolve directory p
  if t.isDirectory l then
    if t.canList l then .ok (t.names l) else .error .inputOutput
  else .error .notADirectory

/-- The place of a new entry: the directory in which it is, and its name, unless that is a dot or
two dots. -/
def target (t : FileTree) (directory : Location) (p : Path) :
    Except SystemError (Location × Option String) := do
  checkPath p
  let pieces := Path.dropLastWhile (· == "") p.pieces
  let l ← t.follow (start directory p) pieces.dropLast
  if t.isDirectory l then
    .ok (l, pieces.getLast?.filter fun name => !Path.isIdle name && name != "..")
  else .error .notADirectory

def makeDirectory (t : FileTree) (directory : Location) (p : Path) :
    Except SystemError FileTree := do
  match ← t.target directory p with
  | (_, none) => .error .exists
  | (l, some name) =>
    match t.get? (l ++ [name]) with
    | some _ => .error .exists
    | none => .ok (t.put (l ++ [name]) .directory)

def writeText (t : FileTree) (directory : Location) (p : Path) (content : String) :
    Except SystemError FileTree := do
  match ← t.target directory p with
  | (_, none) => .error .isADirectory
  | (l, some name) =>
    if p.text.toList.getLast? = some '/' ∨ t.isDirectory (l ++ [name]) then .error .isADirectory
    else if t.takesFile (l ++ [name]) then .ok (t.put (l ++ [name]) (.text content))
    else .error .cannotOpen

/-- The text files of a tree that are not the same in an earlier one, in the order of their paths.
-/
def changes (earlier t : FileTree) : List (String × String) :=
  let changed := t.entries.filterMap fun (l, e) =>
    match e with
    | .text content =>
      if earlier.get? l = some e then none else some ("/".intercalate l, content)
    | _ => none
  changed.mergeSort fun a b => decide (a.1 ≤ b.1)

end FileTree

end SettingsBinding
