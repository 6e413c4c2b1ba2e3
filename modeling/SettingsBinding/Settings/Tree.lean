import SettingsBinding.Json.Basic

/-!
Settings trees. Nested objects of a settings document are trees of their own; all other values are
leaves, arrays included. The top-level entries that hold a tree are the sections.
-/

namespace SettingsBinding

inductive Setting where
  | null
  | bool (value : Bool)
  | number (value : JsonNumber)
  | string (value : String)
  | array (items : List Json)
  | tree (entries : List (String × Setting))
  deriving Repr

/-- A settings tree: entries in the order in which they were first written. -/
abbrev SettingsTree := List (String × Setting)

namespace Setting

def kind : Setting → JsonKind
  | null => .null
  | bool _ => .boolean
  | number _ => .number
  | string _ => .string
  | array _ => .array
  | tree _ => .object

def asTree? : Setting → Option SettingsTree
  | tree entries => some entries
  | _ => none

def isTree (s : Setting) : Bool := s.asTree?.isSome

mutual

def ofJson : Json → Setting
  | .null => .null
  | .bool b => .bool b
  | .number n => .number n
  | .string s => .string s
  | .array items => .array items
  | .object members => .tree (entriesOfJson members)

def entriesOfJson : List (String × Json) → SettingsTree
  | [] => []
  | (key, value) :: rest => (key, ofJson value) :: entriesOfJson rest

end

mutual

def toJson : Setting → Json
  | .null => .null
  | .bool b => .bool b
  | .number n => .number n
  | .string s => .string s
  | .array items => .array items
  | .tree entries => .object (entriesToJson entries)

def entriesToJson : SettingsTree → List (String × Json)
  | [] => []
  | (key, value) :: rest => (key, toJson value) :: entriesToJson rest

end

@[simp] theorem entriesOfJson_eq_map (members : List (String × Json)) :
    entriesOfJson members = members.map fun m => (m.1, ofJson m.2) := by
  induction members with
  | nil => rfl
  | cons m rest ih => simp [entriesOfJson, ih]

@[simp] theorem entriesToJson_eq_map (entries : SettingsTree) :
    entriesToJson entries = entries.map fun e => (e.1, toJson e.2) := by
  induction entries with
  | nil => rfl
  | cons e rest ih => simp [entriesToJson, ih]

/-- In every tree, at every level, each key stands once; so it does in the objects inside arrays. -/
inductive UniqueKeys : Setting → Prop
  | null : UniqueKeys .null
  | bool (b : Bool) : UniqueKeys (.bool b)
  | number (n : JsonNumber) : UniqueKeys (.number n)
  | string (s : String) : UniqueKeys (.string s)
  | array {items : List Json} (h : ∀ item ∈ items, Json.UniqueKeys item) :
      UniqueKeys (.array items)
  | tree {entries : SettingsTree} (distinct : (Json.keys entries).Nodup)
      (h : ∀ e ∈ entries, UniqueKeys e.2) : UniqueKeys (.tree entries)

end Setting

namespace SettingsTree

/-- The tree of a JSON object, or the kind of a value that is none. -/
def ofJson (value : Json) : Except JsonKind SettingsTree :=
  match Setting.ofJson value with
  | .tree entries => .ok entries
  | other => .error other.kind

def toJson (t : SettingsTree) : Json := (Setting.tree t).toJson

/-- The number of entries at the top level. -/
def size (t : SettingsTree) : Nat := t.length

def get? (t : SettingsTree) (key : String) : Option Setting := t.lookup key

def contains (t : SettingsTree) (key : String) : Bool := (t.get? key).isSome

def keys (t : SettingsTree) : List String := Json.keys t

def sections (t : SettingsTree) : List (String × SettingsTree) :=
  t.filterMap fun (key, value) => value.asTree?.map (key, ·)

def scalars (t : SettingsTree) : List (String × Setting) := t.filter fun e => !e.2.isTree

def section? (t : SettingsTree) (key : String) : Option SettingsTree :=
  (t.get? key).bind Setting.asTree?

end SettingsTree

end SettingsBinding
