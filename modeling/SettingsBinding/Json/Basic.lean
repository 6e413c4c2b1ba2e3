import SettingsBinding.Binary64.Basic

/-!
JSON values. An object is a list of members in the order of the text, so a text in which a key
stands twice has a value with both members; `Json.UniqueKeys` says that this happens nowhere.
-/

namespace SettingsBinding

/-- A number is kept exactly where its text is an integer of 64 bits, else as a double. -/
inductive JsonNumber where
  | integer (value : Int)
  | double (value : Binary64)
  deriving DecidableEq, Repr

inductive Json where
  | null
  | bool (value : Bool)
  | number (value : JsonNumber)
  | string (value : String)
  | array (items : List Json)
  | object (members : List (String × Json))
  deriving Repr

inductive JsonKind where
  | null
  | boolean
  | number
  | string
  | array
  | object
  deriving DecidableEq, Repr

namespace JsonKind

def name : JsonKind → String
  | null => "null"
  | boolean => "boolean"
  | number => "number"
  | string => "string"
  | array => "array"
  | object => "object"

def all : List JsonKind := [null, boolean, number, string, array, object]

end JsonKind

namespace Json

def kind : Json → JsonKind
  | .null => .null
  | .bool _ => .boolean
  | .number _ => .number
  | .string _ => .string
  | .array _ => .array
  | .object _ => .object

def keys {α : Type} (members : List (String × α)) : List String := members.map Prod.fst

/-- The members with `value` under `key`: in place of the value that `key` had, or at the end. -/
def insertMember {α : Type} (key : String) (value : α) :
    List (String × α) → List (String × α)
  | [] => [(key, value)]
  | (k, v) :: rest =>
    if k = key then (k, value) :: rest else (k, v) :: insertMember key value rest

/-- Each key once: at its first place, with its last value. -/
def lastValues {α : Type} (members : List (String × α)) : List (String × α) :=
  members.foldl (fun kept (key, value) => insertMember key value kept) []

mutual

/-- The value in which every object has each key once, at its first place with its last value. -/
def withUniqueKeys : Json → Json
  | .null => .null
  | .bool b => .bool b
  | .number n => .number n
  | .string s => .string s
  | .array items => .array (itemsWithUniqueKeys items)
  | .object members => .object (lastValues (membersWithUniqueKeys members))

def itemsWithUniqueKeys : List Json → List Json
  | [] => []
  | item :: rest => item.withUniqueKeys :: itemsWithUniqueKeys rest

def membersWithUniqueKeys : List (String × Json) → List (String × Json)
  | [] => []
  | (key, value) :: rest => (key, value.withUniqueKeys) :: membersWithUniqueKeys rest

end

@[simp] theorem itemsWithUniqueKeys_eq_map (items : List Json) :
    itemsWithUniqueKeys items = items.map withUniqueKeys := by
  induction items with
  | nil => rfl
  | cons item rest ih => simp [itemsWithUniqueKeys, ih]

@[simp] theorem membersWithUniqueKeys_eq_map (members : List (String × Json)) :
    membersWithUniqueKeys members = members.map fun m => (m.1, m.2.withUniqueKeys) := by
  induction members with
  | nil => rfl
  | cons m rest ih => simp [membersWithUniqueKeys, ih]

/-- In every object, at every level, each key stands once. -/
inductive UniqueKeys : Json → Prop
  | null : UniqueKeys .null
  | bool (b : Bool) : UniqueKeys (.bool b)
  | number (n : JsonNumber) : UniqueKeys (.number n)
  | string (s : String) : UniqueKeys (.string s)
  | array {items : List Json} (h : ∀ item ∈ items, UniqueKeys item) : UniqueKeys (.array items)
  | object {members : List (String × Json)} (distinct : (keys members).Nodup)
      (h : ∀ m ∈ members, UniqueKeys m.2) : UniqueKeys (.object members)

end Json

end SettingsBinding
