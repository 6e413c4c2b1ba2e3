import SettingsBinding.Json.Number
import SettingsBinding.Json.StringText

/-!
Writing JSON values, either without any white space or with one element to a line. Both forms are
one printer; they differ in the white space between the tokens only.
-/

namespace SettingsBinding.Json

/-- The white space of a printed value: on one line, or indented by two spaces a level. -/
inductive Style where
  | compact
  | indented
  deriving DecidableEq, Repr

namespace Style

/-- What stands in front of an element, and of a closing bracket, at a level of nesting. -/
def lineBreak : Style → Nat → List Char
  | compact, _ => []
  | indented, level => '\n' :: List.replicate (2 * level) ' '

def separator : Style → List Char
  | compact => [':']
  | indented => [':', ' ']

theorem lineBreak_isBlank (style : Style) (level : Nat) :
    ∀ c ∈ style.lineBreak level, isBlank c = true := by
  cases style
  · simp [lineBreak]
  · intro c hc
    rcases List.mem_cons.1 hc with rfl | hc
    · rfl
    · rw [List.eq_of_mem_replicate hc]
      rfl

end Style

mutual

def print (style : Style) (level : Nat) : Json → List Char
  | .null => ['n', 'u', 'l', 'l']
  | .bool true => ['t', 'r', 'u', 'e']
  | .bool false => ['f', 'a', 'l', 's', 'e']
  | .number n => n.chars
  | .string s => stringChars s
  | .array [] => ['[', ']']
  | .array (item :: items) =>
    '[' :: style.lineBreak (level + 1) ++ print style (level + 1) item ++
      printItems style (level + 1) items ++ style.lineBreak level ++ [']']
  | .object [] => ['\x7b', '\x7d']
  | .object ((key, value) :: members) =>
    '\x7b' :: style.lineBreak (level + 1) ++ stringChars key ++ style.separator ++
      print style (level + 1) value ++ printMembers style (level + 1) members ++
      style.lineBreak level ++ ['\x7d']

/-- The items behind the first one, each behind a comma. -/
def printItems (style : Style) (level : Nat) : List Json → List Char
  | [] => []
  | item :: items =>
    ',' :: style.lineBreak level ++ print style level item ++ printItems style level items

def printMembers (style : Style) (level : Nat) : List (String × Json) → List Char
  | [] => []
  | (key, value) :: members =>
    ',' :: style.lineBreak level ++ stringChars key ++ style.separator ++
      print style level value ++ printMembers style level members

end

def compact (value : Json) : String := String.ofList (print .compact 0 value)

def pretty (value : Json) : String := String.ofList (print .indented 0 value)

end SettingsBinding.Json
