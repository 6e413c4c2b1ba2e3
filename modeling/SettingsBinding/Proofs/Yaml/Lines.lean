import SettingsBinding.Yaml.Reader

/-!
Documents of the simplest kind: a mapping with a line for each entry, in which a word stands in
front of a colon, and behind it a word or a text in single quotes. They are told by their lines, so
that what a reader makes of them can be asked of it without saying how it reads.
-/

namespace SettingsBinding.Yaml

def IsWordStart (c : Char) : Prop := c.isAlphanum ∨ c = '_'

def IsWordPart (c : Char) : Prop := IsWordStart c ∨ c = '-' ∨ c = '.'

instance (c : Char) : Decidable (IsWordStart c) := inferInstanceAs (Decidable (_ ∨ _))

instance (c : Char) : Decidable (IsWordPart c) := inferInstanceAs (Decidable (_ ∨ _))

theorem toNat_lt_of_isWordPart {c : Char} (h : IsWordPart c) : c.toNat < 128 := by
  obtain (h | rfl) | rfl | rfl := h
  · rcases Bool.or_eq_true_iff.1 h with hletter | hdigit
    · rcases Bool.or_eq_true_iff.1 hletter with hupper | hlower
      · have hbounds : 65 ≤ c.toNat ∧ c.toNat ≤ 90 := of_decide_eq_true hupper
        omega
      · have hle : c.toNat ≤ 122 := of_decide_eq_true (Bool.and_eq_true_iff.1 hlower).2
        omega
    · have hle : c.toNat ≤ 57 := of_decide_eq_true (Bool.and_eq_true_iff.1 hdigit).2
      omega
  all_goals decide

/-- Letters A to Z in either case, digits and underscores, and dashes and dots behind them. -/
def IsWord : List Char → Prop
  | [] => False
  | c :: cs => IsWordStart c ∧ ∀ d ∈ cs, IsWordPart d

instance : DecidablePred IsWord
  | [] => .isFalse id
  | _ :: cs =>
    have := cs.decidableBAll IsWordPart
    inferInstanceAs (Decidable (_ ∧ _))

/-- A character that is seen, or a space. -/
def IsShown (c : Char) : Prop := 0x20 ≤ c.toNat ∧ c.toNat ≤ 0x7e

instance (c : Char) : Decidable (IsShown c) := inferInstanceAs (Decidable (_ ∧ _))

inductive LineValue where
  | word (cs : List Char) (h : IsWord cs)
  | quoted (cs : List Char) (h : ∀ c ∈ cs, IsShown c)

namespace LineValue

/-- A text between single quotes, in which a quote is written twice. -/
def quote (cs : List Char) : List Char :=
  cs.flatMap fun c => if c = '\'' then ['\'', '\''] else [c]

def text : LineValue → List Char
  | word cs _ => cs
  | quoted cs _ => '\'' :: quote cs ++ ['\'']

def style : LineValue → ScalarStyle
  | word _ _ => .plain
  | quoted _ _ => .singleQuoted

def meaning : LineValue → String
  | word cs _ => String.ofList cs
  | quoted cs _ => String.ofList cs

end LineValue

/-- A line of a document. A key may have up to 1024 characters in front of its colon. -/
structure Line where
  name : List Char
  value : LineValue
  isWord_name : IsWord name
  length_name : name.length ≤ 1024

namespace Line

def text (line : Line) : List Char := line.name ++ [':', ' '] ++ line.value.text ++ ['\n']

def entry (line : Line) : Node × Node :=
  (.scalar .plain none (String.ofList line.name),
    .scalar line.value.style none line.value.meaning)

theorem text_append (line : Line) (s : List Char) :
    line.text ++ s = line.name ++ ':' :: ' ' :: (line.value.text ++ '\n' :: s) := by
  simp [Line.text]

def document (lines : List Line) : String := String.ofList (lines.flatMap text)

/-- The lines, and behind them a line without a colon. -/
def brokenDocument (lines : List Line) (word : List Char) : String :=
  String.ofList (lines.flatMap text ++ (word ++ ['\n']))

end Line

def IsControl (c : Char) : Prop := c.toNat < 0x20 ∧ c ≠ '\t' ∧ c ≠ '\n' ∧ c ≠ '\r'

/-- No document: the text goes on with a line that has no colon, or holds a control character. -/
inductive IsBroken : String → Prop
  | strayWord {lines : List Line} {word : List Char} (hlines : lines ≠ []) (hword : IsWord word) :
      IsBroken (Line.brokenDocument lines word)
  | control {text : String} (h : ∃ c ∈ text.toList, IsControl c) : IsBroken text

/-- What any reader of YAML does with these texts. -/
structure Reader.Lawful [Reader] : Prop where
  node?_document (lines : List Line) (h : lines ≠ []) :
    Reader.node? (Line.document lines) = some (.mapping (lines.map Line.entry))
  node?_broken (text : String) (h : IsBroken text) : Reader.node? text = none

end SettingsBinding.Yaml
