import SettingsBinding.Text.Distance
import SettingsBinding.Text.LetterCase
import SettingsBinding.Validation

/-!
Hints for sections that were not found: the section with the most similar name, if it is similar
enough. Names that differ in case only are as similar as can be; else the similarity is the share of
the longer name that need not be edited.
-/

namespace SettingsBinding

/-- A similarity between zero and one, as a quotient. -/
structure Similarity where
  num : Nat
  den : Nat
  deriving DecidableEq, Repr

namespace Similarity

def atMost (a b : Similarity) : Bool := a.num * b.den ≤ b.num * a.den

def threshold : Similarity := ⟨3, 4⟩

def ofNames (a b : String) : Similarity :=
  let length := max a.toList.length b.toList.length
  if Text.equalIgnoringCase a b then ⟨1, 1⟩
  else ⟨length - Text.editDistance a.toList b.toList, length⟩

end Similarity

/-- The better of two candidates; of two equally similar ones, the later. -/
def betterCandidate (best : Option (String × Similarity)) (candidate : String × Similarity) :
    Option (String × Similarity) :=
  match best with
  | none => some candidate
  | some b => if b.2.atMost candidate.2 then some candidate else some b

namespace SettingsTree

/-- The name of the section that is most similar to a key, if any is similar enough. -/
def closestSection? (settings : SettingsTree) (key : String) : Option String :=
  let candidates := settings.sections.map fun e => (e.1, Similarity.ofNames e.1 key)
  let close := candidates.filter fun c => Similarity.threshold.atMost c.2
  (close.foldl betterCandidate none).map Prod.fst

end SettingsTree

namespace ClassMap

def hint? (settings : SettingsTree) (key : String) (c : ConfigurationClass) : Option LogEvent :=
  match settings.section? key with
  | some _ => none
  | none => (settings.closestSection? key).map fun candidate =>
      warn s!"No section '{key}' for {c.className}; did you mean '{candidate}'?"

def hints (classes : ClassMap) (hostKey : String) (settings : SettingsTree) : List LogEvent :=
  (classes.bound hostKey).filterMap fun (key, c) => hint? settings key c

def validationEvents (classes : ClassMap) (hostKey : String) (settings : SettingsTree) :
    List LogEvent :=
  classes.hints hostKey settings ++
    [debug s!"Validation finished with {(classes.mismatches hostKey settings).length} error(s)"]

end ClassMap

end SettingsBinding
