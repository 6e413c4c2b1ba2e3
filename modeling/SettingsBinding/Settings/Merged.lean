import SettingsBinding.Log
import SettingsBinding.Settings.Document
import SettingsBinding.Settings.Merge

/-!
Merging settings documents. The documents are read in order. Before each of them the caller may
ask to stop, and the first document that cannot be read ends the merge; either way nothing is left
of it. Blank documents count for the raw text only.
-/

namespace SettingsBinding

/-- The documents that were read, each with its tree or `none` for a blank one, and what ended the
reading early, if anything did. -/
structure Intake where
  read : List (SettingsDocument × Option SettingsTree)
  stopped : Option (SettingsDocument × Failure)

namespace Intake

def add (d : SettingsDocument) (tree : Option SettingsTree) (rest : Intake) : Intake :=
  { rest with read := (d, tree) :: rest.read }

/-- Reads documents in order. `raised i` says whether a stop is asked for before the document with
index `i`, counted from the index of the first. -/
def ofDocuments (raised : Nat → Bool) (index : Nat) : List SettingsDocument → Intake
  | [] => ⟨[], none⟩
  | d :: rest =>
    if raised index then ⟨[], some (d, .cancelled)⟩
    else
      match d.tree? with
      | .error failure => ⟨[], some (d, failure)⟩
      | .ok tree => add d tree (ofDocuments raised (index + 1) rest)

def trees (intake : Intake) : List SettingsTree := intake.read.filterMap (·.2)

def readEvent : SettingsDocument × Option SettingsTree → LogEvent
  | (d, none) => warn s!"Settings document {d.name} is empty, skipping"
  | (d, some t) => debug s!"Merging {d.name} ({t.size} top-level entries)"

/-- The event of an early end; a failure to read a document is reported by the failure itself. -/
def stopEvent? : SettingsDocument × Failure → Option LogEvent
  | (d, .cancelled) => some (debug s!"Merge cancelled before {d.name}")
  | _ => none

def events (intake : Intake) : List LogEvent :=
  intake.read.map readEvent ++ (intake.stopped.bind stopEvent?).toList

end Intake

/-- What a merge of documents gives: the tree, every text with a line break behind it, and the
number of documents that gave entries. -/
structure MergedSettings where
  tree : SettingsTree
  rawContent : String
  documentCount : Nat

namespace MergedSettings

def ofIntake (intake : Intake) : Except Failure MergedSettings :=
  match intake.stopped with
  | some (_, failure) => .error failure
  | none =>
    .ok {
      tree := SettingsTree.mergeAll intake.trees
      rawContent := String.join (intake.read.map fun (d, _) => d.text ++ "\n")
      documentCount := intake.trees.length }

def ofDocuments (raised : Nat → Bool) (documents : List SettingsDocument) :
    Except Failure MergedSettings :=
  ofIntake (Intake.ofDocuments raised 0 documents)

def events (raised : Nat → Bool) (documents : List SettingsDocument) : List LogEvent :=
  (Intake.ofDocuments raised 0 documents).events

def numberedDocuments (texts : List String) : List SettingsDocument :=
  texts.zipIdx.map fun (text, i) => ⟨s!"document #{i + 1}", text⟩

def treeOfTexts (texts : List String) : Except Failure SettingsTree :=
  (ofDocuments (fun _ => false) (numberedDocuments texts)).map tree

end MergedSettings

end SettingsBinding
