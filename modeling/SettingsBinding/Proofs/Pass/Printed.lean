import SettingsBinding.Proofs.Merge.Depth
import SettingsBinding.Proofs.Pass.Outcome
import SettingsBinding.Proofs.Settings.Printed

/-!
The printed result of a merge in place of the documents that were merged. The merged tree has each
key once and nests no deeper than the documents, so its text is read as the same tree; and as a pass
sees nothing of the documents but the tree, it ends in the same way for the one text.
-/

namespace SettingsBinding

open MergedSettings (ofDocuments ofRead ofDocuments_eq_ok_iff ofDocuments_of_map_tree?)
open SettingsDocument (trees)

variable {documents : List SettingsDocument} {merged : MergedSettings}

namespace MergedSettings

theorem uniqueKeys_tree_ofRead (documents : List SettingsDocument) :
    (Setting.tree (ofRead documents).tree).UniqueKeys :=
  SettingsTree.uniqueKeys_mergeAll fun _ => SettingsDocument.uniqueKeys_of_mem_trees

theorem depth_tree_ofRead_le (documents : List SettingsDocument) :
    (ofRead documents).tree.toJson.depth ≤ Json.depthLimit :=
  SettingsTree.depth_toJson_mergeAll_le (fun _ => SettingsDocument.uniqueKeys_of_mem_trees)
    (Nat.succ_pos 126) fun _ => SettingsDocument.depth_le_of_mem_trees

/-- Every number of the merged tree is written by one of the documents. -/
theorem exists_written_number {number : JsonNumber}
    (h : number ∈ (ofRead documents).tree.toJson.numbers) :
    ∃ d ∈ documents, ∃ written, Json.parse d.text = .ok written ∧ number ∈ written.numbers := by
  obtain ⟨t, ht, h⟩ := SettingsTree.exists_mem_numbers_of_mergeAll
    (fun _ => SettingsDocument.uniqueKeys_of_mem_trees) h
  obtain ⟨d, hd, written, hparse, htree⟩ := SettingsDocument.exists_written_of_mem_trees ht
  rw [htree] at h
  exact ⟨d, hd, written, hparse, Json.numbers_withUniqueKeys_subset written number h⟩

/-- The printed tree of a merge is read as the tree. -/
theorem tree?_printed
    (hnumbers : ∀ d ∈ documents, ∀ written, Json.parse d.text = .ok written →
      ∀ n ∈ written.numbers, n.IsWord)
    (name : String) {blanks : List Char} (hblanks : ∀ c ∈ blanks, Json.isBlank c = true) :
    (SettingsDocument.mk name (String.ofList
      ((ofRead documents).tree.toJson.pretty.toList ++ blanks))).tree? =
        .ok (some (ofRead documents).tree) := by
  rw [Json.pretty, String.toList_ofList]
  refine SettingsTree.tree?_print name .indented (uniqueKeys_tree_ofRead documents) ?_
    (depth_tree_ofRead_le documents) hblanks
  intro n hn
  obtain ⟨d, hd, written, hparse, hn⟩ := exists_written_number hn
  exact hnumbers d hd written hparse n hn

end MergedSettings

namespace PassInput

/-- The end of a pass depends on the configuration, the types and the merged tree only. -/
theorem outcome_report_congr (input other : PassInput) {again : MergedSettings}
    (hconfig : input.config = other.config) (htypes : input.types = other.types)
    (htree : merged.tree = again.tree) :
    input.outcome (input.report merged) = other.outcome (other.report again) := by
  have hmismatches : (input.report merged).mismatches = (other.report again).mismatches := by
    simp only [report, classes, hconfig, htypes, htree]
  have hhost : input.hostSource? = other.hostSource? := by
    simp only [hostSource?, classes, hconfig, htypes]
  rw [outcome, outcome, CheckReport.isValid, CheckReport.isValid, CheckReport.messages,
    CheckReport.messages, hmismatches, hhost, hconfig]

theorem generate_congr {config : Config} {types : List TypeSymbol} {others : List SettingsDocument}
    {again : MergedSettings} (hmerge : ofDocuments (fun _ => false) documents = .ok merged)
    (hagain : ofDocuments (fun _ => false) others = .ok again) (htree : merged.tree = again.tree) :
    generate ⟨config, fun _ => false, documents, types⟩ =
      generate ⟨config, fun _ => false, others, types⟩ := by
  have houtcome := outcome_report_congr ⟨config, fun _ => false, documents, types⟩
    ⟨config, fun _ => false, others, types⟩ rfl rfl htree
  rw [generate, generate, run, run, check, check, merge, merge, hmerge, hagain]
  simp only [Except.map]
  rw [houtcome]

/-- A text that, as a document alone, stands in for documents of which a merge has come: merged
alone it gives the same tree, and every pass ends with it as it ends with them. -/
structure StandsIn (text : String) (documents : List SettingsDocument) (merged : MergedSettings) :
    Prop where
  tree_eq (name : String) : ∃ again, ofDocuments (fun _ => false) [⟨name, text⟩] = .ok again ∧
    again.tree = merged.tree
  generate_eq (name : String) (config : Config) (types : List TypeSymbol) :
    generate ⟨config, fun _ => false, [⟨name, text⟩], types⟩ =
      generate ⟨config, fun _ => false, documents, types⟩

/-- Where documents are merged whose numbers are all integers of 64 bits, the text of the merged
tree stands in for them, with blanks behind it or without. -/
theorem standsIn_pretty (hmerge : ofDocuments (fun _ => false) documents = .ok merged)
    (hnumbers : ∀ d ∈ documents, ∀ written, Json.parse d.text = .ok written →
      ∀ n ∈ written.numbers, n.IsWord)
    {blanks : List Char} (hblanks : ∀ c ∈ blanks, Json.isBlank c = true) :
    StandsIn (String.ofList (merged.tree.toJson.pretty.toList ++ blanks)) documents merged := by
  obtain ⟨-, rfl⟩ := ofDocuments_eq_ok_iff.1 hmerge
  have hread (name : String) := MergedSettings.tree?_printed hnumbers name hblanks
  generalize String.ofList _ = text at hread ⊢
  have hmerged (name : String) :
      ofDocuments (fun _ => false) [⟨name, text⟩] = .ok (ofRead [⟨name, text⟩]) := by
    have hmap : [SettingsDocument.mk name text].map SettingsDocument.tree? =
        [(ofRead documents).tree].map fun t => .ok (some t) := by
      rw [List.map_singleton, hread]
      rfl
    exact ofDocuments_of_map_tree? hmap
  have htree (name : String) : (ofRead [⟨name, text⟩]).tree = (ofRead documents).tree := by
    rw [ofRead, SettingsDocument.trees_cons_of_tree (hread name)]
    exact SettingsTree.mergeAll_singleton _
  exact ⟨fun name => ⟨_, hmerged name, htree name⟩, fun name config types =>
    generate_congr (hmerged name) hmerge (htree name)⟩

end PassInput

end SettingsBinding
