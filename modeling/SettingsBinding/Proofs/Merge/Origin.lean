import SettingsBinding.Proofs.Equality
import SettingsBinding.Proofs.Merge.Sections
import SettingsBinding.Proofs.Settings.Json

/-!
Where the values of a merged tree come from. Merging moves values from one place to another, but
makes none: every value that is no object is written at the same path by one of the documents, and
an object stands only where one of the documents has an object.
-/

namespace SettingsBinding.SettingsDocument

open Setting SettingsTree
open MergedSettings (ofDocuments ofRead ofDocuments_eq_ok_iff)

variable {raised : Nat → Bool} {documents : List SettingsDocument} {merged : MergedSettings}
  {path : List String}

theorem exists_writesAt_of_mem_trees {t : SettingsTree} {value : Setting}
    (ht : t ∈ trees documents) (hvalue : (tree t).at? path = some value) :
    ∃ d ∈ documents, d.isBlank = false ∧ d.WritesAt path value.toJson := by
  obtain ⟨d, hd, htree⟩ := mem_trees_iff.1 ht
  exact ⟨d, hd, (tree?_eq_ok_some_iff.1 htree).1, writesAt_of_tree? htree hvalue⟩

/-- A document that is read and not blank has a tree. -/
theorem exists_mem_trees (hread : AllRead raised documents) {d : SettingsDocument}
    (hd : d ∈ documents) (hblank : d.isBlank = false) : ∃ t, t ∈ trees documents := by
  obtain ⟨found, hfound⟩ := hread.2 d hd
  cases found with
  | none => cases hblank.symm.trans (tree?_eq_ok_none_iff.1 hfound)
  | some t => exact ⟨t, mem_trees_iff.2 ⟨d, hd, hfound⟩⟩

theorem exists_hasTreeAt_of_merged (hread : AllRead raised documents)
    (h : (tree (mergeAll (trees documents))).HasTreeAt path)
    (hpath : path ≠ [] ∨ ∃ d ∈ documents, d.isBlank = false) :
    ∃ t ∈ trees documents, (tree t).HasTreeAt path := by
  by_cases hnil : path = []
  · obtain ⟨d, hd, hblank⟩ := hpath.resolve_left (not_not_intro hnil)
    obtain ⟨t, ht⟩ := exists_mem_trees hread hd hblank
    exact ⟨t, ht, hnil ▸ hasTreeAt_tree_nil t⟩
  · exact exists_hasTreeAt_of_mergeAll h hnil

/-- A merged tree holds only what the documents write: at the end of a path a value that is no
object is written there, as it is, by a document, and an object stands where a document has one. The
empty path is the only one that leads to an object even if all documents are blank. -/
theorem merged_values_are_written (h : ofDocuments raised documents = .ok merged) :
    (∀ path value, (tree merged.tree).at? path = some value → value.isTree = false →
      ∃ d ∈ documents, d.isBlank = false ∧ d.WritesAt path value.toJson) ∧
    ∀ path, (tree merged.tree).HasTreeAt path →
      (path ≠ [] ∨ ∃ d ∈ documents, d.isBlank = false) →
      ∃ d ∈ documents, d.isBlank = false ∧ ∃ members, d.WritesAt path (.object members) := by
  obtain ⟨hread, rfl⟩ := ofDocuments_eq_ok_iff.1 h
  refine ⟨fun path value hvalue hleaf => ?_, fun path htree hpath => ?_⟩
  · obtain ⟨t, ht, hvalue⟩ := exists_at?_of_mergeAll_leaf hvalue hleaf
    exact exists_writesAt_of_mem_trees ht hvalue
  · obtain ⟨t, ht, entries, hentries⟩ := exists_hasTreeAt_of_merged hread htree hpath
    obtain ⟨d, hd, hblank, hwrites⟩ := exists_writesAt_of_mem_trees ht hentries
    exact ⟨d, hd, hblank, entriesToJson entries, hwrites⟩

/-! ### Two documents with a list each -/

/-- The second section is larger, so its list is the one that is kept. -/
def listTrees : List SettingsTree :=
  [[("Db", tree [("Hosts", .array [.string "a", .string "b"])])],
    [("Db", tree [("Hosts", .array [.string "c"]), ("Pool", tree [])])]]

def listDocuments : List SettingsDocument := listTrees.map (ofTree "appsettings.json")

theorem map_tree?_listDocuments :
    listDocuments.map tree? = listTrees.map fun t => .ok (some t) := by
  decide +kernel

theorem merged_list_is_written :
    ∃ merged, ofDocuments (fun _ => false) listDocuments = .ok merged ∧
      (tree merged.tree).at? ["Db", "Hosts"] = some (.array [.string "c"]) ∧
      (∃ d ∈ listDocuments, d.isBlank = false ∧
        d.WritesAt ["Db", "Hosts"] (.array [.string "c"])) ∧
      ∃ d ∈ listDocuments, d.isBlank = false ∧
        ∃ members, d.WritesAt ["Db", "Pool"] (.object members) := by
  have hmerge := MergedSettings.ofDocuments_of_map_tree? map_tree?_listDocuments
  have hdb : (ofRead listDocuments).tree.get? "Db" =
      some (tree [("Hosts", .array [.string "c"]), ("Pool", tree [])]) := by
    have hfirst : firstValue? listTrees "Db" =
        some (tree [("Hosts", .array [.string "a", .string "b"])]) := rfl
    have hsections : sectionsUnder listTrees "Db" =
        [[("Hosts", .array [.string "a", .string "b"])],
          [("Hosts", .array [.string "c"]), ("Pool", tree [])]] := rfl
    have hjoin (new : Setting) : join (.array [.string "c"]) new = .array [.string "c"] :=
      join_of_leaf_left rfl new
    rw [ofRead, trees_of_map_tree? map_tree?_listDocuments, get?_mergeAll_of_tree hfirst, hsections]
    simp [uniteAll, unite, size, merge_eq, newEntries, settle, contains, get?, List.lookup_cons,
      hjoin]
  obtain ⟨hleaves, htrees⟩ := merged_values_are_written hmerge
  have hhosts : (tree (ofRead listDocuments).tree).at? ["Db", "Hosts"] =
      some (.array [.string "c"]) := by
    rw [at?_tree_cons, hdb]
    rfl
  have hpool : (tree (ofRead listDocuments).tree).HasTreeAt ["Db", "Pool"] := by
    refine ⟨[], ?_⟩
    rw [at?_tree_cons, hdb]
    rfl
  refine ⟨_, hmerge, hhosts, hleaves _ _ hhosts rfl, htrees _ hpool (.inl ?_)⟩
  exact List.cons_ne_nil _ _

end SettingsBinding.SettingsDocument
