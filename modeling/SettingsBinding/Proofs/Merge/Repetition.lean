import SettingsBinding.Proofs.Equality
import SettingsBinding.Proofs.Merge.Absorption
import SettingsBinding.Proofs.Merge.Fold
import SettingsBinding.Proofs.Settings.Documents

/-!
Merging again what has just been merged. A merge absorbs both of its trees, whatever leaves meet
trees in it, so merging either of them once more changes nothing. In a list of documents this is so
for the last one: when it comes twice, the second time counts for nothing.
-/

namespace SettingsBinding

namespace SettingsTree

open Setting

variable {t u : SettingsTree}

theorem merge_merge_left (ht : (tree t).UniqueKeys) (hu : (tree u).UniqueKeys) :
    merge (merge t u) t = merge t u :=
  (merge_eq_self_iff (uniqueKeys_merge ht hu) ht).2 (absorbs_merge_left t u)

theorem merge_merge_right (ht : (tree t).UniqueKeys) (hu : (tree u).UniqueKeys) :
    merge (merge t u) u = merge t u :=
  (merge_eq_self_iff (uniqueKeys_merge ht hu) hu).2 (absorbs_merge_right t u)

theorem merge_self (ht : (tree t).UniqueKeys) : merge t t = t :=
  (merge_eq_self_iff ht ht).2 (absorbs_refl _)

end SettingsTree

namespace SettingsDocument

open Setting SettingsTree
open MergedSettings (ofDocuments ofRead ofDocuments_eq_ok_iff ofDocuments_append_of_error)

theorem mergeAll_trees_append_twice (documents : List SettingsDocument) (last : SettingsDocument) :
    mergeAll (trees (documents ++ [last] ++ [last])) =
      mergeAll (trees (documents ++ [last])) := by
  have hunique : ∀ t ∈ trees documents, (tree t).UniqueKeys := fun t => uniqueKeys_of_mem_trees
  rw [trees_append, trees_append]
  -- The last document gives one tree, or none if it is blank.
  rcases hlast : trees [last] with _ | ⟨t, rest⟩
  · simp
  · have hrest : rest = [] := by
      have hlength : (trees [last]).length ≤ 1 := List.length_filterMap_le _ [last]
      rw [hlast, List.length_cons] at hlength
      exact List.length_eq_zero_iff.1 (by omega)
    have ht : (tree t).UniqueKeys := uniqueKeys_of_mem_trees (hlast ▸ List.mem_cons_self)
    rw [hrest, mergeAll_append_singleton, mergeAll_append_singleton]
    exact merge_merge_right (uniqueKeys_mergeAll hunique) ht

/-- A document that comes twice at the end is as good as one that comes once. -/
theorem ofDocuments_append_twice {raised : Nat → Bool} {documents : List SettingsDocument}
    {last : SettingsDocument} (hraised : raised (documents.length + 1) = false) :
    (ofDocuments raised (documents ++ [last] ++ [last])).map MergedSettings.tree =
      (ofDocuments raised (documents ++ [last])).map MergedSettings.tree := by
  cases hmerge : ofDocuments raised (documents ++ [last]) with
  | error failure => rw [ofDocuments_append_of_error hmerge]
  | ok merged =>
      obtain ⟨hread, rfl⟩ := ofDocuments_eq_ok_iff.1 hmerge
      have htwice : AllRead raised (documents ++ [last] ++ [last]) := by
        refine allRead_append_singleton.2 ⟨hread, ?_, hread.2 last (by simp)⟩
        rwa [List.length_append]
      rw [ofDocuments_eq_ok_iff.2 ⟨htwice, rfl⟩]
      exact congrArg Except.ok (mergeAll_trees_append_twice documents last)

/-- Merging either of two trees into their merge changes nothing, and neither does merging a tree
into itself, nor the last one of some documents coming once more. -/
theorem merge_again_unchanged {t u : SettingsTree} (ht : (tree t).UniqueKeys)
    (hu : (tree u).UniqueKeys) :
    merge (merge t u) u = merge t u ∧ merge (merge t u) t = merge t u ∧ merge t t = t ∧
      ∀ (raised : Nat → Bool) (documents : List SettingsDocument) (last : SettingsDocument),
        raised (documents.length + 1) = false →
          (ofDocuments raised (documents ++ [last, last])).map MergedSettings.tree =
            (ofDocuments raised (documents ++ [last])).map MergedSettings.tree := by
  refine ⟨merge_merge_right ht hu, merge_merge_left ht hu, merge_self ht, ?_⟩
  intro raised documents last hraised
  have htwice : documents ++ [last, last] = documents ++ [last] ++ [last] := by
    rw [List.append_assoc]
    rfl
  rw [htwice, ofDocuments_append_twice hraised]

/-! ### Two trees with a leaf against a tree at two levels -/

def poolTree : SettingsTree :=
  [("Db", tree [("Pool", tree [("Min", .number (.integer 1))]), ("Host", .string "a")]),
    ("Mode", .string "dev")]

def sizeTree : SettingsTree :=
  [("Mode", tree [("Name", .string "prod")]),
    ("Db", tree [("Pool", .number (.integer 5)), ("Port", .number (.integer 1)),
      ("Name", .string "b")])]

theorem map_tree?_poolTree_sizeTree :
    [ofTree "first" poolTree, ofTree "second" sizeTree].map tree? =
      [poolTree, sizeTree].map fun t => .ok (some t) := by
  decide +kernel

theorem merge_again_unchanged_of_conflicts :
    merge (merge poolTree sizeTree) sizeTree = merge poolTree sizeTree ∧
      merge (merge poolTree sizeTree) poolTree = merge poolTree sizeTree ∧
      (ofDocuments (fun _ => false)
          [ofTree "first" poolTree, ofTree "second" sizeTree, ofTree "second" sizeTree]).map
          MergedSettings.tree =
        (ofDocuments (fun _ => false) [ofTree "first" poolTree, ofTree "second" sizeTree]).map
          MergedSettings.tree := by
  have htrees := trees_of_map_tree? map_tree?_poolTree_sizeTree
  have hunique : ∀ t ∈ [poolTree, sizeTree], (tree t).UniqueKeys := by
    rw [← htrees]
    exact fun t => uniqueKeys_of_mem_trees
  obtain ⟨hright, hleft, -, hlast⟩ :=
    merge_again_unchanged (hunique poolTree (by simp)) (hunique sizeTree (by simp))
  exact ⟨hright, hleft, hlast _ [ofTree "first" poolTree] (ofTree "second" sizeTree) rfl⟩

end SettingsDocument

end SettingsBinding
