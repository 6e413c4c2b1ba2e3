import Mathlib.Data.Finset.Card
import SettingsBinding.Proofs.Equality
import SettingsBinding.Proofs.Merge.Depth
import SettingsBinding.Proofs.Settings.Levels

/-!
How large a merge gets. Whatever is at the end of a path in a merge stands there in one of the two
trees, but for the entries of trees, so the merge nests no deeper than the deeper one and has no
more entries than both together. Where both have a tree, the merge has one with the keys of either,
each once. What one merge keeps, the merge of any number of documents keeps.
-/

namespace SettingsBinding

namespace Setting

theorem uniqueKeys_of_at? {s found : Setting} {path : List String} (hkeys : s.UniqueKeys)
    (h : s.at? path = some found) : found.UniqueKeys := by
  induction path generalizing s with
  | nil =>
      cases h
      exact hkeys
  | cons key path ih =>
      obtain ⟨t, rfl⟩ := eq_tree_of_isSome_cons (Option.isSome_iff_exists.2 ⟨found, h⟩)
      obtain ⟨value, hvalue, h⟩ := at?_tree_cons_eq_some_iff.1 h
      exact ih ((uniqueKeys_tree_iff.1 hkeys).2 key value hvalue) h

end Setting

namespace SettingsTree

open Setting

variable {t u : SettingsTree} {path : List String}

/-- What a merge holds at the end of a path, one of the two trees holds there as well; of a tree only
that it is one. -/
theorem exists_at?_of_merge {found : Setting} (h : (tree (merge t u)).at? path = some found) :
    ∃ other, ((tree t).at? path = some other ∨ (tree u).at? path = some other) ∧
      (other = found ∨ other.isTree ∧ found.isTree) := by
  cases hkind : found.isTree with
  | false => exact ⟨found, at?_of_at?_merge_leaf h hkind, .inl rfl⟩
  | true =>
      obtain ⟨merged, rfl⟩ := eq_tree_of_isTree hkind
      rcases hasTreeAt_of_merge ⟨merged, h⟩ with ⟨entries, h⟩ | ⟨entries, h⟩
      · exact ⟨tree entries, .inl h, .inr ⟨rfl, rfl⟩⟩
      · exact ⟨tree entries, .inr h, .inr ⟨rfl, rfl⟩⟩

theorem depth_toJson_merge_le (ht : (tree t).UniqueKeys) (hu : (tree u).UniqueKeys) :
    (merge t u).toJson.depth ≤ max t.toJson.depth u.toJson.depth := by
  have hleft := (depth_toJson_le_iff ht).1 (Nat.le_max_left t.toJson.depth u.toJson.depth)
  have hright := (depth_toJson_le_iff hu).1 (Nat.le_max_right t.toJson.depth u.toJson.depth)
  refine (depth_toJson_le_iff (uniqueKeys_merge ht hu)).2 fun path found h => ?_
  obtain ⟨other, hother, hsame⟩ := exists_at?_of_merge h
  have hdepth : other.ownDepth = found.ownDepth := by
    rcases hsame with rfl | ⟨h, h'⟩
    · rfl
    · simp [ownDepth, h, h']
  rw [← hdepth]
  exact hother.elim (hleft path other) (hright path other)

theorem entryCount_merge_le (ht : (tree t).UniqueKeys) (hu : (tree u).UniqueKeys)
    (inside : List Json → Nat) :
    (tree (merge t u)).entryCount inside ≤
      (tree t).entryCount inside + (tree u).entryCount inside := by
  refine entryCount_tree_le_add ht hu (uniqueKeys_merge ht hu) fun path found h _ => ?_
  obtain ⟨other, hother, hsame⟩ := exists_at?_of_merge h
  refine ⟨other, hother, ?_⟩
  rcases hsame with rfl | ⟨h, h'⟩
  · rfl
  · obtain ⟨entries, rfl⟩ := eq_tree_of_isTree h
    obtain ⟨merged, rfl⟩ := eq_tree_of_isTree h'
    rfl

theorem size_eq_card_keys (ht : (tree t).UniqueKeys) : t.size = t.keys.toFinset.card := by
  rw [List.toFinset_card_of_nodup (uniqueKeys_tree_iff.1 ht).1, size_keys]

theorem size_merge (ht : (tree t).UniqueKeys) (hu : (tree u).UniqueKeys) :
    (merge t u).size = (t.keys.toFinset ∪ u.keys.toFinset).card := by
  rw [size_eq_card_keys (uniqueKeys_merge ht hu)]
  congr 1
  ext key
  simp [mem_keys_merge]

/-- Where both trees have a tree, the merge has one with the keys of either. -/
theorem exists_at?_merge_of_trees {a b : SettingsTree} (ht : (tree t).UniqueKeys)
    (hu : (tree u).UniqueKeys) (ha : (tree t).at? path = some (tree a))
    (hb : (tree u).at? path = some (tree b)) :
    ∃ merged : SettingsTree, (tree (merge t u)).at? path = some (tree merged) ∧
      merged.size = (a.keys.toFinset ∪ b.keys.toFinset).card := by
  have hkeys := uniqueKeys_of_at? ht ha
  have hkeys' := uniqueKeys_of_at? hu hb
  rcases walk_cases t u path with ⟨a', b', hwalk, ha', hb'⟩ | ⟨hboth, -⟩
  · cases ha.symm.trans ha'
    cases hb.symm.trans hb'
    rw [at?_merge]
    rcases hwalk with hwalk | hwalk
    · exact ⟨merge a b, by rw [hwalk, Found.merged], size_merge hkeys hkeys'⟩
    · refine ⟨merge b a, by rw [hwalk, Found.merged], ?_⟩
      rw [size_merge hkeys' hkeys, Finset.union_comm]
  · exact absurd ⟨⟨a, ha⟩, ⟨b, hb⟩⟩ hboth

/-- Merging some trees makes nothing deeper than it is in one of them. -/
theorem exists_depth_toJson_mergeAll_le {ts : List SettingsTree} (hsome : ts ≠ [])
    (hkeys : ∀ t ∈ ts, (tree t).UniqueKeys) :
    ∃ t ∈ ts, (mergeAll ts).toJson.depth ≤ t.toJson.depth := by
  induction ts using List.reverseRecOn with
  | nil => exact absurd rfl hsome
  | append_singleton ts t ih =>
      rw [List.forall_mem_append] at hkeys
      have ht : (tree t).UniqueKeys := hkeys.2 t (by simp)
      rw [mergeAll_append_singleton]
      have hstep := depth_toJson_merge_le (uniqueKeys_mergeAll hkeys.1) ht
      by_cases hts : ts = []
      · exact ⟨t, by simp, by simp [hts, mergeAll]⟩
      · obtain ⟨deepest, hmem, hle⟩ := ih hts hkeys.1
        rcases Nat.le_total (mergeAll ts).toJson.depth t.toJson.depth with h | h
        · exact ⟨t, by simp, by omega⟩
        · exact ⟨deepest, by simp [hmem], by omega⟩

end SettingsTree

namespace SettingsDocument

open Setting SettingsTree
open MergedSettings (ofDocuments ofRead ofDocuments_eq_ok_iff ofDocuments_of_map_tree?)

/-- Unless all documents are blank, one of them nests as deep as what is merged from them. -/
theorem exists_depth_ofRead_le {raised : Nat → Bool} {documents : List SettingsDocument}
    (hread : AllRead raised documents) (hsome : ∃ d ∈ documents, d.isBlank = false) :
    ∃ d ∈ documents, ∃ t : SettingsTree, d.tree? = .ok (some t) ∧
      (ofRead documents).tree.toJson.depth ≤ t.toJson.depth := by
  obtain ⟨d, hd, hfilled⟩ := hsome
  have hnonempty : trees documents ≠ [] := by
    obtain ⟨found, hfound⟩ := hread.2 d hd
    cases found with
    | none => simp [tree?_eq_ok_none_iff.1 hfound] at hfilled
    | some t => exact List.ne_nil_of_mem (mem_trees_iff.2 ⟨d, hd, hfound⟩)
  obtain ⟨t, ht, hdepth⟩ :=
    exists_depth_toJson_mergeAll_le hnonempty fun t => uniqueKeys_of_mem_trees
  obtain ⟨deepest, hmem, htree⟩ := mem_trees_iff.1 ht
  exact ⟨deepest, hmem, t, htree, hdepth⟩

/-- A merge of trees in which each key stands once is such a tree, nests no deeper than the deeper
one, has no more entries than both together, and has a tree with the keys of either wherever both
have one. So a merge of documents gives a tree in which each key stands once, and one that nests no
deeper than one of the documents, unless all are blank. -/
theorem merge_keeps_bounds :
    (∀ t u : SettingsTree, (tree t).UniqueKeys → (tree u).UniqueKeys →
      (tree (merge t u)).UniqueKeys ∧
      (merge t u).toJson.depth ≤ max t.toJson.depth u.toJson.depth ∧
      (∀ inside, (tree (merge t u)).entryCount inside ≤
        (tree t).entryCount inside + (tree u).entryCount inside) ∧
      ∀ path (a b : SettingsTree), (tree t).at? path = some (tree a) →
        (tree u).at? path = some (tree b) →
        ∃ merged : SettingsTree, (tree (merge t u)).at? path = some (tree merged) ∧
          merged.size = (a.keys.toFinset ∪ b.keys.toFinset).card ∧
          a.size ≤ merged.size ∧ b.size ≤ merged.size) ∧
    ∀ (raised : Nat → Bool) (documents : List SettingsDocument) (merged : MergedSettings),
      ofDocuments raised documents = .ok merged →
      (tree merged.tree).UniqueKeys ∧
      ((∃ d ∈ documents, d.isBlank = false) →
        ∃ d ∈ documents, ∃ t : SettingsTree, d.tree? = .ok (some t) ∧
          merged.tree.toJson.depth ≤ t.toJson.depth) := by
  constructor
  · intro t u ht hu
    refine ⟨uniqueKeys_merge ht hu, depth_toJson_merge_le ht hu, entryCount_merge_le ht hu, ?_⟩
    intro path a b ha hb
    obtain ⟨merged, hmerged, hsize⟩ := exists_at?_merge_of_trees ht hu ha hb
    refine ⟨merged, hmerged, hsize, ?_, ?_⟩
    · rw [hsize, size_eq_card_keys (uniqueKeys_of_at? ht ha)]
      exact Finset.card_le_card Finset.subset_union_left
    · rw [hsize, size_eq_card_keys (uniqueKeys_of_at? hu hb)]
      exact Finset.card_le_card Finset.subset_union_right
  · intro raised documents merged hmerge
    obtain ⟨hread, rfl⟩ := ofDocuments_eq_ok_iff.1 hmerge
    exact ⟨uniqueKeys_mergeAll fun t => uniqueKeys_of_mem_trees, exists_depth_ofRead_le hread⟩

/-! ### An array against a tree -/

def arrayTree : SettingsTree :=
  [("Db", tree [("Hosts", .array [.object [("Name", .array [])]])])]

def nestedTree : SettingsTree :=
  [("Db", tree [("Hosts", tree [("First", .string "a")]), ("Port", .number (.integer 1))])]

theorem map_tree?_arrayTree_nestedTree :
    [ofTree "first" arrayTree, ofTree "second" nestedTree].map tree? =
      [arrayTree, nestedTree].map fun t => .ok (some t) := by
  decide +kernel

theorem merge_keeps_bounds_of_arrays :
    (merge arrayTree nestedTree).toJson.depth ≤ max 5 3 ∧
      (tree (merge arrayTree nestedTree)).entryCount List.length ≤ 3 + 4 ∧
      (∃ merged : SettingsTree, (tree (merge arrayTree nestedTree)).at? ["Db"] = some (tree merged) ∧
        merged.size = 2) ∧
      ∃ d ∈ [ofTree "first" arrayTree, ofTree "second" nestedTree], ∃ t : SettingsTree,
        d.tree? = .ok (some t) ∧
          (ofRead [ofTree "first" arrayTree, ofTree "second" nestedTree]).tree.toJson.depth ≤
            t.toJson.depth := by
  have htrees := trees_of_map_tree? map_tree?_arrayTree_nestedTree
  have hunique : ∀ t ∈ [arrayTree, nestedTree], (tree t).UniqueKeys := by
    rw [← htrees]
    exact fun t => uniqueKeys_of_mem_trees
  obtain ⟨-, hdepth, hcount, hsize⟩ := merge_keeps_bounds.1 arrayTree nestedTree
    (hunique arrayTree (by simp)) (hunique nestedTree (by simp))
  obtain ⟨merged, hmerged, hcard, -⟩ := hsize ["Db"] _ _ rfl rfl
  have hmerge := ofDocuments_of_map_tree? map_tree?_arrayTree_nestedTree
  refine ⟨hdepth, hcount List.length, ⟨merged, hmerged, hcard⟩, ?_⟩
  exact (merge_keeps_bounds.2 _ _ _ hmerge).2 ⟨_, List.mem_cons_self, by decide +kernel⟩

end SettingsDocument

end SettingsBinding
