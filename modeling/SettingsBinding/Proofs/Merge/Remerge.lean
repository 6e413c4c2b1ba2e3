import SettingsBinding.Proofs.Equality
import SettingsBinding.Proofs.Merge.Absorption
import SettingsBinding.Proofs.Merge.Fold
import SettingsBinding.Proofs.Settings.Documents

/-!
Merging the first document once more, after all others. The merged tree stays as it is exactly when
it absorbs the tree of the first document. It does so unless a tree of the first document has given
way to a leaf of a later document, and that leaf to a tree of a still later one: then the keys which
the first document has there may come back.
-/

namespace SettingsBinding

namespace SettingsTree

open Setting

/-- The result of merging absorbs the first tree, unless at some place of a tree in it a leaf comes
in and then a tree again. -/
theorem absorbs_mergeAll_first {first : SettingsTree} {rest : List SettingsTree}
    (h : rest.Pairwise fun earlier later => ∀ path, (tree first).HasTreeAt path →
      (tree earlier).HasLeafAt path → ¬(tree later).HasTreeAt path) :
    (tree (mergeAll (first :: rest))).Absorbs (tree first) := by
  induction rest using List.reverseRecOn with
  | nil =>
      rw [mergeAll_singleton]
      exact absorbs_refl _
  | append_singleton rest t ih =>
      obtain ⟨hrest, -, hlast⟩ := List.pairwise_append.1 h
      rw [← List.cons_append, mergeAll_append_singleton]
      refine absorbs_merge_of_absorbs (ih hrest) fun path hfirst ht hleaf => ?_
      -- A leaf in the way is one of an earlier document that is not the first.
      obtain ⟨u, hu, hearlier⟩ := exists_hasLeafAt_of_mergeAll hleaf
      rcases List.mem_cons.1 hu with rfl | hu
      · exact hfirst.not_hasLeafAt hearlier
      · exact hlast u hu t (by simp) path hfirst hearlier ht

end SettingsTree

namespace SettingsDocument

open Setting SettingsTree
open MergedSettings (ofDocuments ofRead ofDocuments_eq_ok_iff)

variable {raised : Nat → Bool} {first : SettingsDocument} {rest : List SettingsDocument}
  {merged : MergedSettings}

theorem allRead_append_first (h : AllRead raised (first :: rest))
    (hraised : raised (rest.length + 1) = false) :
    AllRead raised (first :: rest ++ [first]) :=
  allRead_append_singleton.2 ⟨h, hraised, h.2 first List.mem_cons_self⟩

/-- Merging the first document once more succeeds, and it changes nothing exactly when the merged
tree has every key that the first document has, wherever both have a tree. So it is unless a tree of
the first document meets a leaf in one document and a tree again in a later one. -/
theorem remerge_first_iff (h : ofDocuments raised (first :: rest) = .ok merged)
    (hraised : raised (rest.length + 1) = false) :
    ∃ again, ofDocuments raised (first :: rest ++ [first]) = .ok again ∧
      (again.tree = merged.tree ↔
        ∀ t, first.tree? = .ok (some t) → (tree merged.tree).Absorbs (tree t)) ∧
      ((∀ t, first.tree? = .ok (some t) → (trees rest).Pairwise fun earlier later =>
          ∀ path, (tree t).HasTreeAt path → (tree earlier).HasLeafAt path →
            ¬(tree later).HasTreeAt path) →
        again.tree = merged.tree) := by
  obtain ⟨hread, rfl⟩ := ofDocuments_eq_ok_iff.1 h
  refine ⟨_, ofDocuments_eq_ok_iff.2 ⟨allRead_append_first hread hraised, rfl⟩, ?_⟩
  simp only [ofRead]
  obtain ⟨found, hfound⟩ := hread.2 first List.mem_cons_self
  rw [trees_append]
  cases found with
  | none =>
      rw [trees_cons_of_blank hfound, trees_cons_of_blank hfound]
      simp [hfound, trees]
  | some t =>
      have hsnoc : trees [first] = [t] := trees_cons_of_tree hfound []
      have hiff : mergeAll (trees (first :: rest) ++ [t]) = mergeAll (trees (first :: rest)) ↔
          (tree (mergeAll (trees (first :: rest)))).Absorbs (tree t) := by
        rw [mergeAll_append_singleton]
        refine merge_eq_self_iff (uniqueKeys_mergeAll fun u hu => uniqueKeys_of_mem_trees hu) ?_
        exact uniqueKeys_of_mem_trees (hsnoc ▸ List.mem_singleton_self t)
      rw [hsnoc, hiff, hfound]
      refine ⟨⟨fun h u hu => ?_, fun h => h t rfl⟩, fun h => ?_⟩
      · cases hu
        exact h
      · rw [trees_cons_of_tree hfound]
        exact absorbs_mergeAll_first (h t rfl)

/-! ### Three documents that give a key an object, a number, and an object again -/

def objectTree : SettingsTree := [("Db", tree [("Pool", tree [("Min", .number (.integer 1))])])]

def numberTree : SettingsTree :=
  [("Db", tree [("Pool", .number (.integer 5)), ("Host", .string "a")])]

def otherObjectTree : SettingsTree :=
  [("Db", tree [("Pool", tree [("Max", .number (.integer 9))]), ("Port", .number (.integer 1)),
    ("Name", .string "b")])]

theorem tree?_objectTree : (ofTree "first" objectTree).tree? = .ok (some objectTree) := by
  decide +kernel

theorem tree?_numberTree : (ofTree "second" numberTree).tree? = .ok (some numberTree) := by
  decide +kernel

theorem tree?_otherObjectTree :
    (ofTree "third" otherObjectTree).tree? = .ok (some otherObjectTree) := by
  decide +kernel

theorem remerge_first_of_two :
    ∃ merged again,
      ofDocuments (fun _ => false) [ofTree "first" objectTree, ofTree "second" numberTree] =
        .ok merged ∧
      ofDocuments (fun _ => false)
        [ofTree "first" objectTree, ofTree "second" numberTree, ofTree "first" objectTree] =
        .ok again ∧
      again.tree = merged.tree := by
  have hread : ∀ d ∈ [ofTree "first" objectTree, ofTree "second" numberTree],
      ∃ found, d.tree? = .ok found := by
    simp only [List.forall_mem_cons]
    exact ⟨⟨_, tree?_objectTree⟩, ⟨_, tree?_numberTree⟩, nofun⟩
  have hmerged := ofDocuments_eq_ok_iff.2 ⟨⟨fun _ _ => rfl, hread⟩, rfl⟩
  obtain ⟨again, hagain, -, hsame⟩ := remerge_first_iff hmerged rfl
  refine ⟨_, again, hmerged, hagain, hsame fun t _ => ?_⟩
  rw [trees_cons_of_tree tree?_numberTree]
  exact List.pairwise_singleton _ _

def mergedTree (pool : SettingsTree) : SettingsTree :=
  [("Db", tree [("Pool", tree pool), ("Port", .number (.integer 1)), ("Name", .string "b"),
    ("Host", .string "a")])]

theorem mergeAll_three : mergeAll [objectTree, numberTree, otherObjectTree] =
    mergedTree [("Max", .number (.integer 9))] := by
  have hleft (new : Setting) : join (.number (.integer 5)) new = .number (.integer 5) :=
    join_of_leaf_left rfl new
  have hright (old : SettingsTree) : join (tree old) (.number (.integer 5)) = tree old :=
    join_of_leaf_right (tree old) rfl
  simp [mergeAll, merge_eq, newEntries, settle, contains, get?, List.lookup_cons, size, hleft,
    hright, objectTree, numberTree, otherObjectTree, mergedTree]

theorem mergeAll_four : mergeAll [objectTree, numberTree, otherObjectTree, objectTree] =
    mergedTree [("Max", .number (.integer 9)), ("Min", .number (.integer 1))] := by
  have hlast : mergeAll [objectTree, numberTree, otherObjectTree, objectTree] =
      merge (mergeAll [objectTree, numberTree, otherObjectTree]) objectTree :=
    mergeAll_append_singleton [objectTree, numberTree, otherObjectTree] objectTree
  rw [hlast, mergeAll_three]
  simp [merge_eq, newEntries, settle, contains, get?, List.lookup_cons, size, objectTree,
    mergedTree]

/-- The number replaces the first object, as it comes in a larger section, and the other object
replaces the number. What the first object holds is then gone, and merging it again brings it
back. -/
theorem remerge_first_changes_tree :
    ∃ merged again,
      ofDocuments (fun _ => false)
        [ofTree "first" objectTree, ofTree "second" numberTree, ofTree "third" otherObjectTree] =
        .ok merged ∧
      ofDocuments (fun _ => false)
        [ofTree "first" objectTree, ofTree "second" numberTree, ofTree "third" otherObjectTree,
          ofTree "first" objectTree] =
        .ok again ∧
      again.tree ≠ merged.tree := by
  refine ⟨_, _, ofDocuments_eq_ok_iff.2 ⟨⟨fun _ _ => rfl, ?_⟩, rfl⟩,
    ofDocuments_eq_ok_iff.2 ⟨⟨fun _ _ => rfl, ?_⟩, rfl⟩, ?_⟩
  · simp only [List.forall_mem_cons]
    exact ⟨⟨_, tree?_objectTree⟩, ⟨_, tree?_numberTree⟩, ⟨_, tree?_otherObjectTree⟩, nofun⟩
  · simp only [List.forall_mem_cons]
    exact ⟨⟨_, tree?_objectTree⟩, ⟨_, tree?_numberTree⟩, ⟨_, tree?_otherObjectTree⟩,
      ⟨_, tree?_objectTree⟩, nofun⟩
  · have hnil : trees [] = [] := rfl
    simp only [ofRead, trees_cons_of_tree tree?_objectTree, trees_cons_of_tree tree?_numberTree,
      trees_cons_of_tree tree?_otherObjectTree, hnil, mergeAll_three, mergeAll_four]
    decide

end SettingsDocument

end SettingsBinding
