import Mathlib.Data.List.Induction
import SettingsBinding.Proofs.Merge.UniqueKeys
import SettingsBinding.Proofs.Merge.Walk

/-!
Merging a list of trees. Every leaf of the result is a leaf of one of the trees, and every tree in
it stands where one of the trees has a tree.
-/

namespace SettingsBinding.SettingsTree

open Setting

variable {ts : List SettingsTree} {path : List String}

@[simp] theorem mergeAll_singleton (t : SettingsTree) : mergeAll [t] = t := merge_nil_left t

theorem mergeAll_append (ts us : List SettingsTree) :
    mergeAll (ts ++ us) = us.foldl merge (mergeAll ts) := List.foldl_append

@[simp] theorem mergeAll_append_singleton (ts : List SettingsTree) (t : SettingsTree) :
    mergeAll (ts ++ [t]) = merge (mergeAll ts) t := mergeAll_append ts [t]

theorem uniqueKeys_mergeAll (h : ∀ t ∈ ts, (tree t).UniqueKeys) :
    (tree (mergeAll ts)).UniqueKeys :=
  uniqueKeys_foldl_merge uniqueKeys_nil h

/-- A leaf that merging gives is a leaf of one of the trees, at the same place. -/
theorem exists_at?_of_mergeAll_leaf {value : Setting}
    (h : (tree (mergeAll ts)).at? path = some value) (hleaf : value.isTree = false) :
    ∃ t ∈ ts, (tree t).at? path = some value := by
  induction ts using List.reverseRecOn with
  | nil =>
      cases path with
      | nil =>
          cases h
          cases hleaf
      | cons key path => cases h
  | append_singleton ts t ih =>
      rw [mergeAll_append_singleton] at h
      rcases at?_of_at?_merge_leaf h hleaf with h | h
      · obtain ⟨u, hu, hvalue⟩ := ih h
        exact ⟨u, List.mem_append_left _ hu, hvalue⟩
      · exact ⟨t, by simp, h⟩

theorem exists_hasLeafAt_of_mergeAll (h : (tree (mergeAll ts)).HasLeafAt path) :
    ∃ t ∈ ts, (tree t).HasLeafAt path := by
  obtain ⟨value, hvalue, hleaf⟩ := h
  obtain ⟨t, ht, hvalue⟩ := exists_at?_of_mergeAll_leaf hvalue hleaf
  exact ⟨t, ht, value, hvalue, hleaf⟩

theorem exists_hasTreeAt_of_mergeAll (h : (tree (mergeAll ts)).HasTreeAt path) (hpath : path ≠ []) :
    ∃ t ∈ ts, (tree t).HasTreeAt path := by
  induction ts using List.reverseRecOn with
  | nil =>
      obtain ⟨key, path, rfl⟩ := List.exists_cons_of_ne_nil hpath
      obtain ⟨value, hvalue, -⟩ := hasTreeAt_cons_iff.1 h
      cases hvalue
  | append_singleton ts t ih =>
      rw [mergeAll_append_singleton] at h
      rcases hasTreeAt_of_merge h with h | h
      · obtain ⟨u, hu, htree⟩ := ih h
        exact ⟨u, List.mem_append_left _ hu, htree⟩
      · exact ⟨t, by simp, h⟩

end SettingsBinding.SettingsTree
