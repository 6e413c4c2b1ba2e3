import SettingsBinding.Proofs.Merge.Lookup
import SettingsBinding.Proofs.Settings.UniqueKeys

/-!
A merge of trees in which each key stands once, at every level, is such a tree again.
-/

namespace SettingsBinding.SettingsTree

open Setting

variable {t u : SettingsTree}

theorem uniqueKeys_merge_of_join (ht : (tree t).UniqueKeys) (hu : (tree u).UniqueKeys)
    (hjoin : ∀ key value new, t.get? key = some value → u.get? key = some new →
      (join value new).UniqueKeys) : (tree (merge t u)).UniqueKeys := by
  rw [uniqueKeys_tree_iff] at ht hu ⊢
  refine ⟨nodup_keys_merge ht.1 hu.1, fun key found hfound => ?_⟩
  cases hold : t.get? key with
  | none =>
      rw [get?_merge_of_right hold] at hfound
      exact hu.2 key found hfound
  | some value =>
      cases hnew : u.get? key with
      | none =>
          rw [get?_merge_of_left hold hnew] at hfound
          cases hfound
          exact ht.2 key _ hold
      | some new =>
          rw [get?_merge_of_both hold hnew] at hfound
          cases hfound
          exact hjoin key _ _ hold hnew

theorem uniqueKeys_join_of_leaf {value new : Setting} (hvalue : value.UniqueKeys)
    (hnew : new.UniqueKeys) (hleaf : value.isTree = false ∨ new.isTree = false) :
    (join value new).UniqueKeys ∧ (join new value).UniqueKeys := by
  rcases hleaf with h | h
  · rw [join_of_leaf_left h, join_of_leaf_right new h]
    exact ⟨hvalue, hnew⟩
  · rw [join_of_leaf_right value h, join_of_leaf_left h]
    exact ⟨hvalue, hnew⟩

/-- Both orders of the two values go together, as the larger one of two trees changes sides. -/
theorem uniqueKeys_join_and {value new : Setting} (hvalue : value.UniqueKeys)
    (hnew : new.UniqueKeys) : (join value new).UniqueKeys ∧ (join new value).UniqueKeys := by
  induction hvalue generalizing new with
  | @tree entries distinct h ih =>
      have hentries : (tree entries).UniqueKeys := .tree distinct h
      cases hkind : new.isTree with
      | false => exact uniqueKeys_join_of_leaf hentries hnew (.inr hkind)
      | true =>
          obtain ⟨others, rfl⟩ := eq_tree_of_isTree hkind
          -- Below, either tree may be the larger one, so the hypothesis is needed in both orders.
          have hboth : ∀ key old new, get? entries key = some old → get? others key = some new →
              (join old new).UniqueKeys ∧ (join new old).UniqueKeys := fun key old new hold hget =>
            ih (key, old) (Entries.mem_of_lookup_eq_some hold)
              ((uniqueKeys_tree_iff.1 hnew).2 key new hget)
          have hleft := uniqueKeys_merge_of_join hentries hnew
            fun key old new hold hget => (hboth key old new hold hget).1
          have hright := uniqueKeys_merge_of_join hnew hentries
            fun key new old hget hold => (hboth key old new hold hget).2
          rw [join_tree_tree, join_tree_tree]
          constructor
          · split
            · exact hright
            · exact hleft
          · split
            · exact hleft
            · exact hright
  | null => exact uniqueKeys_join_of_leaf .null hnew (.inl rfl)
  | bool b => exact uniqueKeys_join_of_leaf (.bool b) hnew (.inl rfl)
  | number n => exact uniqueKeys_join_of_leaf (.number n) hnew (.inl rfl)
  | string s => exact uniqueKeys_join_of_leaf (.string s) hnew (.inl rfl)
  | array h => exact uniqueKeys_join_of_leaf (.array h) hnew (.inl rfl)

theorem uniqueKeys_merge (ht : (tree t).UniqueKeys) (hu : (tree u).UniqueKeys) :
    (tree (merge t u)).UniqueKeys :=
  uniqueKeys_merge_of_join ht hu fun key value new hvalue hnew =>
    (uniqueKeys_join_and ((uniqueKeys_tree_iff.1 ht).2 key value hvalue)
      ((uniqueKeys_tree_iff.1 hu).2 key new hnew)).1

theorem uniqueKeys_nil : (tree []).UniqueKeys := .tree List.nodup_nil nofun

theorem uniqueKeys_foldl_merge {ts : List SettingsTree} (ht : (tree t).UniqueKeys)
    (hts : ∀ u ∈ ts, (tree u).UniqueKeys) : (tree (ts.foldl merge t)).UniqueKeys := by
  induction ts generalizing t with
  | nil => exact ht
  | cons u ts ih =>
      rw [List.forall_mem_cons] at hts
      exact ih (uniqueKeys_merge ht hts.1) hts.2

end SettingsBinding.SettingsTree
