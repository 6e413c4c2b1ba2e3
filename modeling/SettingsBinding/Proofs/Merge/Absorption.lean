import SettingsBinding.Proofs.Merge.Walk
import SettingsBinding.Proofs.Settings.UniqueKeys

/-!
Absorption. A tree absorbs another one when merging the other into it changes nothing. This is a
matter of keys alone: wherever both have a tree at the end of a path, the keys of the other one are
among those of the first. A merge absorbs both of its trees, and what a tree absorbed before is lost
in a merge only where a leaf had stood in between.
-/

namespace SettingsBinding

namespace Setting

/-- Wherever both have a tree, each key of the other one is a key of this one. -/
def Absorbs (s other : Setting) : Prop :=
  ∀ path (entries others : SettingsTree), s.at? path = some (tree entries) →
    other.at? path = some (tree others) → ∀ key ∈ others.keys, key ∈ entries.keys

theorem absorbs_refl (s : Setting) : s.Absorbs s := by
  intro path entries others hentries hothers key hkey
  cases hentries.symm.trans hothers
  exact hkey

theorem absorbs_of_leaf {s other : Setting} (h : other.isTree = false) : s.Absorbs other := by
  intro path entries others _ hothers
  cases h.symm.trans (HasTreeAt.isTree ⟨others, hothers⟩)

theorem absorbs_of_leaf_left {s other : Setting} (h : s.isTree = false) : s.Absorbs other := by
  intro path entries others hentries
  cases h.symm.trans (HasTreeAt.isTree ⟨entries, hentries⟩)

theorem absorbs_tree_iff {t u : SettingsTree} :
    (tree t).Absorbs (tree u) ↔
      (∀ key ∈ u.keys, key ∈ t.keys) ∧
        ∀ key value new, t.get? key = some value → u.get? key = some new → value.Absorbs new := by
  constructor
  · intro h
    refine ⟨h [] t u rfl rfl, fun key value new ht hu path entries others hentries hothers => ?_⟩
    refine h (key :: path) entries others ?_ ?_
    · exact at?_tree_cons_eq_some_iff.2 ⟨value, ht, hentries⟩
    · exact at?_tree_cons_eq_some_iff.2 ⟨new, hu, hothers⟩
  · rintro ⟨hkeys, hvalues⟩ path entries others hentries hothers
    cases path with
    | nil =>
        cases hentries
        cases hothers
        exact hkeys
    | cons key path =>
        obtain ⟨value, ht, hentries⟩ := at?_tree_cons_eq_some_iff.1 hentries
        obtain ⟨new, hu, hothers⟩ := at?_tree_cons_eq_some_iff.1 hothers
        exact hvalues key value new ht hu path entries others hentries hothers

/-- Where a setting absorbs a tree of another one, it has a tree as well, unless a leaf is in the
way. -/
theorem hasTreeAt_of_absorbs {s other : Setting} {path : List String} (h : s.Absorbs other)
    (hother : other.HasTreeAt path)
    (hleaf : ∀ above rest, path = above ++ rest → ¬s.HasLeafAt above) : s.HasTreeAt path := by
  induction path generalizing s other with
  | nil => exact (hasTreeAt_or_hasLeafAt rfl).resolve_right (hleaf [] [] rfl)
  | cons key path ih =>
      -- No leaf is in the way at the empty path, so the setting is a tree itself.
      have hkind : s.isTree = true :=
        ((hasTreeAt_or_hasLeafAt rfl).resolve_right (hleaf [] (key :: path) rfl)).isTree
      obtain ⟨t, rfl⟩ := eq_tree_of_isTree hkind
      obtain ⟨u, rfl⟩ := eq_tree_of_isTree hother.isTree
      obtain ⟨hkeys, hvalues⟩ := absorbs_tree_iff.1 h
      obtain ⟨new, hnew, hrest⟩ := hasTreeAt_cons_iff.1 hother
      obtain ⟨value, hvalue⟩ :=
        SettingsTree.exists_get?_of_mem_keys (hkeys key (SettingsTree.mem_keys_of_get? hnew))
      refine hasTreeAt_cons_iff.2 ⟨value, hvalue, ih (hvalues key value new hvalue hnew) hrest ?_⟩
      rintro above rest rfl hleaf'
      exact hleaf (key :: above) rest rfl (hasLeafAt_cons_iff.2 ⟨value, hvalue, hleaf'⟩)

end Setting

namespace SettingsTree

open Setting

variable {t u : SettingsTree}

/-! ### A merge that changes nothing -/

/-- A merge changes nothing when no key is new and no value changes. -/
theorem merge_eq_self_iff_forall (distinct : t.keys.Nodup) :
    merge t u = t ↔
      (∀ key ∈ u.keys, key ∈ t.keys) ∧
        ∀ key value new, t.get? key = some value → u.get? key = some new →
          join value new = value := by
  constructor
  · intro h
    refine ⟨fun key hkey => ?_, fun key value new ht hu => ?_⟩
    · rw [← h]
      exact mem_keys_merge.2 (.inr hkey)
    · have hmerge := get?_merge_of_both ht hu
      rw [h, ht] at hmerge
      exact (Option.some.inj hmerge).symm
  · rintro ⟨hkeys, hvalues⟩
    have hsame : (merge t u).keys = t.keys := by
      rw [keys_merge, List.append_right_eq_self, List.filter_eq_nil_iff]
      intro key hkey
      simp [contains_iff.2 (hkeys key hkey)]
    refine Entries.ext_of_keys (hsame ▸ distinct : (merge t u).keys.Nodup) hsame fun key => ?_
    change (merge t u).get? key = t.get? key
    cases ht : t.get? key with
    | none =>
        rw [get?_merge_of_right ht, get?_eq_none_iff]
        exact fun hkey => get?_eq_none_iff.1 ht (hkeys key hkey)
    | some value =>
        cases hu : u.get? key with
        | none => exact get?_merge_of_left ht hu
        | some new => rw [get?_merge_of_both ht hu, hvalues key value new ht hu]

/-- The keys of a tree that is absorbed are not more than those of the tree that absorbs it. -/
theorem size_le_of_absorbs (distinct : u.keys.Nodup) (h : (tree t).Absorbs (tree u)) :
    u.size ≤ t.size := by
  rw [← size_keys, ← size_keys]
  exact distinct.length_le_of_subset (absorbs_tree_iff.1 h).1

theorem join_eq_self_iff {value new : Setting} (hvalue : value.UniqueKeys)
    (hnew : new.UniqueKeys) : join value new = value ↔ value.Absorbs new := by
  induction hvalue generalizing new with
  | @tree entries distinct _ ih =>
      cases hkind : new.isTree with
      | false => simp [join_of_leaf_right _ hkind, absorbs_of_leaf hkind]
      | true =>
          obtain ⟨others, rfl⟩ := eq_tree_of_isTree hkind
          obtain ⟨hdistinct, hothers⟩ := uniqueKeys_tree_iff.1 hnew
          rw [join_tree_tree, Setting.tree.injEq]
          split
          · -- The larger tree takes the place of the other one, and absorption is out of question.
            next hsize =>
            refine iff_of_false (fun h => ?_) fun h => ?_
            · have hle : size others ≤ (merge others entries).size := by
                rw [← size_keys, ← size_keys, keys_merge, List.length_append]
                exact Nat.le_add_right _ _
              rw [h] at hle
              omega
            · have := size_le_of_absorbs hdistinct h
              omega
          · rw [merge_eq_self_iff_forall distinct, absorbs_tree_iff]
            refine and_congr_right fun _ => forall₃_congr fun key old new => ?_
            refine forall₂_congr fun hold hnew => ?_
            exact ih (key, old) (Entries.mem_of_lookup_eq_some hold) (hothers key new hnew)
  | null => exact iff_of_true (join_of_leaf_left rfl _) (absorbs_of_leaf_left rfl)
  | bool b => exact iff_of_true (join_of_leaf_left rfl _) (absorbs_of_leaf_left rfl)
  | number n => exact iff_of_true (join_of_leaf_left rfl _) (absorbs_of_leaf_left rfl)
  | string s => exact iff_of_true (join_of_leaf_left rfl _) (absorbs_of_leaf_left rfl)
  | array h => exact iff_of_true (join_of_leaf_left rfl _) (absorbs_of_leaf_left rfl)

/-- A merge changes nothing exactly when the tree that comes in is absorbed already. -/
theorem merge_eq_self_iff (ht : (tree t).UniqueKeys) (hu : (tree u).UniqueKeys) :
    merge t u = t ↔ (tree t).Absorbs (tree u) := by
  obtain ⟨distinct, hvalues⟩ := uniqueKeys_tree_iff.1 ht
  rw [merge_eq_self_iff_forall distinct, absorbs_tree_iff]
  refine and_congr_right fun _ => forall₃_congr fun key value new => ?_
  refine forall₂_congr fun hvalue hnew => ?_
  exact join_eq_self_iff (hvalues key value hvalue) ((uniqueKeys_tree_iff.1 hu).2 key new hnew)

/-! ### What a merge absorbs -/

theorem absorbs_merge_left (t u : SettingsTree) : (tree (merge t u)).Absorbs (tree t) := by
  intro path merged a hmerged ha key hkey
  rcases at?_merge_tree_cases hmerged with ⟨h, -⟩ | ⟨-, h⟩ | ⟨a', b, h, -, rfl | rfl⟩
  · cases h.symm.trans ha
    exact hkey
  · exact absurd ⟨a, ha⟩ h
  · cases h.symm.trans ha
    exact mem_keys_merge.2 (.inl hkey)
  · cases h.symm.trans ha
    exact mem_keys_merge.2 (.inr hkey)

theorem absorbs_merge_right (t u : SettingsTree) : (tree (merge t u)).Absorbs (tree u) := by
  intro path merged b hmerged hb key hkey
  rcases at?_merge_tree_cases hmerged with ⟨-, h⟩ | ⟨h, -⟩ | ⟨a, b', -, h, rfl | rfl⟩
  · exact absurd ⟨b, hb⟩ h
  · cases h.symm.trans hb
    exact hkey
  · cases h.symm.trans hb
    exact mem_keys_merge.2 (.inr hkey)
  · cases h.symm.trans hb
    exact mem_keys_merge.2 (.inl hkey)

/-- What is absorbed stays absorbed in a merge, unless somewhere a tree of it has given way to a
leaf, and the tree that comes in has a tree there again. -/
theorem absorbs_merge_of_absorbs {x : SettingsTree} (h : (tree t).Absorbs (tree x))
    (hleaf : ∀ path, (tree x).HasTreeAt path → (tree u).HasTreeAt path →
      ¬(tree t).HasLeafAt path) : (tree (merge t u)).Absorbs (tree x) := by
  intro path merged others hmerged hothers key hkey
  have ht : (tree t).HasTreeAt path := by
    rcases hasTreeAt_of_merge ⟨merged, hmerged⟩ with ht | hu
    · exact ht
    · refine hasTreeAt_of_absorbs h ⟨others, hothers⟩ ?_
      rintro above rest rfl
      exact hleaf above (HasTreeAt.of_append ⟨others, hothers⟩) hu.of_append
  -- The tree that absorbed `x` before has the key, and the merge absorbs that tree.
  obtain ⟨entries, hentries⟩ := ht
  exact absorbs_merge_left t u path merged entries hmerged hentries key
    (h path entries others hentries hothers key hkey)

end SettingsTree

end SettingsBinding
