import Mathlib.Data.List.Nodup
import SettingsBinding.Proofs.Equality
import SettingsBinding.Proofs.Merge.Fold
import SettingsBinding.Proofs.Settings.Documents

/-!
Two trees in either order. Where both hold sections of different sizes, the larger one absorbs the
smaller one whichever comes first, so both orders go on with the same pair and agree on all that is
below. The order is seen in a value only where a leaf meets something or two sections are equally
large.
-/

namespace SettingsBinding

namespace Setting

open SettingsTree

variable {value other : Setting}

/-- Both are trees, and one of them has more entries than the other. -/
def SizesDiffer (value other : Setting) : Prop :=
  ∃ s s' : SettingsTree, value = tree s ∧ other = tree s' ∧ s.size ≠ s'.size

/-- One of the two is a leaf, or both are trees with equally many entries. -/
def OrderCounts (value other : Setting) : Prop :=
  value.isTree = false ∨ other.isTree = false ∨
    ∃ s s' : SettingsTree, value = tree s ∧ other = tree s' ∧ s.size = s'.size

theorem orderCounts_iff_not_sizesDiffer : OrderCounts value other ↔ ¬SizesDiffer value other := by
  constructor
  · rintro hcounts ⟨s, s', rfl, rfl, hsize⟩
    rcases hcounts with hleaf | hleaf | ⟨_, _, hs, hs', hsame⟩
    · cases hleaf
    · cases hleaf
    · cases hs
      cases hs'
      exact hsize hsame
  · intro hdiffer
    cases hvalue : value.isTree with
    | false => exact .inl hvalue
    | true =>
        cases hother : other.isTree with
        | false => exact .inr (.inl hother)
        | true =>
            obtain ⟨s, rfl⟩ := eq_tree_of_isTree hvalue
            obtain ⟨s', rfl⟩ := eq_tree_of_isTree hother
            refine .inr (.inr ⟨s, s', rfl, rfl, ?_⟩)
            by_contra hsize
            exact hdiffer ⟨s, s', rfl, rfl, hsize⟩

theorem join_comm (h : SizesDiffer value other) : join value other = join other value := by
  obtain ⟨s, s', rfl, rfl, hsize⟩ := h
  rw [join_tree_tree, join_tree_tree]
  rcases Nat.lt_or_gt_of_ne hsize with hless | hless
  · rw [if_pos hless, if_neg (Nat.lt_asymm hless)]
  · rw [if_neg (Nat.lt_asymm hless), if_pos hless]

end Setting

namespace SettingsTree

open Setting

variable {t u : SettingsTree} {key : String}

/-- Under every key that both trees hold, both have a section, and one of the two sections has more
entries than the other. -/
def SharedSizesDiffer (t u : SettingsTree) : Prop :=
  ∀ key value other, t.get? key = some value → u.get? key = some other → value.SizesDiffer other

theorem get?_merge_comm (h : ∀ value other, t.get? key = some value → u.get? key = some other →
    value.SizesDiffer other) : (merge t u).get? key = (merge u t).get? key := by
  cases ht : t.get? key with
  | none =>
      rw [get?_merge_of_right ht]
      cases hu : u.get? key with
      | none => rw [get?_merge_of_right hu, ht]
      | some other => rw [get?_merge_of_left hu ht]
  | some value =>
      cases hu : u.get? key with
      | none => rw [get?_merge_of_left ht hu, get?_merge_of_right hu, ht]
      | some other =>
          rw [get?_merge_of_both ht hu, get?_merge_of_both hu ht, join_comm (h value other ht hu)]

theorem mergeAll_pair (t u : SettingsTree) : mergeAll [t, u] = merge t u := by
  have hpair : mergeAll [t, u] = merge (mergeAll [t]) u := mergeAll_append_singleton [t] u
  rw [hpair, mergeAll_singleton]

theorem mem_keys_merge_comm : key ∈ (merge t u).keys ↔ key ∈ (merge u t).keys := by
  rw [mem_keys_merge, mem_keys_merge, or_comm]

/-- Trees with the same value under each key have the same entries, whatever the order of these. -/
theorem perm_of_get? (distinct : t.keys.Nodup) (hdistinct : u.keys.Nodup)
    (h : ∀ key, t.get? key = u.get? key) : t.Perm u := by
  refine (List.perm_ext_iff_of_nodup (.of_map Prod.fst distinct) (.of_map Prod.fst hdistinct)).2 ?_
  rintro ⟨key, value⟩
  rw [← Entries.lookup_eq_some_iff_mem distinct, ← Entries.lookup_eq_some_iff_mem hdistinct]
  exact iff_of_eq (congrArg (· = some value) (h key))

theorem merge_perm_comm (distinct : t.keys.Nodup) (hdistinct : u.keys.Nodup)
    (h : SharedSizesDiffer t u) : (merge t u).Perm (merge u t) :=
  perm_of_get? (nodup_keys_merge distinct hdistinct) (nodup_keys_merge hdistinct distinct)
    fun key => get?_merge_comm (h key)

end SettingsTree

namespace SettingsDocument

open Setting SettingsTree
open MergedSettings (ofDocuments ofRead ofDocuments_eq_ok_iff)

variable {raised : Nat → Bool} {first second d : SettingsDocument} {key : String}

def content (d : SettingsDocument) : SettingsTree := d.tree?.toOption.join.getD []

theorem exists_tree?_of_get?_content {value : Setting} (h : d.content.get? key = some value) :
    ∃ t, d.tree? = .ok (some t) ∧ t.get? key = some value := by
  rw [content] at h
  cases hread : d.tree? with
  | error failure =>
      rw [hread] at h
      cases h
  | ok found =>
      rw [hread] at h
      cases found with
      | none => cases h
      | some t => exact ⟨t, rfl, h⟩

/-- A blank document changes nothing, so two documents are merged as two trees are. -/
theorem mergeAll_trees_pair (first second : SettingsDocument) :
    mergeAll (trees [first, second]) = merge first.content second.content := by
  rw [trees, content, content, List.filterMap_cons, List.filterMap_cons, List.filterMap_nil]
  cases first.tree?.toOption.join with
  | none =>
      rw [Option.getD_none, merge_nil_left]
      cases second.tree?.toOption.join with
      | none => rfl
      | some u => exact mergeAll_singleton u
  | some t =>
      cases second.tree?.toOption.join with
      | none =>
          rw [Option.getD_none, merge_nil_right]
          exact mergeAll_singleton t
      | some u =>
          rw [Option.getD_some, Option.getD_some]
          exact mergeAll_pair t u

/-- The merge of two documents succeeds in both orders, or in neither. -/
theorem ofDocuments_swap {merged : MergedSettings}
    (h : ofDocuments raised [first, second] = .ok merged) :
    merged.tree = merge first.content second.content ∧
      ∃ swapped, ofDocuments raised [second, first] = .ok swapped ∧
        swapped.tree = merge second.content first.content := by
  obtain ⟨hread, rfl⟩ := ofDocuments_eq_ok_iff.1 h
  have hswap : AllRead raised [second, first] :=
    ⟨hread.1, fun d hd => hread.2 d ((List.Perm.swap first second []).mem_iff.1 hd)⟩
  exact ⟨mergeAll_trees_pair first second, _, ofDocuments_eq_ok_iff.2 ⟨hswap, rfl⟩,
    mergeAll_trees_pair second first⟩

/-- Two trees whose shared keys hold sections of different sizes give the same entries in either
order, down to the order of the keys inside each of them; only the order of the entries themselves
may be another. So the order of two documents is seen in the value under a key only where both hold
the key, and hold a leaf there or sections of one size. -/
theorem merge_in_either_order :
    (∀ t u : SettingsTree, t.SharedSizesDiffer u →
      (∀ key, key ∈ (merge t u).keys ↔ key ∈ (merge u t).keys) ∧
      (∀ key, (merge t u).get? key = (merge u t).get? key) ∧
      (t.keys.Nodup → u.keys.Nodup → (merge t u).Perm (merge u t))) ∧
    ∀ (raised : Nat → Bool) (first second : SettingsDocument) (merged : MergedSettings),
      ofDocuments raised [first, second] = .ok merged →
      ∃ swapped, ofDocuments raised [second, first] = .ok swapped ∧
        (∀ key, key ∈ merged.tree.keys ↔ key ∈ swapped.tree.keys) ∧
        ∀ key, merged.tree.get? key ≠ swapped.tree.get? key →
          ∃ t u value other, first.tree? = .ok (some t) ∧ second.tree? = .ok (some u) ∧
            t.get? key = some value ∧ u.get? key = some other ∧ value.OrderCounts other := by
  refine ⟨fun t u h => ⟨fun key => mem_keys_merge_comm, fun key => get?_merge_comm (h key),
    fun distinct hdistinct => merge_perm_comm distinct hdistinct h⟩, ?_⟩
  intro raised first second merged hmerge
  obtain ⟨htree, swapped, hswapped, htree'⟩ := ofDocuments_swap hmerge
  rw [htree]
  refine ⟨swapped, hswapped, ?_⟩
  rw [htree']
  refine ⟨fun key => mem_keys_merge_comm, fun key hdiffer => ?_⟩
  -- Without such a pair of values the two orders would agree under the key.
  by_contra hnone
  refine hdiffer (get?_merge_comm fun value other hvalue hother => ?_)
  obtain ⟨t, ht, hvalue⟩ := exists_tree?_of_get?_content hvalue
  obtain ⟨u, hu, hother⟩ := exists_tree?_of_get?_content hother
  by_contra hsizes
  exact hnone ⟨t, u, value, other, ht, hu, hvalue, hother,
    orderCounts_iff_not_sizesDiffer.2 hsizes⟩

/-! ### Sections of different sizes with conflicts inside -/

/-- The section has two entries, one of them a section itself. -/
def limitTree : SettingsTree :=
  [("Db", tree [("Pool", tree [("Min", .number (.integer 1))]), ("Size", .number (.integer 2))]),
    ("Mode", .string "dev")]

/-- The section has three entries. There is a number where the other tree has a section, and a
section where that has a number. -/
def boundTree : SettingsTree :=
  [("Log", .bool true),
    ("Db", tree [("Size", tree [("Max", .number (.integer 9))]), ("Pool", .number (.integer 5)),
      ("Host", .string "a")])]

theorem sharedSizesDiffer_limitTree : limitTree.SharedSizesDiffer boundTree := by
  intro key value other hvalue hother
  have hkey : key = "Db" := by
    have hlimit : key ∈ ["Db", "Mode"] := mem_keys_of_get? hvalue
    have hbound : key ∈ ["Log", "Db"] := mem_keys_of_get? hother
    simp only [List.mem_cons, List.not_mem_nil, or_false] at hlimit hbound
    rcases hlimit with rfl | rfl
    · rfl
    · simp at hbound
  subst hkey
  cases hvalue
  cases hother
  exact ⟨_, _, rfl, rfl, by decide⟩

theorem tree?_limitTree : (ofTree "first" limitTree).tree? = .ok (some limitTree) := by
  decide +kernel

theorem tree?_boundTree : (ofTree "second" boundTree).tree? = .ok (some boundTree) := by
  decide +kernel

/-- The larger section absorbs the other one whichever of the two documents comes first. -/
theorem merge_in_either_order_of_limits :
    (merge limitTree boundTree).Perm (merge boundTree limitTree) ∧
      ∃ merged swapped,
        ofDocuments (fun _ => false) [ofTree "first" limitTree, ofTree "second" boundTree] =
          .ok merged ∧
        ofDocuments (fun _ => false) [ofTree "second" boundTree, ofTree "first" limitTree] =
          .ok swapped ∧
        ∀ key, merged.tree.get? key = swapped.tree.get? key := by
  have hread : [ofTree "first" limitTree, ofTree "second" boundTree].map tree? =
      [limitTree, boundTree].map fun t => .ok (some t) := by
    rw [List.map_cons, List.map_cons, tree?_limitTree, tree?_boundTree]
    rfl
  have hmerge := MergedSettings.ofDocuments_of_map_tree? hread
  obtain ⟨htrees, hdocuments⟩ := merge_in_either_order
  obtain ⟨-, -, hperm⟩ := htrees limitTree boundTree sharedSizesDiffer_limitTree
  obtain ⟨swapped, hswapped, -, hdiffer⟩ := hdocuments _ _ _ _ hmerge
  refine ⟨hperm (by decide) (by decide), _, swapped, hmerge, hswapped, fun key => ?_⟩
  by_contra hne
  obtain ⟨t, u, value, other, ht, hu, hvalue, hother, hcounts⟩ := hdiffer key hne
  obtain rfl : limitTree = t := by simpa [tree?_limitTree] using ht
  obtain rfl : boundTree = u := by simpa [tree?_boundTree] using hu
  exact orderCounts_iff_not_sizesDiffer.1 hcounts
    (sharedSizesDiffer_limitTree key value other hvalue hother)

end SettingsDocument

end SettingsBinding
