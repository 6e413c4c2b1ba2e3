import SettingsBinding.Proofs.Json.Depth
import SettingsBinding.Proofs.Merge.Fold
import SettingsBinding.Proofs.Settings.Json

/-!
How deep a merged tree nests, and which numbers it holds. Both are told from the paths of a setting:
it nests within a bound if every path to a value, with the brackets of that value, is within the
bound, and its numbers are those of its leaves. As the paths of a merged tree are paths of the trees
that were merged, merging makes nothing deeper and brings no numbers in.
-/

namespace SettingsBinding

namespace Setting

/-- The brackets of a setting, not counting those of its entries. -/
def ownDepth (s : Setting) : Nat := if s.isTree then 1 else s.toJson.depth

variable {s : Setting} {entries : SettingsTree} {path : List String} {n : Nat}

theorem at?_of_leaf (hleaf : s.isTree = false) {value : Setting} :
    s.at? path = some value ↔ path = [] ∧ value = s := by
  cases path with
  | nil => simp [eq_comm]
  | cons key path => simp [at?_cons_of_leaf hleaf]

theorem depth_tree_le_iff :
    (tree entries).toJson.depth ≤ n + 1 ↔ ∀ e ∈ entries, e.2.toJson.depth ≤ n := by
  rw [toJson, Json.depth_object_le_iff, entriesToJson_eq_map, List.forall_mem_map]

theorem mem_numbers_tree_iff {number : JsonNumber} :
    number ∈ (tree entries).toJson.numbers ↔ ∃ e ∈ entries, number ∈ e.2.toJson.numbers := by
  rw [toJson, Json.numbers, Json.membersNumbers_eq_flatMap, entriesToJson_eq_map,
    List.flatMap_map, List.mem_flatMap]

theorem ownDepth_of_leaf (hleaf : s.isTree = false) : s.ownDepth = s.toJson.depth := by
  simp [ownDepth, hleaf]

theorem depth_leaf_le_iff (hleaf : s.isTree = false) :
    s.toJson.depth ≤ n ↔
      ∀ path value, s.at? path = some value → path.length + value.ownDepth ≤ n := by
  constructor
  · intro h path value hvalue
    obtain ⟨rfl, rfl⟩ := (at?_of_leaf hleaf).1 hvalue
    rwa [List.length_nil, Nat.zero_add, ownDepth_of_leaf hleaf]
  · intro h
    have hroot := h [] s rfl
    rwa [List.length_nil, Nat.zero_add, ownDepth_of_leaf hleaf] at hroot

theorem depth_toJson_le_iff (hkeys : s.UniqueKeys) :
    s.toJson.depth ≤ n ↔
      ∀ path value, s.at? path = some value → path.length + value.ownDepth ≤ n := by
  induction hkeys generalizing n with
  | null | bool | number | string | array => exact depth_leaf_le_iff rfl
  | @tree entries distinct h ih =>
      cases n with
      | zero =>
          refine iff_of_false (Nat.not_succ_le_zero _) fun hpaths => ?_
          exact absurd (hpaths [] _ rfl) (Nat.not_succ_le_zero 0)
      | succ n =>
          rw [depth_tree_le_iff]
          constructor
          · rintro hentries (_ | ⟨key, path⟩) value hvalue
            · cases hvalue
              exact Nat.succ_le_succ (Nat.zero_le n)
            · obtain ⟨member, hmember, hvalue⟩ := at?_tree_cons_eq_some_iff.1 hvalue
              have hmem := Entries.mem_of_lookup_eq_some hmember
              have hpath := (ih _ hmem).1 (hentries _ hmem) path value hvalue
              rw [List.length_cons]
              omega
          · intro hpaths e he
            refine (ih e he).2 fun path value hvalue => ?_
            have hmember := (Entries.lookup_eq_some_iff_mem distinct).2 he
            have hpath := hpaths (e.1 :: path) value
              (at?_tree_cons_eq_some_iff.2 ⟨e.2, hmember, hvalue⟩)
            rw [List.length_cons] at hpath
            omega

theorem mem_numbers_iff (hkeys : s.UniqueKeys) {number : JsonNumber} :
    number ∈ s.toJson.numbers ↔
      ∃ path value, s.at? path = some value ∧ value.isTree = false ∧
        number ∈ value.toJson.numbers := by
  induction hkeys with
  | null | bool | number | string | array =>
      refine ⟨fun h => ⟨[], _, rfl, rfl, h⟩, ?_⟩
      rintro ⟨path, value, hvalue, -, h⟩
      obtain ⟨-, rfl⟩ := (at?_of_leaf rfl).1 hvalue
      exact h
  | @tree entries distinct h ih =>
      rw [mem_numbers_tree_iff]
      constructor
      · rintro ⟨e, he, h⟩
        obtain ⟨path, value, hvalue, hleaf, h⟩ := (ih e he).1 h
        have hmember := (Entries.lookup_eq_some_iff_mem distinct).2 he
        exact ⟨e.1 :: path, value, at?_tree_cons_eq_some_iff.2 ⟨e.2, hmember, hvalue⟩, hleaf, h⟩
      · rintro ⟨_ | ⟨key, path⟩, value, hvalue, hleaf, h⟩
        · cases hvalue
          cases hleaf
        · obtain ⟨member, hmember, hvalue⟩ := at?_tree_cons_eq_some_iff.1 hvalue
          have hmem := Entries.mem_of_lookup_eq_some hmember
          exact ⟨_, hmem, (ih _ hmem).2 ⟨path, value, hvalue, hleaf, h⟩⟩

end Setting

namespace SettingsTree

open Setting

variable {ts : List SettingsTree} {n : Nat}

theorem depth_toJson_mergeAll_le (hkeys : ∀ t ∈ ts, (tree t).UniqueKeys) (hn : 0 < n)
    (hdepth : ∀ t ∈ ts, t.toJson.depth ≤ n) : (mergeAll ts).toJson.depth ≤ n := by
  have hpaths : ∀ t ∈ ts, ∀ path value, (tree t).at? path = some value →
      path.length + value.ownDepth ≤ n := fun t ht =>
    (depth_toJson_le_iff (hkeys t ht)).1 (hdepth t ht)
  refine (depth_toJson_le_iff (uniqueKeys_mergeAll hkeys)).2 fun path value hvalue => ?_
  cases hkind : value.isTree with
  | false =>
      obtain ⟨t, ht, hvalue⟩ := exists_at?_of_mergeAll_leaf hvalue hkind
      exact hpaths t ht path value hvalue
  | true =>
      obtain ⟨entries, rfl⟩ := eq_tree_of_isTree hkind
      by_cases hroot : path = []
      · subst hroot
        rw [List.length_nil, Nat.zero_add]
        exact hn
      · obtain ⟨t, ht, others, hothers⟩ := exists_hasTreeAt_of_mergeAll ⟨entries, hvalue⟩ hroot
        exact hpaths t ht path (tree others) hothers

theorem exists_mem_numbers_of_mergeAll (hkeys : ∀ t ∈ ts, (tree t).UniqueKeys)
    {number : JsonNumber} (h : number ∈ (mergeAll ts).toJson.numbers) :
    ∃ t ∈ ts, number ∈ t.toJson.numbers := by
  obtain ⟨path, value, hvalue, hleaf, hnumber⟩ :=
    (mem_numbers_iff (uniqueKeys_mergeAll hkeys)).1 h
  obtain ⟨t, ht, hvalue⟩ := exists_at?_of_mergeAll_leaf hvalue hleaf
  exact ⟨t, ht, (mem_numbers_iff (hkeys t ht)).2 ⟨path, value, hvalue, hleaf, hnumber⟩⟩

end SettingsTree

namespace Json

mutual

theorem numbers_withUniqueKeys_subset :
    (value : Json) → ∀ n ∈ value.withUniqueKeys.numbers, n ∈ value.numbers
  | .null | .bool _ | .number _ | .string _ => fun _ h => h
  | .array items => fun n h => by
      rw [withUniqueKeys, numbers, itemsNumbers_eq_flatMap, List.mem_flatMap] at h
      obtain ⟨item, hitem, h⟩ := h
      exact numbers_itemsWithUniqueKeys_subset items item hitem n h
  | .object members => fun n h => by
      rw [withUniqueKeys, numbers, membersNumbers_eq_flatMap, List.mem_flatMap] at h
      obtain ⟨m, hm, h⟩ := h
      exact (lastValues_invariant (fun value : Json => ∀ n ∈ value.numbers,
        n ∈ membersNumbers members) _ (numbers_membersWithUniqueKeys_subset members)).2 m hm n h

theorem numbers_itemsWithUniqueKeys_subset :
    (items : List Json) →
      ∀ item ∈ itemsWithUniqueKeys items, ∀ n ∈ item.numbers, n ∈ itemsNumbers items
  | [] => nofun
  | item :: rest => by
      rw [itemsWithUniqueKeys, itemsNumbers, List.forall_mem_cons]
      refine ⟨fun n h => ?_, fun other hother n h => ?_⟩
      · exact List.mem_append_left _ (numbers_withUniqueKeys_subset item n h)
      · exact List.mem_append_right _ (numbers_itemsWithUniqueKeys_subset rest other hother n h)

theorem numbers_membersWithUniqueKeys_subset :
    (members : List (String × Json)) →
      ∀ m ∈ membersWithUniqueKeys members, ∀ n ∈ m.2.numbers, n ∈ membersNumbers members
  | [] => nofun
  | (key, value) :: rest => by
      rw [membersWithUniqueKeys, membersNumbers, List.forall_mem_cons]
      refine ⟨fun n h => ?_, fun m hm n h => ?_⟩
      · exact List.mem_append_left _ (numbers_withUniqueKeys_subset value n h)
      · exact List.mem_append_right _ (numbers_membersWithUniqueKeys_subset rest m hm n h)

end

end Json

namespace SettingsDocument

variable {documents : List SettingsDocument} {t : SettingsTree}

theorem exists_written_of_mem_trees (h : t ∈ trees documents) :
    ∃ d ∈ documents, ∃ written, Json.parse d.text = .ok written ∧
      t.toJson = written.withUniqueKeys := by
  obtain ⟨d, hd, htree⟩ := mem_trees_iff.1 h
  obtain ⟨-, hparse⟩ := tree?_eq_ok_some_iff.1 htree
  obtain ⟨written, hparse, htree⟩ := SettingsTree.parse_eq_ok_iff.1 hparse
  exact ⟨d, hd, written, hparse, by rw [SettingsTree.toJson, ← htree, Setting.toJson_ofJson]⟩

/-- Every tree that is read nests within the limit of the reader. -/
theorem depth_le_of_mem_trees (h : t ∈ trees documents) : t.toJson.depth ≤ Json.depthLimit := by
  obtain ⟨d, -, written, hparse, htree⟩ := exists_written_of_mem_trees h
  rw [htree]
  exact Nat.le_trans (Json.depth_withUniqueKeys_le written) (Json.depth_le_of_parse hparse)

end SettingsDocument

end SettingsBinding
