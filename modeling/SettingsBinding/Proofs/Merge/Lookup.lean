import SettingsBinding.Proofs.Settings.KeyPath
import SettingsBinding.Settings.Merge

/-!
What a merge does to one key. The value under a key depends on the two values there alone, and the
keys are those of the first tree and then the new ones.
-/

namespace SettingsBinding.SettingsTree

open Setting

variable {t incoming : SettingsTree} {key : String}

theorem contains_iff : t.contains key ↔ key ∈ t.keys := Entries.isSome_lookup_iff

theorem get?_eq_none_iff : t.get? key = none ↔ key ∉ t.keys := Entries.lookup_eq_none_iff

theorem mem_keys_of_get? {value : Setting} (h : t.get? key = some value) : key ∈ t.keys :=
  Entries.mem_keys_of_mem (Entries.mem_of_lookup_eq_some h)

theorem exists_get?_of_mem_keys (h : key ∈ t.keys) : ∃ value, t.get? key = some value :=
  Option.isSome_iff_exists.1 (contains_iff.2 h)

theorem section?_eq_some_iff {entries : SettingsTree} :
    t.section? key = some entries ↔ t.get? key = some (.tree entries) := by
  rw [section?, Option.bind_eq_some_iff]
  constructor
  · rintro ⟨value, hvalue, htree⟩
    cases value <;> cases htree
    exact hvalue
  · intro h
    exact ⟨_, h, rfl⟩

theorem section?_eq_none_iff_of_get? {value : Setting} (h : t.get? key = some value) :
    t.section? key = none ↔ value.isTree = false := by
  rw [section?, h, Option.bind_some, isTree, Option.isSome_eq_false_iff, Option.isNone_iff_eq_none]

@[simp] theorem size_keys : t.keys.length = t.size := List.length_map ..

/-! ### Two values under one key -/

@[simp] theorem join_tree_tree (old new : SettingsTree) :
    join (tree old) (tree new) =
      tree (if old.size < new.size then merge new old else merge old new) := by
  rw [join]
  exact (apply_ite tree _ _ _).symm

theorem join_of_leaf_left {value : Setting} (h : value.isTree = false) (new : Setting) :
    join value new = value := by
  cases value with
  | tree t => cases h
  | _ => simp [join]

theorem join_of_leaf_right (value : Setting) {new : Setting} (h : new.isTree = false) :
    join value new = value := by
  cases new with
  | tree t => cases h
  | _ => simp [join]

/-! ### Keys and look-ups -/

theorem get?_newEntries (t incoming : SettingsTree) (key : String) :
    (newEntries t incoming).get? key = if key ∈ t.keys then none else incoming.get? key := by
  rw [get?, newEntries, Entries.lookup_filter_keys fun k => !t.contains k]
  by_cases h : key ∈ t.keys
  · simp [h, contains_iff.2 h]
  · simp [h, mt contains_iff.1 h, get?]

theorem get?_merge :
    (merge t incoming).get? key =
      match t.get? key with
      | some value => some (settle value (incoming.get? key))
      | none => incoming.get? key := by
  rw [merge_eq, get?, List.lookup_append,
    Entries.lookup_map_values fun k value => settle value (incoming.lookup k)]
  cases h : t.get? key with
  | some value => simp [get?] at h ⊢; simp [h]
  | none =>
      have hnew := get?_newEntries t incoming key
      rw [if_neg (get?_eq_none_iff.1 h)] at hnew
      simp only [get?] at h hnew ⊢
      simp [h, hnew]

theorem get?_merge_of_both {value new : Setting} (h : t.get? key = some value)
    (hnew : incoming.get? key = some new) :
    (merge t incoming).get? key = some (join value new) := by
  rw [get?_merge, h, hnew]
  rfl

theorem get?_merge_of_left {value : Setting} (h : t.get? key = some value)
    (hnew : incoming.get? key = none) : (merge t incoming).get? key = some value := by
  rw [get?_merge, h, hnew]
  rfl

theorem get?_merge_of_right (h : t.get? key = none) :
    (merge t incoming).get? key = incoming.get? key := by
  rw [get?_merge, h]

theorem keys_newEntries :
    (newEntries t incoming).keys = incoming.keys.filter fun key => !t.contains key := by
  simp only [keys, Json.keys, newEntries, List.filter_map]
  rfl

theorem keys_merge (t incoming : SettingsTree) :
    (merge t incoming).keys = t.keys ++ incoming.keys.filter fun key => !t.contains key := by
  rw [← keys_newEntries, merge_eq]
  simp [keys, Json.keys]

theorem nodup_keys_merge (distinct : t.keys.Nodup) (hincoming : incoming.keys.Nodup) :
    (merge t incoming).keys.Nodup := by
  rw [keys_merge]
  refine List.nodup_append.2 ⟨distinct, hincoming.filter _, fun key hkey new hnew heq => ?_⟩
  subst heq
  simp [contains_iff.2 hkey] at hnew

theorem mem_keys_merge :
    key ∈ (merge t incoming).keys ↔ key ∈ t.keys ∨ key ∈ incoming.keys := by
  by_cases h : key ∈ t.keys
  · simp [keys_merge, h]
  · simp [keys_merge, h, mt contains_iff.1 h]

@[simp] theorem merge_nil_left (incoming : SettingsTree) : merge [] incoming = incoming := by
  rw [merge_eq]
  simp [newEntries, contains, get?]

@[simp] theorem merge_nil_right (t : SettingsTree) : merge t [] = t := by
  rw [merge_eq]
  simp [newEntries, settle]

end SettingsBinding.SettingsTree
