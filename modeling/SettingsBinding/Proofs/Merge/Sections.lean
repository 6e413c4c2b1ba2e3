import SettingsBinding.Proofs.FirstMet
import SettingsBinding.Proofs.Merge.Fold

/-!
What a list of trees makes of one key. The first tree that holds the key decides: a leaf there is
the value in the end, and a section there is united with all sections that the later trees hold
under the key, while leaves of theirs count for nothing. Main statement: this is the value that
merging the trees gives; what is missing in the end can be told from the trees themselves.
-/

namespace SettingsBinding.SettingsTree

open Setting

variable {ts : List SettingsTree} {t u : SettingsTree} {key : String}

/-! ### The keys of a merge -/

theorem keys_merge_eq_eraseDups (ht : t.keys.Nodup) (hu : u.keys.Nodup) :
    (merge t u).keys = (t.keys ++ u.keys).eraseDups := by
  have hnew : (u.keys.filter fun key => !t.contains key) = u.keys.removeAll t.keys :=
    List.filter_congr fun key _ => by
      rw [Bool.eq_iff_iff]
      simp [← contains_iff]
  have hdistinct : (u.keys.removeAll t.keys).Nodup := hu.filter _
  rw [keys_merge, List.eraseDups_append, FirstMet.eraseDups_of_nodup ht, hnew,
    FirstMet.eraseDups_of_nodup hdistinct]

/-- Merging lists the keys of all trees in the order in which they are first met. -/
theorem keys_mergeAll (h : ∀ t ∈ ts, t.keys.Nodup) :
    (mergeAll ts).keys = (ts.flatMap keys).eraseDups := by
  induction ts using List.reverseRecOn with
  | nil => rfl
  | append_singleton ts t ih =>
      obtain ⟨hts, ht⟩ := List.forall_mem_append.1 h
      have hkeys := ih hts
      have hdistinct : (mergeAll ts).keys.Nodup := hkeys ▸ FirstMet.nodup_eraseDups _
      rw [mergeAll_append_singleton,
        keys_merge_eq_eraseDups hdistinct (ht t (List.mem_singleton_self t)), hkeys,
        FirstMet.eraseDups_eraseDups_append, List.flatMap_append, List.flatMap_singleton]

/-! ### Sections under one key -/

/-- Two sections under one key: the larger one absorbs the other, and the first one where they are
equally large. -/
def unite (old new : SettingsTree) : SettingsTree :=
  if old.size < new.size then merge new old else merge old new

def uniteAll (sections : List SettingsTree) : SettingsTree := sections.foldl unite []

def firstValue? (ts : List SettingsTree) (key : String) : Option Setting :=
  ts.findSome? fun t => t.get? key

def sectionsUnder (ts : List SettingsTree) (key : String) : List SettingsTree :=
  ts.filterMap fun t => t.section? key

@[simp] theorem unite_nil_left (new : SettingsTree) : unite [] new = new := by
  rw [unite, merge_nil_left, merge_nil_right, ite_self]

@[simp] theorem uniteAll_append_singleton (sections : List SettingsTree) (s : SettingsTree) :
    uniteAll (sections ++ [s]) = unite (uniteAll sections) s := List.foldl_append

@[simp] theorem uniteAll_singleton (s : SettingsTree) : uniteAll [s] = s := unite_nil_left s

theorem mem_keys_unite {old new : SettingsTree} :
    key ∈ (unite old new).keys ↔ key ∈ old.keys ∨ key ∈ new.keys := by
  rw [unite]
  split
  · rw [mem_keys_merge, or_comm]
  · exact mem_keys_merge

theorem mem_keys_uniteAll {sections : List SettingsTree} :
    key ∈ (uniteAll sections).keys ↔ ∃ s ∈ sections, key ∈ s.keys := by
  induction sections using List.reverseRecOn with
  | nil => exact iff_of_false List.not_mem_nil nofun
  | append_singleton sections s ih =>
      rw [uniteAll_append_singleton, mem_keys_unite, ih]
      simp only [List.mem_append, List.mem_singleton, or_and_right, exists_or, exists_eq_left]

@[simp] theorem firstValue?_nil (key : String) : firstValue? [] key = none := rfl

theorem firstValue?_append (ts us : List SettingsTree) (key : String) :
    firstValue? (ts ++ us) key = (firstValue? ts key).or (firstValue? us key) :=
  List.findSome?_append

theorem firstValue?_cons (t : SettingsTree) (ts : List SettingsTree) (key : String) :
    firstValue? (t :: ts) key = (t.get? key).or (firstValue? ts key) := by
  rw [firstValue?, List.findSome?_cons]
  cases t.get? key <;> rfl

theorem firstValue?_append_singleton (ts : List SettingsTree) (t : SettingsTree)
    (key : String) :
    firstValue? (ts ++ [t]) key = (firstValue? ts key).or (t.get? key) := by
  rw [firstValue?_append, firstValue?_cons, firstValue?_nil, Option.or_none]

theorem firstValue?_eq_none_iff : firstValue? ts key = none ↔ ∀ t ∈ ts, key ∉ t.keys := by
  simp only [firstValue?, List.findSome?_eq_none_iff, get?_eq_none_iff]

theorem sectionsUnder_append (ts us : List SettingsTree) (key : String) :
    sectionsUnder (ts ++ us) key = sectionsUnder ts key ++ sectionsUnder us key :=
  List.filterMap_append

theorem sectionsUnder_cons (t : SettingsTree) (ts : List SettingsTree) (key : String) :
    sectionsUnder (t :: ts) key = (t.section? key).toList ++ sectionsUnder ts key := by
  rw [sectionsUnder, List.filterMap_cons]
  cases t.section? key <;> rfl

theorem mem_sectionsUnder_iff {s : SettingsTree} :
    s ∈ sectionsUnder ts key ↔ ∃ t ∈ ts, t.get? key = some (tree s) := by
  simp only [sectionsUnder, List.mem_filterMap, section?_eq_some_iff]

theorem sectionsUnder_eq_nil (h : ∀ t ∈ ts, key ∉ t.keys) : sectionsUnder ts key = [] := by
  refine List.filterMap_eq_nil_iff.2 fun t ht => ?_
  rw [section?, get?_eq_none_iff.2 (h t ht), Option.bind_none]

/-! ### The value of a key in the end -/

/-- What the trees make of a key: the first value, with all sections in its place where it is a
section. -/
def settled (ts : List SettingsTree) (key : String) : Option Setting :=
  (firstValue? ts key).map fun value =>
    if value.isTree then tree (uniteAll (sectionsUnder ts key)) else value

/-- One more tree changes what has been made of a key as a merge does. -/
theorem settled_append_singleton (ts : List SettingsTree) (t : SettingsTree) (key : String) :
    settled (ts ++ [t]) key =
      match settled ts key with
      | some value => some (settle value (t.get? key))
      | none => t.get? key := by
  have hlast : sectionsUnder [t] key = (t.section? key).toList := by
    rw [sectionsUnder_cons, sectionsUnder, List.filterMap_nil, List.append_nil]
  rw [settled, settled, firstValue?_append_singleton, sectionsUnder_append, hlast]
  rcases none_or_leaf_or_tree (firstValue? ts key) with hfirst | ⟨leaf, hfirst, hleaf⟩ |
    ⟨first, hfirst⟩
  · -- The tree is the first one that holds the key, if it does.
    rw [hfirst, sectionsUnder_eq_nil (firstValue?_eq_none_iff.1 hfirst), section?, Option.none_or]
    rcases none_or_leaf_or_tree (t.get? key) with h | ⟨leaf, h, hleaf⟩ | ⟨s, h⟩
    · simp [h]
    · simp [h, hleaf]
    · simp [h, asTree?]
  · rw [hfirst]
    cases t.get? key with
    | none => simp [hleaf, settle]
    | some new => simp [hleaf, settle, join_of_leaf_left hleaf]
  · rw [hfirst]
    rcases none_or_leaf_or_tree (t.get? key) with h | ⟨leaf, h, hleaf⟩ | ⟨s, h⟩
    · simp [h, section?, settle]
    · simp [h, (section?_eq_none_iff_of_get? h).2 hleaf, settle, join_of_leaf_right _ hleaf]
    · simp [h, section?_eq_some_iff.2 h, settle, unite]

theorem get?_mergeAll (ts : List SettingsTree) (key : String) :
    (mergeAll ts).get? key = settled ts key := by
  induction ts using List.reverseRecOn with
  | nil => rfl
  | append_singleton ts t ih =>
      rw [settled_append_singleton, ← ih, mergeAll_append_singleton]
      exact get?_merge

theorem get?_mergeAll_of_leaf {value : Setting} (h : firstValue? ts key = some value)
    (hleaf : value.isTree = false) : (mergeAll ts).get? key = some value := by
  rw [get?_mergeAll, settled, h, Option.map_some, hleaf]
  rfl

theorem get?_mergeAll_of_tree {first : SettingsTree}
    (h : firstValue? ts key = some (tree first)) :
    (mergeAll ts).get? key = some (tree (uniteAll (sectionsUnder ts key))) := by
  rw [get?_mergeAll, settled, h, Option.map_some, isTree_tree]
  rfl

/-- A key that one tree alone holds keeps its value. -/
theorem get?_mergeAll_of_only {before after : List SettingsTree} {value : Setting}
    (h : t.get? key = some value) (hbefore : ∀ u ∈ before, key ∉ u.keys)
    (hafter : ∀ u ∈ after, key ∉ u.keys) :
    (mergeAll (before ++ t :: after)).get? key = some value := by
  have hfirst : firstValue? (before ++ t :: after) key = some value := by
    refine List.findSome?_eq_some_iff.2 ⟨before, t, after, rfl, h, fun u hu => ?_⟩
    exact get?_eq_none_iff.2 (hbefore u hu)
  cases hkind : value.isTree with
  | false => exact get?_mergeAll_of_leaf hfirst hkind
  | true =>
      obtain ⟨s, rfl⟩ := eq_tree_of_isTree hkind
      have honly : sectionsUnder (before ++ t :: after) key = [s] := by
        rw [sectionsUnder_append, sectionsUnder_cons, section?_eq_some_iff.2 h,
          sectionsUnder_eq_nil hbefore, sectionsUnder_eq_nil hafter]
        rfl
      rw [get?_mergeAll_of_tree hfirst, honly, uniteAll_singleton]

/-! ### The whole tree in the end -/

/-- What merging has to make of a list of trees, told from the trees themselves. -/
structure MergedFrom (merged : SettingsTree) (ts : List SettingsTree) : Prop where
  keys_eq : merged.keys = (ts.flatMap keys).eraseDups
  get?_of_only : ∀ before t after key value, ts = before ++ t :: after →
    t.get? key = some value → (∀ u ∈ before ++ after, key ∉ u.keys) →
    merged.get? key = some value
  get?_of_leaf : ∀ key value, firstValue? ts key = some value → value.isTree = false →
    merged.get? key = some value
  get?_of_section : ∀ key first, firstValue? ts key = some (tree first) →
    ∃ entries : SettingsTree, merged.get? key = some (tree entries) ∧
      ∀ property, property ∈ entries.keys ↔
        ∃ t ∈ ts, ∃ s : SettingsTree, t.get? key = some (tree s) ∧ property ∈ s.keys

theorem mergedFrom_mergeAll (h : ∀ t ∈ ts, t.keys.Nodup) : MergedFrom (mergeAll ts) ts where
  keys_eq := keys_mergeAll h
  get?_of_only := by
    rintro before t after key value rfl hvalue hothers
    rw [List.forall_mem_append] at hothers
    exact get?_mergeAll_of_only hvalue hothers.1 hothers.2
  get?_of_leaf _ _ := get?_mergeAll_of_leaf
  get?_of_section key first hfirst := by
    refine ⟨_, get?_mergeAll_of_tree hfirst, fun property => ?_⟩
    simp only [mem_keys_uniteAll, mem_sectionsUnder_iff]
    constructor
    · rintro ⟨s, ⟨t, ht, hs⟩, hproperty⟩
      exact ⟨t, ht, s, hs, hproperty⟩
    · rintro ⟨t, ht, s, hs, hproperty⟩
      exact ⟨s, ⟨t, ht, hs⟩, hproperty⟩

namespace MergedFrom

variable {merged : SettingsTree}

theorem get?_eq_none (h : MergedFrom merged ts) (hnone : ∀ t ∈ ts, key ∉ t.keys) :
    merged.get? key = none := by
  rw [get?_eq_none_iff, h.keys_eq, List.mem_eraseDups, List.mem_flatMap]
  rintro ⟨t, ht, hkey⟩
  exact hnone t ht hkey

/-- A section is missing exactly where no tree holds the key, or the first one that does has a leaf
there. -/
theorem section?_eq_none_iff (h : MergedFrom merged ts) :
    merged.section? key = none ↔
      (∀ t ∈ ts, key ∉ t.keys) ∨ ∃ value, firstValue? ts key = some value ∧ value.isTree = false := by
  rcases none_or_leaf_or_tree (firstValue? ts key) with hfirst | ⟨leaf, hfirst, hleaf⟩ |
    ⟨first, hfirst⟩
  · have hnone := firstValue?_eq_none_iff.1 hfirst
    refine iff_of_true ?_ (.inl hnone)
    rw [section?, h.get?_eq_none hnone, Option.bind_none]
  · have hvalue := h.get?_of_leaf key leaf hfirst hleaf
    exact iff_of_true ((section?_eq_none_iff_of_get? hvalue).2 hleaf) (.inr ⟨leaf, hfirst, hleaf⟩)
  · obtain ⟨entries, hentries, -⟩ := h.get?_of_section key first hfirst
    rw [section?_eq_some_iff.2 hentries, ← firstValue?_eq_none_iff, hfirst]
    refine iff_of_false (Option.some_ne_none entries) ?_
    rintro (hnone | ⟨leaf, hvalue, hleaf⟩)
    · cases hnone
    · cases hvalue
      cases hleaf

/-- A section lacks a property exactly where the first tree that holds the key has a section there
and no section of any tree has the property. -/
theorem exists_section_lacking_iff (h : MergedFrom merged ts) {property : String} :
    (∃ entries : SettingsTree, merged.get? key = some (tree entries) ∧ property ∉ entries.keys) ↔
      (∃ first, firstValue? ts key = some (tree first)) ∧
        ∀ t ∈ ts, ∀ s : SettingsTree, t.get? key = some (tree s) → property ∉ s.keys := by
  constructor
  · rintro ⟨entries, hentries, hlacking⟩
    rcases none_or_leaf_or_tree (firstValue? ts key) with hfirst | ⟨leaf, hfirst, hleaf⟩ |
      ⟨first, hfirst⟩
    · cases hentries.symm.trans (h.get?_eq_none (firstValue?_eq_none_iff.1 hfirst))
    · cases hentries.symm.trans (h.get?_of_leaf key leaf hfirst hleaf)
      cases hleaf
    · obtain ⟨found, hfound, hkeys⟩ := h.get?_of_section key first hfirst
      cases hentries.symm.trans hfound
      refine ⟨⟨first, hfirst⟩, fun t ht s hs hproperty => hlacking ?_⟩
      exact (hkeys property).2 ⟨t, ht, s, hs, hproperty⟩
  · rintro ⟨⟨first, hfirst⟩, hlacking⟩
    obtain ⟨entries, hentries, hkeys⟩ := h.get?_of_section key first hfirst
    refine ⟨entries, hentries, fun hproperty => ?_⟩
    obtain ⟨t, ht, s, hs, hmem⟩ := (hkeys property).1 hproperty
    exact hlacking t ht s hs hmem

end MergedFrom

end SettingsBinding.SettingsTree
