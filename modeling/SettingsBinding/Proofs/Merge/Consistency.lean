import SettingsBinding.Proofs.Merge.Absorption
import SettingsBinding.Proofs.Merge.Fold

/-!
Trees that agree on what is a tree and what is a leaf. Merging them keeps every path of each of
them, whatever their order, and the result absorbs them all: merging any of them again changes
nothing.
-/

namespace SettingsBinding.SettingsTree

open Setting

variable {t u : SettingsTree} {ts : List SettingsTree} {path : List String}

/-- No path leads to a tree in one of the two and to a leaf in the other. -/
def Agree (t u : SettingsTree) : Prop :=
  ∀ path, ((tree t).HasTreeAt path → ¬(tree u).HasLeafAt path) ∧
    ((tree u).HasTreeAt path → ¬(tree t).HasLeafAt path)

/-- No path leads to a tree in one of the trees and to a leaf in another one. -/
def KindConsistent (ts : List SettingsTree) : Prop :=
  ∀ t ∈ ts, ∀ u ∈ ts, ∀ path, (tree t).HasTreeAt path → ¬(tree u).HasLeafAt path

theorem Agree.symm (h : Agree t u) : Agree u t := fun path => (h path).symm

theorem Agree.leafFreeAbove (h : Agree t u) (hsome : ((tree t).at? path).isSome) :
    (tree u).LeafFreeAbove path := by
  rintro above key rest rfl
  exact (h above).1 (hasTreeAt_of_isSome_append_cons hsome)

theorem isSome_at?_merge_iff (h : Agree t u) :
    ((tree (merge t u)).at? path).isSome ↔
      ((tree t).at? path).isSome ∨ ((tree u).at? path).isSome := by
  constructor
  · intro hsome
    rcases hasTreeAt_or_hasLeafAt hsome with htree | hleaf
    · exact (hasTreeAt_of_merge htree).imp HasTreeAt.isSome HasTreeAt.isSome
    · exact (hasLeafAt_of_merge hleaf).imp HasLeafAt.isSome HasLeafAt.isSome
  · rintro (hsome | hsome)
    · exact (isSome_at?_merge hsome (h.leafFreeAbove hsome)).1
    · exact (isSome_at?_merge hsome (h.symm.leafFreeAbove hsome)).2

theorem hasTreeAt_merge_iff (h : Agree t u) :
    (tree (merge t u)).HasTreeAt path ↔ (tree t).HasTreeAt path ∨ (tree u).HasTreeAt path := by
  refine ⟨hasTreeAt_of_merge, fun htree => ?_⟩
  have hsome := (isSome_at?_merge_iff h).2 (htree.imp HasTreeAt.isSome HasTreeAt.isSome)
  refine (hasTreeAt_or_hasLeafAt hsome).resolve_right fun hleaf => ?_
  rcases htree with ht | hu
  · exact (hasLeafAt_of_merge hleaf).elim ht.not_hasLeafAt ((h path).1 ht)
  · exact (hasLeafAt_of_merge hleaf).elim ((h path).2 hu) hu.not_hasLeafAt

theorem hasLeafAt_merge_iff (h : Agree t u) :
    (tree (merge t u)).HasLeafAt path ↔ (tree t).HasLeafAt path ∨ (tree u).HasLeafAt path := by
  refine ⟨hasLeafAt_of_merge, fun hleaf => ?_⟩
  have hsome := (isSome_at?_merge_iff h).2 (hleaf.imp HasLeafAt.isSome HasLeafAt.isSome)
  refine (hasTreeAt_or_hasLeafAt hsome).resolve_left fun htree => ?_
  rcases hasTreeAt_of_merge htree with ht | hu
  · exact hleaf.elim ht.not_hasLeafAt ((h path).1 ht)
  · exact hleaf.elim ((h path).2 hu) hu.not_hasLeafAt

/-! ### Lists of trees -/

theorem KindConsistent.of_subset {us : List SettingsTree} (h : KindConsistent ts)
    (hsubset : ∀ u ∈ us, u ∈ ts) : KindConsistent us :=
  fun t ht u hu => h t (hsubset t ht) u (hsubset u hu)

/-- What has been merged agrees with each of the trees. -/
theorem KindConsistent.agree_mergeAll (h : KindConsistent (ts ++ [t])) :
    Agree (mergeAll ts) t := by
  intro path
  constructor
  · intro htree hleaf
    cases path with
    | nil => exact not_hasLeafAt_tree_nil t hleaf
    | cons key path =>
        obtain ⟨u, hu, htree⟩ := exists_hasTreeAt_of_mergeAll htree (List.cons_ne_nil _ _)
        exact h u (List.mem_append_left _ hu) t (by simp) _ htree hleaf
  · intro htree hleaf
    obtain ⟨u, hu, hleaf⟩ := exists_hasLeafAt_of_mergeAll hleaf
    exact h t (by simp) u (List.mem_append_left _ hu) _ htree hleaf

theorem hasTreeAt_mergeAll_iff (h : KindConsistent ts) (hpath : path ≠ []) :
    (tree (mergeAll ts)).HasTreeAt path ↔ ∃ t ∈ ts, (tree t).HasTreeAt path := by
  refine ⟨fun htree => exists_hasTreeAt_of_mergeAll htree hpath, ?_⟩
  induction ts using List.reverseRecOn with
  | nil => simp
  | append_singleton ts t ih =>
      rintro ⟨u, hu, htree⟩
      rw [mergeAll_append_singleton, hasTreeAt_merge_iff h.agree_mergeAll]
      rcases List.mem_append.1 hu with hu | hu
      · exact .inl (ih (h.of_subset fun _ => List.mem_append_left _) ⟨u, hu, htree⟩)
      · rw [List.mem_singleton.1 hu] at htree
        exact .inr htree

theorem hasLeafAt_mergeAll_iff (h : KindConsistent ts) :
    (tree (mergeAll ts)).HasLeafAt path ↔ ∃ t ∈ ts, (tree t).HasLeafAt path := by
  refine ⟨exists_hasLeafAt_of_mergeAll, ?_⟩
  induction ts using List.reverseRecOn with
  | nil => simp
  | append_singleton ts t ih =>
      rintro ⟨u, hu, hleaf⟩
      rw [mergeAll_append_singleton, hasLeafAt_merge_iff h.agree_mergeAll]
      rcases List.mem_append.1 hu with hu | hu
      · exact .inl (ih (h.of_subset fun _ => List.mem_append_left _) ⟨u, hu, hleaf⟩)
      · rw [List.mem_singleton.1 hu] at hleaf
        exact .inr hleaf

theorem isSome_at?_mergeAll_iff (h : KindConsistent ts) (hpath : path ≠ []) :
    ((tree (mergeAll ts)).at? path).isSome ↔ ∃ t ∈ ts, ((tree t).at? path).isSome := by
  simp only [isSome_at?_iff, hasTreeAt_mergeAll_iff h hpath, hasLeafAt_mergeAll_iff h, and_or_left,
    exists_or]

theorem hasTreeAt_mergeAll_perm (h : KindConsistent ts) {us : List SettingsTree}
    (hperm : us.Perm ts) :
    (tree (mergeAll us)).HasTreeAt path ↔ (tree (mergeAll ts)).HasTreeAt path := by
  have hus : KindConsistent us := h.of_subset fun u hu => hperm.mem_iff.1 hu
  cases path with
  | nil => simp
  | cons key path =>
      have hpath : key :: path ≠ [] := List.cons_ne_nil _ _
      rw [hasTreeAt_mergeAll_iff hus hpath, hasTreeAt_mergeAll_iff h hpath]
      simp only [hperm.mem_iff]

theorem hasLeafAt_mergeAll_perm (h : KindConsistent ts) {us : List SettingsTree}
    (hperm : us.Perm ts) :
    (tree (mergeAll us)).HasLeafAt path ↔ (tree (mergeAll ts)).HasLeafAt path := by
  have hus : KindConsistent us := h.of_subset fun u hu => hperm.mem_iff.1 hu
  rw [hasLeafAt_mergeAll_iff hus, hasLeafAt_mergeAll_iff h]
  simp only [hperm.mem_iff]

/-- The result of merging absorbs each of the trees, however many come after it. -/
theorem absorbs_mergeAll (h : KindConsistent ts) {x : SettingsTree} (hx : x ∈ ts) :
    (tree (mergeAll ts)).Absorbs (tree x) := by
  induction ts using List.reverseRecOn with
  | nil => cases hx
  | append_singleton ts t ih =>
      rw [mergeAll_append_singleton]
      rcases List.mem_append.1 hx with hmem | hmem
      · have hearlier : KindConsistent ts := h.of_subset fun _ => List.mem_append_left _
        -- A leaf in the way would come from a tree of the list, at a place where `x` has a tree.
        refine absorbs_merge_of_absorbs (ih hearlier hmem) fun path htree _ hleaf => ?_
        obtain ⟨u, hu, hleaf⟩ := exists_hasLeafAt_of_mergeAll hleaf
        exact hearlier x hmem u hu path htree hleaf
      · rw [List.mem_singleton.1 hmem]
        exact absorbs_merge_right _ t

theorem foldl_merge_mergeAll (hunique : ∀ t ∈ ts, (tree t).UniqueKeys) (h : KindConsistent ts)
    {us : List SettingsTree} (hus : ∀ u ∈ us, u ∈ ts) :
    us.foldl merge (mergeAll ts) = mergeAll ts := by
  induction us with
  | nil => rfl
  | cons u us ih =>
      rw [List.forall_mem_cons] at hus
      have hsame : merge (mergeAll ts) u = mergeAll ts :=
        (merge_eq_self_iff (uniqueKeys_mergeAll hunique) (hunique u hus.1)).2
          (absorbs_mergeAll h hus.1)
      rw [List.foldl_cons, hsame]
      exact ih hus.2

/-- Trees that agree on what is a tree and what is a leaf are united by merging: the paths of the
result are those of the trees, in whatever order they are merged, and each ends at a tree or at a
leaf as it does in them. Merging any of them again, however often, changes nothing. -/
theorem mergeAll_unites (hunique : ∀ t ∈ ts, (tree t).UniqueKeys) (h : KindConsistent ts) :
    (∀ path, path ≠ [] →
      (((tree (mergeAll ts)).at? path).isSome ↔ ∃ t ∈ ts, ((tree t).at? path).isSome) ∧
        ((tree (mergeAll ts)).HasTreeAt path ↔ ∃ t ∈ ts, (tree t).HasTreeAt path) ∧
        ((tree (mergeAll ts)).HasLeafAt path ↔ ∃ t ∈ ts, (tree t).HasLeafAt path)) ∧
      (∀ us : List SettingsTree, us.Perm ts → ∀ path,
        ((tree (mergeAll us)).HasTreeAt path ↔ (tree (mergeAll ts)).HasTreeAt path) ∧
          ((tree (mergeAll us)).HasLeafAt path ↔ (tree (mergeAll ts)).HasLeafAt path)) ∧
      ∀ us : List SettingsTree, (∀ u ∈ us, u ∈ ts) → us.foldl merge (mergeAll ts) = mergeAll ts := by
  refine ⟨fun path hpath => ?_, fun us hperm path => ?_, fun us hus => ?_⟩
  · exact ⟨isSome_at?_mergeAll_iff h hpath, hasTreeAt_mergeAll_iff h hpath,
      hasLeafAt_mergeAll_iff h⟩
  · exact ⟨hasTreeAt_mergeAll_perm h hperm, hasLeafAt_mergeAll_perm h hperm⟩
  · exact foldl_merge_mergeAll hunique h hus

/-! ### Two sections that agree -/

theorem get?_section (name key : String) (entries : SettingsTree) :
    get? [(name, tree entries)] key = if key = name then some (tree entries) else none := by
  by_cases h : key = name
  · rw [if_pos h, h]
    exact List.lookup_cons_self
  · rw [if_neg h]
    exact Entries.lookup_cons_of_ne h _

theorem hasTreeAt_section_iff {name : String} {entries : SettingsTree}
    (hleaves : ∀ e ∈ entries, e.2.isTree = false) :
    (tree [(name, tree entries)]).HasTreeAt path ↔ path = [] ∨ path = [name] := by
  match path with
  | [] => simp
  | [key] => simp [hasTreeAt_cons_iff, get?_section]
  | key :: next :: path =>
      refine iff_of_false ?_ (by simp)
      rw [hasTreeAt_cons_iff, get?_section]
      rintro ⟨value, hvalue, htree⟩
      split at hvalue
      · cases hvalue
        obtain ⟨leaf, hleaf, hbelow⟩ := hasTreeAt_cons_iff.1 htree
        cases (hleaves _ (Entries.mem_of_lookup_eq_some hleaf)).symm.trans hbelow.isTree
      · cases hvalue

def smallSection : SettingsTree := [("Db", tree [("Host", .string "a")])]

def largeSection : SettingsTree :=
  [("Db", tree [("Port", .number (.integer 1)), ("Host", .string "b")])]

theorem kindConsistent_sections : KindConsistent [smallSection, largeSection] := by
  have htrees : ∀ t ∈ [smallSection, largeSection], ∀ path,
      (tree t).HasTreeAt path ↔ path = [] ∨ path = ["Db"] := by
    simp only [List.forall_mem_cons]
    exact ⟨fun path => hasTreeAt_section_iff (by decide),
      fun path => hasTreeAt_section_iff (by decide), nofun⟩
  intro t ht u hu path htree
  exact ((htrees u hu path).2 ((htrees t ht path).1 htree)).not_hasLeafAt

theorem mergeAll_unites_sections :
    [largeSection, smallSection, largeSection].foldl merge
        (mergeAll [smallSection, largeSection]) =
      mergeAll [smallSection, largeSection] := by
  have hunique : ∀ t ∈ [smallSection, largeSection], (tree t).UniqueKeys := by
    simp only [List.forall_mem_cons, smallSection, largeSection]
    refine ⟨.tree (by decide) ?_, .tree (by decide) ?_, nofun⟩
    · simpa using .tree (by decide) (by simpa using .string "a")
    · simpa using .tree (by decide) (by simpa using ⟨.number _, .string "b"⟩)
  exact (mergeAll_unites hunique kindConsistent_sections).2.2 _ (by simp)

end SettingsBinding.SettingsTree
