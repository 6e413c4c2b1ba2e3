import SettingsBinding.Proofs.Merge.Loop

/-!
The conflict rule along one path. A walk goes down two trees side by side and looks at the entries
under the keys of the path only. One of the two trees is preferred; the other one becomes so where
it has more entries. Main statement: a merge, and the loop over the entries that come in, holds at
the end of every path what the walk finds, and lists the keys of the preferred tree in front of the
new ones.
-/

namespace SettingsBinding.SettingsTree

open Setting

inductive Found where
  /-- What one tree alone holds there, which may be nothing. -/
  | alone (value : Option Setting)
  /-- A tree on either side. -/
  | trees (preferred other : SettingsTree)

def walk (preferred other : SettingsTree) : List String → Found
  | [] => .trees preferred other
  | key :: path =>
    match preferred.get? key, other.get? key with
    | none, none => .alone none
    | some value, none => .alone (value.at? path)
    | none, some value => .alone (value.at? path)
    | some (.tree t), some (.tree u) => if size t < size u then walk u t path else walk t u path
    | some value, some _ => .alone (value.at? path)

def Found.merged : Found → Option Setting
  | alone value => value
  | trees preferred other => some (tree (merge preferred other))

variable {t u : SettingsTree} {key : String} {path : List String}

theorem walk_of_left {value : Setting} (h : t.get? key = some value) (hu : u.get? key = none) :
    walk t u (key :: path) = .alone (value.at? path) := by
  rw [walk, h, hu]

theorem walk_of_right (h : t.get? key = none) :
    walk t u (key :: path) = .alone ((tree u).at? (key :: path)) := by
  rw [walk, h, at?_tree_cons]
  cases u.get? key <;> rfl

theorem walk_of_trees {old new : SettingsTree} (h : t.get? key = some (tree old))
    (hu : u.get? key = some (tree new)) :
    walk t u (key :: path) =
      if old.size < new.size then walk new old path else walk old new path := by
  rw [walk, h, hu]

theorem walk_of_leaf {value new : Setting} (h : t.get? key = some value)
    (hu : u.get? key = some new) (hleaf : value.isTree = false ∨ new.isTree = false) :
    walk t u (key :: path) = .alone (value.at? path) := by
  rw [walk, h, hu]
  cases value <;> cases new <;> first | rfl | simp at hleaf

/-- A merge holds at the end of a path what the walk finds. -/
theorem at?_merge (t u : SettingsTree) (path : List String) :
    (tree (merge t u)).at? path = (walk t u path).merged := by
  induction path generalizing t u with
  | nil => rfl
  | cons key path ih =>
      rw [at?_tree_cons]
      cases ht : t.get? key with
      | none => rw [get?_merge_of_right ht, walk_of_right ht, Found.merged, at?_tree_cons]
      | some value =>
          cases hu : u.get? key with
          | none => rw [get?_merge_of_left ht hu, walk_of_left ht hu]; rfl
          | some new =>
              rw [get?_merge_of_both ht hu, Option.bind_some]
              by_cases hleaf : value.isTree = false ∨ new.isTree = false
              · have hjoin : join value new = value := by
                  rcases hleaf with h | h
                  · exact join_of_leaf_left h new
                  · exact join_of_leaf_right value h
                rw [hjoin, walk_of_leaf ht hu hleaf]
                rfl
              · simp only [not_or, Bool.not_eq_false] at hleaf
                obtain ⟨old, rfl⟩ := eq_tree_of_isTree hleaf.1
                obtain ⟨new, rfl⟩ := eq_tree_of_isTree hleaf.2
                rw [join_tree_tree, walk_of_trees ht hu]
                -- The larger of the two trees is walked down, and merged into, as the preferred one.
                split
                · exact ih new old
                · exact ih old new

/-- A walk ends with two trees exactly where both have one; else one of the two supplies what is
found. -/
theorem walk_cases (t u : SettingsTree) (path : List String) :
    (∃ a b, (walk t u path = .trees a b ∨ walk t u path = .trees b a) ∧
      (tree t).at? path = some (tree a) ∧ (tree u).at? path = some (tree b)) ∨
    ¬((tree t).HasTreeAt path ∧ (tree u).HasTreeAt path) ∧
      (walk t u path = .alone ((tree t).at? path) ∨ walk t u path = .alone ((tree u).at? path)) := by
  induction path generalizing t u with
  | nil => exact .inl ⟨t, u, .inl rfl, rfl, rfl⟩
  | cons key path ih =>
      cases ht : t.get? key with
      | none =>
          refine .inr ⟨fun ⟨h, _⟩ => ?_, .inr (walk_of_right ht)⟩
          obtain ⟨value, hvalue, -⟩ := hasTreeAt_cons_iff.1 h
          cases ht.symm.trans hvalue
      | some value =>
          have hat : (tree t).at? (key :: path) = value.at? path := by rw [at?_tree_cons, ht]; rfl
          cases hu : u.get? key with
          | none =>
              refine .inr ⟨fun ⟨_, h⟩ => ?_, .inl ((walk_of_left ht hu).trans (by rw [hat]))⟩
              obtain ⟨new, hnew, -⟩ := hasTreeAt_cons_iff.1 h
              cases hu.symm.trans hnew
          | some new =>
              have hat' : (tree u).at? (key :: path) = new.at? path := by rw [at?_tree_cons, hu]; rfl
              by_cases hleaf : value.isTree = false ∨ new.isTree = false
              · refine .inr ⟨?_, .inl ((walk_of_leaf ht hu hleaf).trans (by rw [hat]))⟩
                simp only [HasTreeAt, hat, hat']
                rintro ⟨hvalue, hnew⟩
                rcases hleaf with h | h
                · cases h.symm.trans (HasTreeAt.isTree hvalue)
                · cases h.symm.trans (HasTreeAt.isTree hnew)
              · simp only [not_or, Bool.not_eq_false] at hleaf
                obtain ⟨old, rfl⟩ := eq_tree_of_isTree hleaf.1
                obtain ⟨new, rfl⟩ := eq_tree_of_isTree hleaf.2
                rw [walk_of_trees ht hu, HasTreeAt, HasTreeAt, hat, hat']
                -- Where the second tree is larger, the two sides of the claim change places as well.
                split
                · rcases ih new old with ⟨a, b, h, ha, hb⟩ | ⟨h, hfound⟩
                  · exact .inl ⟨b, a, h.symm, hb, ha⟩
                  · exact .inr ⟨fun hboth => h hboth.symm, hfound.symm⟩
                · exact ih old new

/-- A tree in a merge is one that stands there in one of the two trees alone, or two trees merged in
one of the two orders. -/
theorem at?_merge_tree_cases {merged : SettingsTree}
    (h : (tree (merge t u)).at? path = some (tree merged)) :
    (tree t).at? path = some (tree merged) ∧ ¬(tree u).HasTreeAt path ∨
      (tree u).at? path = some (tree merged) ∧ ¬(tree t).HasTreeAt path ∨
        ∃ a b, (tree t).at? path = some (tree a) ∧ (tree u).at? path = some (tree b) ∧
          (merged = merge a b ∨ merged = merge b a) := by
  rw [at?_merge] at h
  rcases walk_cases t u path with ⟨a, b, hwalk, ha, hb⟩ | ⟨hboth, hwalk | hwalk⟩
  · refine .inr (.inr ⟨a, b, ha, hb, ?_⟩)
    rcases hwalk with hwalk | hwalk
    · rw [hwalk, Found.merged] at h
      cases h
      exact .inl rfl
    · rw [hwalk, Found.merged] at h
      cases h
      exact .inr rfl
  · rw [hwalk, Found.merged] at h
    exact .inl ⟨h, fun hu => hboth ⟨⟨merged, h⟩, hu⟩⟩
  · rw [hwalk, Found.merged] at h
    exact .inr (.inl ⟨h, fun ht => hboth ⟨ht, ⟨merged, h⟩⟩⟩)

/-- A leaf of a merge is a leaf of one of the two trees, at the same place. -/
theorem at?_of_at?_merge_leaf {value : Setting} (h : (tree (merge t u)).at? path = some value)
    (hleaf : value.isTree = false) :
    (tree t).at? path = some value ∨ (tree u).at? path = some value := by
  rw [at?_merge] at h
  rcases walk_cases t u path with ⟨a, b, hwalk, -⟩ | ⟨-, hwalk | hwalk⟩
  · rcases hwalk with hwalk | hwalk
    all_goals
      rw [hwalk, Found.merged] at h
      cases h
      cases hleaf
  · exact .inl (by rwa [hwalk, Found.merged] at h)
  · exact .inr (by rwa [hwalk, Found.merged] at h)

theorem hasLeafAt_of_merge (h : (tree (merge t u)).HasLeafAt path) :
    (tree t).HasLeafAt path ∨ (tree u).HasLeafAt path := by
  obtain ⟨value, hvalue, hleaf⟩ := h
  exact (at?_of_at?_merge_leaf hvalue hleaf).imp (⟨value, ·, hleaf⟩) (⟨value, ·, hleaf⟩)

/-- A tree in a merge stands where one of the two trees has a tree. -/
theorem hasTreeAt_of_merge (h : (tree (merge t u)).HasTreeAt path) :
    (tree t).HasTreeAt path ∨ (tree u).HasTreeAt path := by
  obtain ⟨merged, h⟩ := h
  rcases at?_merge_tree_cases h with ⟨ht, -⟩ | ⟨hu, -⟩ | ⟨a, b, ha, -, -⟩
  · exact .inl ⟨merged, ht⟩
  · exact .inr ⟨merged, hu⟩
  · exact .inl ⟨a, ha⟩

/-- An entry of one of two trees is in their merge, in either order, unless the other tree has a leaf
above it. -/
theorem isSome_at?_merge (h : ((tree t).at? path).isSome) (hfree : (tree u).LeafFreeAbove path) :
    ((tree (merge t u)).at? path).isSome ∧ ((tree (merge u t)).at? path).isSome := by
  induction path generalizing t u with
  | nil => exact ⟨rfl, rfl⟩
  | cons key path ih =>
      obtain ⟨found, hfound⟩ := Option.isSome_iff_exists.1 h
      obtain ⟨value, ht, hvalue⟩ := at?_tree_cons_eq_some_iff.1 hfound
      cases hu : u.get? key with
      | none =>
          rw [at?_tree_cons, at?_tree_cons, get?_merge_of_left ht hu, get?_merge_of_right hu, ht]
          simp [hvalue]
      | some new =>
          rw [at?_tree_cons, at?_tree_cons, get?_merge_of_both ht hu, get?_merge_of_both hu ht]
          cases path with
          | nil => exact ⟨rfl, rfl⟩
          | cons next path =>
              -- There is more to the path, so the other tree must not have a leaf here.
              have hsome := Option.isSome_iff_exists.2 ⟨found, hvalue⟩
              have hnew := hfree.of_get? hu
              obtain ⟨entries, rfl⟩ := eq_tree_of_isTree hnew.isTree
              obtain ⟨old, rfl⟩ := eq_tree_of_isSome_cons hsome
              obtain ⟨hleft, hright⟩ := ih hsome hnew
              rw [join_tree_tree, join_tree_tree, Option.bind_some, Option.bind_some]
              constructor
              · split
                · exact hright
                · exact hleft
              · split
                · exact hleft
                · exact hright

/-- The value that a tree holds at the end of a path is the one that the walk finds; where the walk
ends with two trees, there is a tree that lists the keys of the preferred one and then those that
only the other has. An entry of either tree is there unless the other one has a leaf at a shorter
part of its path. -/
structure FollowsWalk (t u result : SettingsTree) : Prop where
  at_end : ∀ path,
    match walk t u path with
    | .alone value => (tree result).at? path = value
    | .trees preferred other =>
        ∃ merged : SettingsTree, (tree result).at? path = some (tree merged) ∧
          merged.keys = preferred.keys ++ other.keys.filter fun key => !preferred.contains key
  keeps : ∀ path,
    ((tree t).at? path).isSome ∧ (tree u).LeafFreeAbove path ∨
      ((tree u).at? path).isSome ∧ (tree t).LeafFreeAbove path →
    ((tree result).at? path).isSome

/-- A merge follows the walk, and so does the loop over the entries that come in, if no key stands
twice. -/
theorem merge_follows_walk (t u : SettingsTree) :
    FollowsWalk t u (merge t u) ∧
      (t.keys.Nodup → u.keys.Nodup → FollowsWalk t u (u.foldl takeEntry t)) := by
  have hmerge : FollowsWalk t u (merge t u) := by
    refine ⟨fun path => ?_, fun path h => ?_⟩
    · have hat := at?_merge t u path
      cases hwalk : walk t u path with
      | alone value => rw [hat, hwalk, Found.merged]
      | trees preferred other =>
          exact ⟨merge preferred other, by rw [hat, hwalk, Found.merged],
            keys_merge preferred other⟩
    · rcases h with ⟨h, hfree⟩ | ⟨h, hfree⟩
      · exact (isSome_at?_merge h hfree).1
      · exact (isSome_at?_merge h hfree).2
  exact ⟨hmerge, fun ht hu => merge_eq_foldl ht hu ▸ hmerge⟩

end SettingsBinding.SettingsTree
