import SettingsBinding.Proofs.Entries
import SettingsBinding.Settings.Tree

/-!
Key paths. A path leads from a setting through the trees that stand under its keys, one after the
other. It ends at a tree, at a leaf, or nowhere, and every shorter path on the way ends at a tree.
-/

namespace SettingsBinding.Setting

/-- The setting at the end of a path, if the path leads to one. -/
def at? : Setting → List String → Option Setting
  | s, [] => some s
  | s, key :: path => (s.asTree?.bind (·.get? key)).bind fun value => at? value path

def HasTreeAt (s : Setting) (path : List String) : Prop :=
  ∃ entries, s.at? path = some (tree entries)

def HasLeafAt (s : Setting) (path : List String) : Prop :=
  ∃ value, s.at? path = some value ∧ value.isTree = false

@[simp] theorem isTree_tree (t : SettingsTree) : (tree t).isTree = true := rfl

theorem eq_tree_of_isTree {s : Setting} (h : s.isTree = true) : ∃ t, s = tree t := by
  cases s with
  | tree t => exact ⟨t, rfl⟩
  | _ => cases h

theorem none_or_leaf_or_tree (found : Option Setting) :
    found = none ∨ (∃ leaf : Setting, found = some leaf ∧ leaf.isTree = false) ∨
      ∃ t, found = some (tree t) := by
  cases found with
  | none => exact .inl rfl
  | some value =>
      cases hkind : value.isTree with
      | false => exact .inr (.inl ⟨value, rfl, hkind⟩)
      | true =>
          obtain ⟨t, rfl⟩ := eq_tree_of_isTree hkind
          exact .inr (.inr ⟨t, rfl⟩)

@[simp] theorem at?_nil (s : Setting) : s.at? [] = some s := rfl

@[simp] theorem at?_tree_cons (t : SettingsTree) (key : String) (path : List String) :
    (tree t).at? (key :: path) = (t.get? key).bind fun value => value.at? path := rfl

theorem at?_tree_cons_eq_some_iff {t : SettingsTree} {key : String} {path : List String}
    {found : Setting} :
    (tree t).at? (key :: path) = some found ↔
      ∃ value, t.get? key = some value ∧ value.at? path = some found :=
  Option.bind_eq_some_iff

theorem at?_cons_of_leaf {s : Setting} (h : s.isTree = false) (key : String)
    (path : List String) : s.at? (key :: path) = none := by
  cases s with
  | tree t => cases h
  | _ => rfl

theorem eq_tree_of_isSome_cons {s : Setting} {key : String} {path : List String}
    (h : (s.at? (key :: path)).isSome) : ∃ t, s = tree t := by
  cases hkind : s.isTree with
  | true => exact eq_tree_of_isTree hkind
  | false => simp [at?_cons_of_leaf hkind] at h

theorem HasTreeAt.isSome {s : Setting} {path : List String} (h : s.HasTreeAt path) :
    (s.at? path).isSome := by
  obtain ⟨entries, h⟩ := h
  simp [h]

theorem HasLeafAt.isSome {s : Setting} {path : List String} (h : s.HasLeafAt path) :
    (s.at? path).isSome := by
  obtain ⟨value, h, -⟩ := h
  simp [h]

theorem hasTreeAt_or_hasLeafAt {s : Setting} {path : List String} (h : (s.at? path).isSome) :
    s.HasTreeAt path ∨ s.HasLeafAt path := by
  obtain ⟨value, hvalue⟩ := Option.isSome_iff_exists.1 h
  cases hkind : value.isTree with
  | true =>
      obtain ⟨entries, rfl⟩ := eq_tree_of_isTree hkind
      exact .inl ⟨entries, hvalue⟩
  | false => exact .inr ⟨value, hvalue, hkind⟩

theorem isSome_at?_iff {s : Setting} {path : List String} :
    (s.at? path).isSome ↔ s.HasTreeAt path ∨ s.HasLeafAt path :=
  ⟨hasTreeAt_or_hasLeafAt, fun h => h.elim HasTreeAt.isSome HasLeafAt.isSome⟩

theorem HasTreeAt.not_hasLeafAt {s : Setting} {path : List String} (h : s.HasTreeAt path) :
    ¬s.HasLeafAt path := by
  rintro ⟨value, hvalue, hkind⟩
  obtain ⟨entries, h⟩ := h
  cases hvalue.symm.trans h
  cases hkind

@[simp] theorem hasTreeAt_tree_nil (t : SettingsTree) : (tree t).HasTreeAt [] := ⟨t, rfl⟩

@[simp] theorem not_hasLeafAt_tree_nil (t : SettingsTree) : ¬(tree t).HasLeafAt [] :=
  (hasTreeAt_tree_nil t).not_hasLeafAt

theorem hasTreeAt_cons_iff {t : SettingsTree} {key : String} {path : List String} :
    (tree t).HasTreeAt (key :: path) ↔ ∃ value, t.get? key = some value ∧ value.HasTreeAt path := by
  simp only [HasTreeAt, at?_tree_cons_eq_some_iff]
  constructor
  · rintro ⟨entries, value, hvalue, h⟩
    exact ⟨value, hvalue, entries, h⟩
  · rintro ⟨value, hvalue, entries, h⟩
    exact ⟨entries, value, hvalue, h⟩

theorem hasLeafAt_cons_iff {t : SettingsTree} {key : String} {path : List String} :
    (tree t).HasLeafAt (key :: path) ↔ ∃ value, t.get? key = some value ∧ value.HasLeafAt path := by
  simp only [HasLeafAt, at?_tree_cons_eq_some_iff]
  constructor
  · rintro ⟨leaf, ⟨value, hvalue, h⟩, hkind⟩
    exact ⟨value, hvalue, leaf, h, hkind⟩
  · rintro ⟨value, hvalue, leaf, h, hkind⟩
    exact ⟨leaf, ⟨value, hvalue, h⟩, hkind⟩

/-- On the way to a setting all shorter paths end at trees. -/
theorem hasTreeAt_of_isSome_append_cons {s : Setting} {path rest : List String} {key : String}
    (h : (s.at? (path ++ key :: rest)).isSome) : s.HasTreeAt path := by
  induction path generalizing s with
  | nil =>
      obtain ⟨t, rfl⟩ := eq_tree_of_isSome_cons h
      exact hasTreeAt_tree_nil t
  | cons first path ih =>
      obtain ⟨t, rfl⟩ := eq_tree_of_isSome_cons h
      obtain ⟨found, hfound⟩ := Option.isSome_iff_exists.1 h
      obtain ⟨value, hvalue, hrest⟩ := at?_tree_cons_eq_some_iff.1 hfound
      exact hasTreeAt_cons_iff.2 ⟨value, hvalue, ih (Option.isSome_iff_exists.2 ⟨found, hrest⟩)⟩

theorem HasTreeAt.isTree {s : Setting} {path : List String} (h : s.HasTreeAt path) :
    s.isTree = true := by
  cases path with
  | nil =>
      obtain ⟨entries, h⟩ := h
      cases h
      rfl
  | cons key path =>
      obtain ⟨t, rfl⟩ := eq_tree_of_isSome_cons h.isSome
      exact isTree_tree t

theorem HasTreeAt.of_append {s : Setting} {path rest : List String}
    (h : s.HasTreeAt (path ++ rest)) : s.HasTreeAt path := by
  cases rest with
  | nil => simpa using h
  | cons key rest => exact hasTreeAt_of_isSome_append_cons h.isSome

/-- No shorter part of the path ends at a leaf. -/
def LeafFreeAbove (s : Setting) (path : List String) : Prop :=
  ∀ above key rest, path = above ++ key :: rest → ¬s.HasLeafAt above

theorem LeafFreeAbove.isTree {s : Setting} {key : String} {path : List String}
    (h : s.LeafFreeAbove (key :: path)) : s.isTree = true := by
  cases hkind : s.isTree with
  | true => rfl
  | false => exact absurd ⟨s, rfl, hkind⟩ (h [] key path rfl)

theorem LeafFreeAbove.of_get? {t : SettingsTree} {key : String} {path : List String}
    (h : (tree t).LeafFreeAbove (key :: path)) {value : Setting} (hvalue : t.get? key = some value) :
    value.LeafFreeAbove path := by
  rintro above first rest rfl hleaf
  exact h (key :: above) first rest rfl (hasLeafAt_cons_iff.2 ⟨value, hvalue, hleaf⟩)

end SettingsBinding.Setting
