import SettingsBinding.Settings.Tree

/-!
Merging settings trees. A key that one tree holds is kept. Where both trees hold a tree under a key,
the one with more entries absorbs the other, and the first one where they have equally many. Where a
value under a key is no tree, the first value stays.
-/

namespace SettingsBinding

theorem Setting.sizeOf_lt_of_mem {t : SettingsTree} {key : String} {value : Setting}
    (h : (key, value) ∈ t) : sizeOf value < sizeOf t := by
  have := List.sizeOf_lt_of_mem h
  simp at this
  omega

theorem Setting.mem_of_lookup_eq_some {t : SettingsTree} {key : String} {value : Setting}
    (h : t.lookup key = some value) : (key, value) ∈ t := by
  induction t with
  | nil => simp at h
  | cons e rest ih =>
    obtain ⟨k, v⟩ := e
    by_cases hk : key = k
    · subst hk
      simp at h
      simp [h]
    · rw [List.lookup_cons, beq_eq_false_iff_ne.2 hk] at h
      exact List.mem_cons_of_mem _ (ih h)

namespace SettingsTree

def newEntries (t incoming : SettingsTree) : SettingsTree :=
  incoming.filter fun e => !t.contains e.1

mutual

def merge (t incoming : SettingsTree) : SettingsTree :=
  (t.attach.map fun ⟨(key, value), _⟩ =>
    (key,
      match _h : incoming.lookup key with
      | some other => join value other
      | none => value)) ++ newEntries t incoming
termination_by sizeOf t + sizeOf incoming
decreasing_by
  have := Setting.sizeOf_lt_of_mem ‹(key, value) ∈ t›
  have := Setting.sizeOf_lt_of_mem (Setting.mem_of_lookup_eq_some _h)
  omega

/-- The value under a key for which a second value comes in. -/
def join (value incoming : Setting) : Setting :=
  match value, incoming with
  | .tree old, .tree new =>
    if old.length < new.length then .tree (merge new old) else .tree (merge old new)
  | value, _ => value
termination_by sizeOf value + sizeOf incoming
decreasing_by all_goals simp; omega

end

/-- The value under a key after a merge, from the value before and the one that comes in, if any. -/
def settle (value : Setting) : Option Setting → Setting
  | some incoming => join value incoming
  | none => value

theorem merge_eq (t incoming : SettingsTree) :
    merge t incoming =
      t.map (fun e => (e.1, settle e.2 (incoming.lookup e.1))) ++ newEntries t incoming := by
  rw [merge]
  congr 1
  conv => rhs; rw [← List.attach_map_subtype_val t, List.map_map]
  congr 1
  funext ⟨⟨key, value⟩, h⟩
  dsimp only [Function.comp]
  congr 1
  split
  · next other found => rw [found]; rfl
  · next missing => rw [missing]; rfl

def mergeAll (ts : List SettingsTree) : SettingsTree := ts.foldl merge []

end SettingsTree

end SettingsBinding
