import Mathlib.Algebra.Order.BigOperators.Group.List
import Mathlib.Algebra.Order.Ring.Nat
import Mathlib.Data.List.Nodup
import Mathlib.Data.List.Perm.Subperm
import SettingsBinding.Proofs.Settings.KeyPath
import SettingsBinding.Proofs.Settings.UniqueKeys

/-!
The entries of a setting at all levels, each under the path that leads to it. Where each key stands
once no path is listed twice, so a setting has no more entries than two others together if each of
its paths leads to the like in one of them.
-/

namespace SettingsBinding.Setting

mutual

/-- The entries at all levels, each under the path that leads to it. -/
def allEntries : Setting → List (List String × Setting)
  | .tree entries => allEntriesOf entries
  | _ => []

def allEntriesOf : SettingsTree → List (List String × Setting)
  | [] => []
  | (key, value) :: rest =>
    ([key], value) :: value.allEntries.map (fun e => (key :: e.1, e.2)) ++ allEntriesOf rest

end

mutual

/-- The number of entries at all levels. An array adds to it what `inside` gives for its items. -/
def entryCount (inside : List Json → Nat) : Setting → Nat
  | .array items => inside items
  | .tree entries => entryCountOf inside entries
  | _ => 0

def entryCountOf (inside : List Json → Nat) : SettingsTree → Nat
  | [] => 0
  | (_, value) :: rest => 1 + value.entryCount inside + entryCountOf inside rest

end

/-- What a value adds to the number of entries when its own entries are left out. -/
def ownCount (inside : List Json → Nat) : Setting → Nat
  | .array items => inside items
  | _ => 0

variable {s : Setting} {inside : List Json → Nat}

def entriesFrom (e : String × Setting) : List (List String × Setting) :=
  ([e.1], e.2) :: e.2.allEntries.map fun b => (e.1 :: b.1, b.2)

theorem allEntriesOf_eq_flatMap (entries : SettingsTree) :
    allEntriesOf entries = entries.flatMap entriesFrom := by
  induction entries with
  | nil => rfl
  | cons e rest ih => simp [allEntriesOf, ih, entriesFrom]

/-- Paths of the entries that start with the given one start with its key. -/
theorem map_fst_entriesFrom (e : String × Setting) :
    (entriesFrom e).map Prod.fst = ([] :: e.2.allEntries.map Prod.fst).map (e.1 :: ·) := by
  simp [entriesFrom, Function.comp_def]

theorem mem_entriesFrom_iff {e : String × Setting} {path : List String} {found : Setting} :
    (path, found) ∈ entriesFrom e ↔
      ∃ rest, path = e.1 :: rest ∧ ((rest, found) = ([], e.2) ∨ (rest, found) ∈ e.2.allEntries) := by
  simp only [entriesFrom, List.mem_cons, List.mem_map, Prod.exists]
  constructor
  · rintro (h | ⟨rest, value, hmem, h⟩)
    · cases h
      exact ⟨[], rfl, .inl rfl⟩
    · cases h
      exact ⟨rest, rfl, .inr hmem⟩
  · rintro ⟨rest, rfl, h | hmem⟩
    · cases h
      exact .inl rfl
    · exact .inr ⟨rest, found, hmem, rfl⟩

theorem mem_allEntries_iff (hkeys : s.UniqueKeys) {path : List String} {found : Setting} :
    (path, found) ∈ s.allEntries ↔ path ≠ [] ∧ s.at? path = some found := by
  induction hkeys generalizing path found with
  | @tree entries distinct h ih =>
      rw [allEntries, allEntriesOf_eq_flatMap, List.mem_flatMap]
      constructor
      · rintro ⟨e, he, hmem⟩
        obtain ⟨rest, rfl, hrest⟩ := mem_entriesFrom_iff.1 hmem
        refine ⟨by simp, at?_tree_cons_eq_some_iff.2 ⟨e.2, ?_, ?_⟩⟩
        · exact (Entries.lookup_eq_some_iff_mem distinct).2 he
        · rcases hrest with hself | hbelow
          · cases hself
            rfl
          · exact ((ih e he).1 hbelow).2
      · rintro ⟨hpath, hvalue⟩
        obtain ⟨key, rest, rfl⟩ := List.exists_cons_of_ne_nil hpath
        obtain ⟨value, hmember, hvalue⟩ := at?_tree_cons_eq_some_iff.1 hvalue
        have hmem := Entries.mem_of_lookup_eq_some hmember
        refine ⟨(key, value), hmem, mem_entriesFrom_iff.2 ⟨rest, rfl, ?_⟩⟩
        cases rest with
        | nil => exact .inl (by rw [Option.some.inj hvalue])
        | cons next rest => exact .inr ((ih _ hmem).2 ⟨by simp, hvalue⟩)
  | null | bool | number | string | array =>
      refine iff_of_false (by simp [allEntries]) fun ⟨hpath, hvalue⟩ => ?_
      obtain ⟨key, rest, rfl⟩ := List.exists_cons_of_ne_nil hpath
      cases hvalue

/-- Every path leads to one entry only. -/
theorem nodup_map_fst_allEntries (hkeys : s.UniqueKeys) : (s.allEntries.map Prod.fst).Nodup := by
  induction hkeys with
  | @tree entries distinct h ih =>
      rw [allEntries, allEntriesOf_eq_flatMap, List.map_flatMap, List.nodup_flatMap]
      simp only [map_fst_entriesFrom]
      constructor
      · intro e he
        have hnil : [] ∉ e.2.allEntries.map Prod.fst := by
          intro hmem
          obtain ⟨⟨path, value⟩, hvalue, hpath⟩ := List.mem_map.1 hmem
          exact ((mem_allEntries_iff (h e he)).1 hvalue).1 hpath
        exact (List.nodup_cons.2 ⟨hnil, ih e he⟩).map List.cons_injective
      · -- Paths from two different entries differ in their first key.
        have hkeys : entries.Pairwise fun e e' => e.1 ≠ e'.1 := List.pairwise_map.1 distinct
        refine hkeys.imp fun {e e'} hne => List.disjoint_left.2 fun path hpath hpath' => ?_
        obtain ⟨rest, -, rfl⟩ := List.mem_map.1 hpath
        obtain ⟨rest', -, heq⟩ := List.mem_map.1 hpath'
        exact hne (List.cons.inj heq).1.symm
  | null | bool | number | string | array => exact List.nodup_nil

mutual

theorem entryCount_eq (inside : List Json → Nat) : (s : Setting) → s.entryCount inside =
    s.ownCount inside + (s.allEntries.map fun e => 1 + e.2.ownCount inside).sum
  | .null | .bool _ | .number _ | .string _ | .array _ => rfl
  | .tree entries => by
      simp [entryCount, entryCountOf_eq inside entries, ownCount, allEntries]

theorem entryCountOf_eq (inside : List Json → Nat) :
    (entries : SettingsTree) → entryCountOf inside entries =
      ((allEntriesOf entries).map fun e => 1 + e.2.ownCount inside).sum
  | [] => rfl
  | (key, value) :: rest => by
      rw [entryCountOf, entryCount_eq inside value, entryCountOf_eq inside rest]
      simp [allEntriesOf, Function.comp_def, Nat.add_assoc]

end

/-- A tree whose paths lead to the like in one of two others has no more entries than the two
together. -/
theorem entryCount_tree_le_add {t u v : SettingsTree} (ht : (tree t).UniqueKeys)
    (hu : (tree u).UniqueKeys) (hv : (tree v).UniqueKeys)
    (hpaths : ∀ path found, (tree v).at? path = some found → path ≠ [] →
      ∃ other, ((tree t).at? path = some other ∨ (tree u).at? path = some other) ∧
        other.ownCount inside = found.ownCount inside) :
    (tree v).entryCount inside ≤ (tree t).entryCount inside + (tree u).entryCount inside := by
  let counted (e : List String × Setting) : List String × Nat := (e.1, e.2.ownCount inside)
  have hnodup : ((tree v).allEntries.map counted).Nodup := by
    apply List.Nodup.of_map Prod.fst
    simpa [counted, Function.comp_def] using nodup_map_fst_allEntries hv
  have hsubset : (tree v).allEntries.map counted ⊆
      ((tree t).allEntries ++ (tree u).allEntries).map counted := by
    intro c hc
    obtain ⟨⟨path, found⟩, hmem, rfl⟩ := List.mem_map.1 hc
    obtain ⟨hpath, hfound⟩ := (mem_allEntries_iff hv).1 hmem
    obtain ⟨other, hother, hcount⟩ := hpaths path found hfound hpath
    refine List.mem_map.2 ⟨(path, other), ?_, by simp [counted, hcount]⟩
    rw [List.mem_append, mem_allEntries_iff ht, mem_allEntries_iff hu]
    exact hother.imp (⟨hpath, ·⟩) (⟨hpath, ·⟩)
  obtain ⟨listed, hperm, hsublist⟩ := List.subperm_of_subset hnodup hsubset
  have hsum := (hsublist.map fun c => 1 + c.2).sum_le_sum fun _ _ => Nat.zero_le _
  rw [(hperm.map _).sum_eq] at hsum
  simpa [entryCount_eq, ownCount, counted, Function.comp_def] using hsum

end SettingsBinding.Setting
