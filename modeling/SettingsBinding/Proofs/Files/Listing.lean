import Mathlib.Data.List.Nodup
import SettingsBinding.Proofs.Files.Names

/-!
The order in which a tree of files lists its entries. Two trees with the same entries have the same
content at every place, so a path leads to the same place in both of them; and both stay alike where
an entry is put at the same place. Only the names in a directory may come in another order.
-/

namespace SettingsBinding.FileTree

variable {t u : FileTree} {l : Location} {e : FileEntry} {name : String}

theorem lookup_eq_some_iff_mem {es : List (Location × FileEntry)} (h : (es.map Prod.fst).Nodup) :
    es.lookup l = some e ↔ (l, e) ∈ es := by
  constructor
  · intro hlookup
    obtain ⟨before, after, rfl, -⟩ := List.lookup_eq_some_iff.1 hlookup
    simp
  · intro hmem
    obtain ⟨before, after, rfl⟩ := List.append_of_mem hmem
    refine List.lookup_eq_some_iff.2 ⟨before, after, rfl, fun entry hentry => ?_⟩
    rw [List.map_append, List.map_cons, List.nodup_append] at h
    have hne : entry.1 ≠ l := h.2.2 entry.1 (List.mem_map_of_mem hentry) l List.mem_cons_self
    exact bne_iff_ne.2 hne.symm

/-- The two trees have the same entries and may list them in different orders. -/
def Relisted (t u : FileTree) : Prop := t.entries.Perm u.entries

theorem relisted_iff_lookup :
    t.Relisted u ↔ ∀ l, t.entries.lookup l = u.entries.lookup l := by
  have hsame (l : Location) : t.entries.lookup l = u.entries.lookup l ↔
      ∀ e, (l, e) ∈ t.entries ↔ (l, e) ∈ u.entries := by
    simp only [← lookup_eq_some_iff_mem t.nodup, ← lookup_eq_some_iff_mem u.nodup]
    exact Option.ext_iff
  simp only [hsame]
  rw [Relisted, List.perm_ext_iff_of_nodup (.of_map Prod.fst t.nodup) (.of_map Prod.fst u.nodup)]
  exact ⟨fun h l e => h (l, e), fun h entry => h entry.1 entry.2⟩

section

variable (h : t.Relisted u)

include h

theorem Relisted.get?_eq : t.get? = u.get? := by
  funext l
  rw [get?, get?, relisted_iff_lookup.1 h l]

theorem Relisted.isDirectory_eq : t.isDirectory = u.isDirectory := by
  funext l
  rw [isDirectory, isDirectory, h.get?_eq]

theorem Relisted.takesFile_eq : t.takesFile = u.takesFile := by
  funext l
  rw [takesFile, takesFile, h.get?_eq]

theorem Relisted.follow_eq : t.follow = u.follow := by
  have hstep : t.step = u.step := by
    funext l piece
    rw [step, step, h.get?_eq]
  funext l pieces
  rw [follow, follow, hstep]

theorem Relisted.resolve_eq : t.resolve = u.resolve := by
  funext directory p
  rw [resolve, resolve, h.follow_eq]

theorem Relisted.find?_eq : t.find? = u.find? := by
  funext directory p
  rw [find?, find?, h.resolve_eq, h.get?_eq]

theorem Relisted.readText_eq : t.readText = u.readText := by
  funext directory p
  rw [readText, readText, h.resolve_eq, h.get?_eq]

theorem Relisted.target_eq : t.target = u.target := by
  funext directory p
  rw [target, target, h.follow_eq, h.isDirectory_eq]

theorem Relisted.put (l : Location) (e : FileEntry) : (t.put l e).Relisted (u.put l e) := by
  refine relisted_iff_lookup.2 fun k => ?_
  rw [FileTree.put, FileTree.put, lookup_putIn, lookup_putIn, relisted_iff_lookup.1 h k]

theorem Relisted.names (l : Location) : (t.names l).Perm (u.names l) := h.filterMap _

/-- Whether a listing breaks off does not depend on its order. -/
theorem Relisted.canList_eq : t.canList = u.canList := by
  funext l
  rw [Bool.eq_iff_iff, canList, canList, List.all_eq_true, List.all_eq_true, h.get?_eq]
  simp only [(h.names l).mem_iff]

end

/-! ### The names in a directory -/

def HasNames (t : FileTree) : Prop := ∀ entry ∈ t.entries, ∀ name ∈ entry.1, Path.IsName name

/-- The place of an entry is that of its directory with its name behind it. -/
theorem eq_append_of_mem_named {k : Location}
    (h : name ∈ if k.dropLast = l then k.getLast? else none) : k = l ++ [name] := by
  split at h
  · next hfront =>
      obtain ⟨front, rfl⟩ := List.getLast?_eq_some_iff.1 h
      rw [← hfront, List.dropLast_concat]
  · cases h

theorem mem_names_iff : name ∈ t.names l ↔ (t.get? (l ++ [name])).isSome := by
  have hne : l ++ [name] ≠ [] := List.append_ne_nil_of_right_ne_nil l (List.cons_ne_nil _ _)
  rw [get?, if_neg hne, names, List.mem_filterMap, Option.isSome_iff_exists]
  simp only [lookup_eq_some_iff_mem t.nodup]
  constructor
  · rintro ⟨⟨k, e⟩, hmem, hname⟩
    exact ⟨e, eq_append_of_mem_named hname ▸ hmem⟩
  · rintro ⟨e, hmem⟩
    refine ⟨_, hmem, ?_⟩
    dsimp only
    rw [if_pos List.dropLast_concat, List.getLast?_concat]

theorem nodup_names (t : FileTree) (l : Location) : (t.names l).Nodup := by
  have hkeys : t.names l = (t.entries.map Prod.fst).filterMap fun k =>
      if k.dropLast = l then k.getLast? else none := by
    rw [List.filterMap_map]
    rfl
  rw [hkeys]
  exact t.nodup.filterMap fun k k' name hk hk' =>
    (eq_append_of_mem_named hk).trans (eq_append_of_mem_named hk').symm

theorem HasNames.isName (h : t.HasNames) (hmem : name ∈ t.names l) : Path.IsName name := by
  have hne : l ++ [name] ≠ [] := List.append_ne_nil_of_right_ne_nil l (List.cons_ne_nil _ _)
  obtain ⟨e, he⟩ := Option.isSome_iff_exists.1 (mem_names_iff.1 hmem)
  rw [get?, if_neg hne, lookup_eq_some_iff_mem t.nodup] at he
  exact h _ he name (by simp)

end SettingsBinding.FileTree
