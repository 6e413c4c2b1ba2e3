import SettingsBinding.Commands.Output
import SettingsBinding.Proofs.Json.Printed
import SettingsBinding.Proofs.Settings.Json

/-!
Printed settings trees. A tree in which each key stands once loses nothing on the way through its
JSON value and the text of that value: the text is a settings text of the same tree.
-/

namespace SettingsBinding

namespace Json

variable {α : Type}

theorem insertMember_of_not_mem {key : String} {kept : List (String × α)} (h : key ∉ keys kept)
    (value : α) : insertMember key value kept = kept ++ [(key, value)] := by
  induction kept with
  | nil => rfl
  | cons first rest ih =>
      rcases first with ⟨k, old⟩
      rw [keys, List.map_cons, List.mem_cons, not_or] at h
      rw [insertMember, if_neg (Ne.symm h.1), ih h.2, List.cons_append]

/-- Where each key stands once, the last values of the keys are all the values. -/
theorem lastValues_of_nodup {members : List (String × α)} (distinct : (keys members).Nodup) :
    lastValues members = members := by
  have hloop : ∀ kept rest : List (String × α), (keys (kept ++ rest)).Nodup →
      rest.foldl (fun kept m => insertMember m.1 m.2 kept) kept = kept ++ rest := by
    intro kept rest
    induction rest generalizing kept with
    | nil => exact fun _ => (List.append_nil kept).symm
    | cons first rest ih =>
        rcases first with ⟨key, value⟩
        intro distinct
        have hfresh : key ∉ keys kept := by
          rw [keys, List.map_append, List.nodup_append] at distinct
          exact fun hmem => distinct.2.2 key hmem key List.mem_cons_self rfl
        rw [List.append_cons] at distinct
        rw [List.foldl_cons, insertMember_of_not_mem hfresh, ih _ distinct, ← List.append_cons]
  exact hloop [] members distinct

theorem withUniqueKeys_of_uniqueKeys {value : Json} (h : value.UniqueKeys) :
    value.withUniqueKeys = value := by
  induction h with
  | null | bool | number | string => rfl
  | @array items h ih =>
      have hitems : items.map withUniqueKeys = items :=
        (List.map_congr_left ih).trans (List.map_id items)
      rw [withUniqueKeys, itemsWithUniqueKeys_eq_map, hitems]
  | @object members distinct h ih =>
      have hmember : ∀ m ∈ members, (m.1, m.2.withUniqueKeys) = m := fun m hm =>
        Prod.ext rfl (ih m hm)
      have hmembers : (members.map fun m => (m.1, m.2.withUniqueKeys)) = members :=
        (List.map_congr_left hmember).trans (List.map_id' members)
      rw [withUniqueKeys, membersWithUniqueKeys_eq_map, hmembers, lastValues_of_nodup distinct]

end Json

namespace Setting

mutual

theorem ofJson_toJson : (s : Setting) → ofJson s.toJson = s
  | .null | .bool _ | .number _ | .string _ | .array _ => rfl
  | .tree entries => by rw [toJson, ofJson, entriesOfJson_entriesToJson entries]

theorem entriesOfJson_entriesToJson :
    (entries : SettingsTree) → entriesOfJson (entriesToJson entries) = entries
  | [] => rfl
  | (key, value) :: rest => by
      rw [entriesToJson, entriesOfJson, ofJson_toJson value, entriesOfJson_entriesToJson rest]

end

theorem uniqueKeys_toJson {s : Setting} (h : s.UniqueKeys) : s.toJson.UniqueKeys := by
  induction h with
  | null => exact .null
  | bool b => exact .bool b
  | number n => exact .number n
  | string s => exact .string s
  | array h => exact .array h
  | @tree entries distinct h ih =>
      rw [toJson, entriesToJson_eq_map]
      refine .object ?_ fun m hm => ?_
      · have hkeys : Json.keys (entries.map fun e => (e.1, e.2.toJson)) = Json.keys entries :=
          List.map_map
        rwa [hkeys]
      · obtain ⟨e, he, rfl⟩ := List.mem_map.1 hm
        exact ih e he

end Setting

namespace SettingsTree

variable {t : SettingsTree} {blanks : List Char}

/-- The text of a tree, with white space behind it or without, is a settings text of the tree. -/
theorem parse_print (style : Json.Style) (hkeys : (Setting.tree t).UniqueKeys)
    (hnumbers : ∀ n ∈ t.toJson.numbers, n.IsWord) (hdepth : t.toJson.depth ≤ Json.depthLimit)
    (hblanks : ∀ c ∈ blanks, Json.isBlank c = true) :
    parse (String.ofList (Json.print style 0 t.toJson ++ blanks)) = .ok t := by
  refine parse_eq_ok_iff.2 ⟨t.toJson, Json.parse_eq_ok_iff.2 ?_, ?_⟩
  · rw [String.toList_ofList]
    exact Json.read_print style hnumbers hdepth hblanks
  · rw [toJson, Json.withUniqueKeys_of_uniqueKeys (Setting.uniqueKeys_toJson hkeys),
      Setting.ofJson_toJson]

/-- The document with the printed tree is read as the tree. -/
theorem tree?_print (name : String) (style : Json.Style) (hkeys : (Setting.tree t).UniqueKeys)
    (hnumbers : ∀ n ∈ t.toJson.numbers, n.IsWord) (hdepth : t.toJson.depth ≤ Json.depthLimit)
    (hblanks : ∀ c ∈ blanks, Json.isBlank c = true) :
    (SettingsDocument.mk name (String.ofList (Json.print style 0 t.toJson ++ blanks))).tree? =
      .ok (some t) := by
  refine SettingsDocument.tree?_eq_ok_some_iff.2 ⟨?_, parse_print style hkeys hnumbers hdepth
    hblanks⟩
  obtain ⟨rest, hprint⟩ := Json.print_object_eq_cons style 0 (Setting.entriesToJson t)
  rw [SettingsDocument.isBlank, Text.isBlank_ofList, toJson, Setting.toJson, hprint]
  rfl

end SettingsTree

/-- A line break is put behind a text or is there already. -/
theorem exists_endLine_eq (content : String) :
    ∃ blanks, endLine content = String.ofList (content.toList ++ blanks) ∧
      ∀ c ∈ blanks, Json.isBlank c = true := by
  rw [endLine]
  split
  · exact ⟨[], by simp, nofun⟩
  · exact ⟨['\n'], by simp, by simp [Json.isBlank]⟩

end SettingsBinding
