import SettingsBinding.Proofs.Entries
import SettingsBinding.Settings.Document

/-!
Unique keys. Reading a settings text gives a tree in which each key stands once, at every level and
in the objects inside arrays too, however often a key stands in an object of the text.
-/

namespace SettingsBinding

namespace Json

theorem mem_insertMember {α : Type} {key : String} {value : α} {entries : List (String × α)}
    {e : String × α} (h : e ∈ insertMember key value entries) : e = (key, value) ∨ e ∈ entries := by
  induction entries with
  | nil => exact .inl (List.mem_singleton.1 h)
  | cons first rest ih =>
      rcases first with ⟨k, old⟩
      rw [insertMember] at h
      split at h
      · next heq =>
          subst heq
          rcases List.mem_cons.1 h with rfl | h
          · exact .inl rfl
          · exact .inr (List.mem_cons_of_mem _ h)
      · rcases List.mem_cons.1 h with rfl | h
        · exact .inr List.mem_cons_self
        · exact (ih h).imp_right (List.mem_cons_of_mem _)

/-- The keys stay distinct, and the values are those of the members. -/
theorem lastValues_invariant {α : Type} (P : α → Prop) (members : List (String × α))
    (hmembers : ∀ m ∈ members, P m.2) :
    (keys (lastValues members)).Nodup ∧ ∀ m ∈ lastValues members, P m.2 := by
  have hloop : ∀ kept : List (String × α), (keys kept).Nodup → (∀ m ∈ kept, P m.2) →
      (keys (members.foldl (fun kept m => insertMember m.1 m.2 kept) kept)).Nodup ∧
        ∀ m ∈ members.foldl (fun kept m => insertMember m.1 m.2 kept) kept, P m.2 := by
    induction members with
    | nil => exact fun kept distinct h => ⟨distinct, h⟩
    | cons first rest ih =>
        rcases first with ⟨key, value⟩
        intro kept distinct h
        refine ih (fun m hm => hmembers m (List.mem_cons_of_mem _ hm)) _
          (Entries.nodup_keys_insertMember value distinct) fun m hm => ?_
        rcases mem_insertMember hm with rfl | hm
        · exact hmembers _ List.mem_cons_self
        · exact h m hm
  exact hloop [] List.nodup_nil nofun

mutual

theorem uniqueKeys_withUniqueKeys : (value : Json) → value.withUniqueKeys.UniqueKeys
  | .null => .null
  | .bool b => .bool b
  | .number n => .number n
  | .string s => .string s
  | .array items => by
      rw [withUniqueKeys]
      exact .array (uniqueKeys_itemsWithUniqueKeys items)
  | .object members => by
      rw [withUniqueKeys]
      obtain ⟨distinct, h⟩ := lastValues_invariant UniqueKeys _
        (uniqueKeys_membersWithUniqueKeys members)
      exact .object distinct h

theorem uniqueKeys_itemsWithUniqueKeys :
    (items : List Json) → ∀ item ∈ itemsWithUniqueKeys items, item.UniqueKeys
  | [] => nofun
  | item :: rest => by
      rw [itemsWithUniqueKeys, List.forall_mem_cons]
      exact ⟨uniqueKeys_withUniqueKeys item, uniqueKeys_itemsWithUniqueKeys rest⟩

theorem uniqueKeys_membersWithUniqueKeys :
    (members : List (String × Json)) → ∀ m ∈ membersWithUniqueKeys members, m.2.UniqueKeys
  | [] => nofun
  | (key, value) :: rest => by
      rw [membersWithUniqueKeys, List.forall_mem_cons]
      exact ⟨uniqueKeys_withUniqueKeys value, uniqueKeys_membersWithUniqueKeys rest⟩

end

end Json

namespace Setting

theorem uniqueKeys_tree_iff {t : SettingsTree} :
    (tree t).UniqueKeys ↔
      t.keys.Nodup ∧ ∀ key value, t.get? key = some value → value.UniqueKeys := by
  constructor
  · rintro (_ | _ | _ | _ | _ | ⟨distinct, h⟩)
    exact ⟨distinct, fun key value hvalue => h _ (Entries.mem_of_lookup_eq_some hvalue)⟩
  · rintro ⟨distinct, h⟩
    refine .tree distinct fun e he => h e.1 e.2 ?_
    exact (Entries.lookup_eq_some_iff_mem distinct).2 he

theorem uniqueKeys_ofJson {value : Json} (h : value.UniqueKeys) : (ofJson value).UniqueKeys := by
  induction h with
  | null => exact .null
  | bool b => exact .bool b
  | number n => exact .number n
  | string s => exact .string s
  | array h => exact .array h
  | @object members distinct h ih =>
      rw [ofJson, entriesOfJson_eq_map]
      refine .tree ?_ fun e he => ?_
      · have hkeys : Json.keys (members.map fun m => (m.1, ofJson m.2)) = Json.keys members :=
          List.map_map
        rwa [hkeys]
      · obtain ⟨m, hm, rfl⟩ := List.mem_map.1 he
        exact ih m hm

end Setting

namespace SettingsTree

theorem parse_eq_ok_iff {text : String} {t : SettingsTree} :
    parse text = .ok t ↔
      ∃ written, Json.parse text = .ok written ∧
        Setting.ofJson written.withUniqueKeys = .tree t := by
  rw [parse]
  cases Json.parse text with
  | error message => simp
  | ok written =>
      simp only [ofJson, Except.ok.injEq, exists_eq_left']
      cases Setting.ofJson written.withUniqueKeys with
      | tree entries => simp
      | _ => simp

theorem uniqueKeys_of_parse {text : String} {t : SettingsTree} (h : parse text = .ok t) :
    (Setting.tree t).UniqueKeys := by
  obtain ⟨written, -, htree⟩ := parse_eq_ok_iff.1 h
  rw [← htree]
  exact Setting.uniqueKeys_ofJson (Json.uniqueKeys_withUniqueKeys written)

end SettingsTree

end SettingsBinding
