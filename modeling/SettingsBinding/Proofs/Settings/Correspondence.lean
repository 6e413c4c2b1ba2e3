import Mathlib.Control.Monad.Basic
import SettingsBinding.Proofs.Equality
import SettingsBinding.Proofs.Merge.Lookup
import SettingsBinding.Proofs.Settings.Printed

/-!
Settings trees and JSON objects. Reading a value gives a tree exactly where the value is an object,
and then the tree of which it is the value: the keys stay in their order at every level, and arrays
stay as they are. The entries of a tree at the top level are its sections and its scalars, both in
their order.
-/

namespace SettingsBinding

namespace Setting

@[simp] theorem kind_ofJson (value : Json) : (ofJson value).kind = value.kind := by
  cases value <;> rfl

theorem uniqueKeys_toJson_iff {s : Setting} : s.toJson.UniqueKeys ↔ s.UniqueKeys := by
  refine ⟨fun h => ?_, uniqueKeys_toJson⟩
  rw [← ofJson_toJson s]
  exact uniqueKeys_ofJson h

end Setting

namespace SettingsTree

open Setting

variable {value : Json} {t : SettingsTree}

/-- The tree of a settings document from the value that its text writes. -/
def read (value : Json) : Except Failure SettingsTree :=
  (ofJson value).mapError (.notAnObject "settings document")

theorem parse_eq_read (text : String) :
    parse text = (Json.parse text).mapError .badJson >>= fun value => read value.withUniqueKeys := by
  rw [parse]
  cases Json.parse text with
  | error message => rfl
  | ok written =>
      cases h : ofJson written.withUniqueKeys <;> simp [Except.mapError, read, h]

/-- A text in which no key stands twice in an object is read as the value that it writes. -/
theorem parse_of_uniqueKeys {text : String} (h : Json.parse text = .ok value)
    (hkeys : value.UniqueKeys) : parse text = read value := by
  rw [parse_eq_read, h]
  change read value.withUniqueKeys = read value
  rw [Json.withUniqueKeys_of_uniqueKeys hkeys]

/-- The trees are the values of the kind of objects, and each is read from its own value only. -/
theorem ofJson_eq_ok_iff : ofJson value = .ok t ↔ t.toJson = value := by
  constructor
  · intro h
    have htree : Setting.ofJson value = tree t := by
      rw [ofJson] at h
      split at h
      · next entries hentries =>
          cases h
          exact hentries
      · cases h
    rw [toJson, ← htree, toJson_ofJson]
  · rintro rfl
    rw [ofJson, toJson, ofJson_toJson]

theorem ofJson_eq_error_iff {found : JsonKind} :
    ofJson value = .error found ↔ value.kind ≠ .object ∧ found = value.kind := by
  rw [← kind_ofJson value, ofJson]
  cases Setting.ofJson value <;> simp [Setting.kind, eq_comm]

theorem read_eq_ok_iff : read value = .ok t ↔ t.toJson = value := by
  rw [read, Steps.mapError_eq_ok_iff, ofJson_eq_ok_iff]

theorem read_eq_error_iff {failure : Failure} :
    read value = .error failure ↔
      value.kind ≠ .object ∧ failure = .notAnObject "settings document" value.kind := by
  rw [read]
  cases h : ofJson value with
  | error found =>
      obtain ⟨hkind, rfl⟩ := ofJson_eq_error_iff.1 h
      simp [Except.mapError, hkind, eq_comm]
  | ok t =>
      rw [← ofJson_eq_ok_iff.1 h]
      simp [Except.mapError, toJson, Setting.toJson, Json.kind]

/-! ### Sections and scalars -/

/-- The entries of the sections. -/
theorem map_sections (t : SettingsTree) :
    (t.sections.map fun e => (e.1, tree e.2)) = t.filter fun e => e.2.isTree := by
  induction t with
  | nil => rfl
  | cons e rest ih =>
      rcases e with ⟨key, value⟩
      cases value <;> simpa [sections, asTree?, isTree] using ih

theorem mem_sections_iff {key : String} {entries : SettingsTree} :
    (key, entries) ∈ t.sections ↔ (key, tree entries) ∈ t := by
  have hmem : (key, entries) ∈ t.sections ↔
      (key, tree entries) ∈ t.sections.map fun e => (e.1, tree e.2) := by
    simp
  rw [hmem, map_sections]
  simp

/-- Where each key stands once, the sections are what is found under their keys. -/
theorem section?_eq_some_iff_mem (distinct : t.keys.Nodup) {key : String}
    {entries : SettingsTree} : t.section? key = some entries ↔ (key, entries) ∈ t.sections := by
  rw [section?_eq_some_iff, mem_sections_iff]
  exact Entries.lookup_eq_some_iff_mem distinct

/-- A value is read as a tree exactly where it is an object, and a failure names its kind. What is
read from a value is the tree with that value, and the value of a tree is read as the tree, keys in
their order at every level. The sections and the scalars of a tree are its entries, both in their
order and none of them lost, and a section is found under each of their keys and under no other. -/
theorem trees_correspond_to_objects :
    (∀ value : Json, value.UniqueKeys →
      (∀ failure, read value = .error failure ↔
        value.kind ≠ .object ∧ failure = .notAnObject "settings document" value.kind) ∧
      (value.kind = .object →
        ∃ t : SettingsTree, read value = .ok t ∧ (tree t).UniqueKeys ∧ t.toJson = value) ∧
      ∀ text, Json.parse text = .ok value → parse text = read value) ∧
    (∀ t : SettingsTree, (tree t).UniqueKeys → t.toJson.UniqueKeys ∧ read t.toJson = .ok t) ∧
    ∀ t : SettingsTree, (tree t).UniqueKeys →
      (t.sections.map fun e => (e.1, tree e.2)).Sublist t ∧
      t.scalars.Sublist t ∧ (∀ e ∈ t.scalars, e.2.isTree = false) ∧
      ((t.sections.map fun e => (e.1, tree e.2)) ++ t.scalars).Perm t ∧
      ∀ key entries, t.section? key = some entries ↔ (key, entries) ∈ t.sections := by
  refine ⟨fun value hkeys => ⟨fun failure => read_eq_error_iff, fun hkind => ?_, ?_⟩,
    fun t hkeys => ⟨uniqueKeys_toJson hkeys, read_eq_ok_iff.2 rfl⟩, fun t hkeys => ?_⟩
  · cases hread : read value with
    | error failure => exact absurd hkind (read_eq_error_iff.1 hread).1
    | ok t =>
        have hvalue := read_eq_ok_iff.1 hread
        exact ⟨t, rfl, uniqueKeys_toJson_iff.1 (by rwa [← hvalue] at hkeys), hvalue⟩
  · exact fun text htext => parse_of_uniqueKeys htext hkeys
  · rw [map_sections]
    refine ⟨List.filter_sublist, List.filter_sublist, ?_, List.filter_append_perm _ t, ?_⟩
    · intro e he
      simpa using (List.mem_filter.1 he).2
    · exact fun key entries => section?_eq_some_iff_mem (uniqueKeys_tree_iff.1 hkeys).1

def flagsTree : SettingsTree :=
  [("Db", tree [("Flags", .array [.bool true, .object [("Name", .null)]]), ("Host", .string "a")]),
    ("Level", .null), ("Cache", tree [])]

theorem trees_correspond_to_objects_of_flags :
    parse flagsTree.toJson.compact = .ok flagsTree ∧
      read (.array [flagsTree.toJson]) = .error (.settings "in settings document"
        (.notAnObject .array)) ∧
      flagsTree.section? "Cache" = some [] ∧
      ((flagsTree.sections.map fun e => (e.1, tree e.2)) ++ flagsTree.scalars).Perm flagsTree := by
  have hsame : flagsTree.toJson.withUniqueKeys = flagsTree.toJson := by decide +kernel
  have hkeys : flagsTree.toJson.UniqueKeys := hsame ▸ Json.uniqueKeys_withUniqueKeys _
  have hitems : (Json.array [flagsTree.toJson]).UniqueKeys := .array (by simpa using hkeys)
  have htree : (tree flagsTree).UniqueKeys := uniqueKeys_toJson_iff.1 hkeys
  have htext : Json.parse flagsTree.toJson.compact = .ok flagsTree.toJson := by decide +kernel
  obtain ⟨hvalues, htrees, hsections⟩ := trees_correspond_to_objects
  obtain ⟨-, -, -, hperm, hfound⟩ := hsections flagsTree htree
  refine ⟨?_, ?_, (hfound "Cache" []).2 (by simp [flagsTree, sections, asTree?]), hperm⟩
  · rw [(hvalues _ hkeys).2.2 _ htext]
    exact (htrees flagsTree htree).2
  · exact ((hvalues _ hitems).1 _).2 ⟨by decide, rfl⟩

end SettingsTree

end SettingsBinding
