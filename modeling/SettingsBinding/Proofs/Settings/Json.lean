import SettingsBinding.Proofs.Settings.Documents
import SettingsBinding.Proofs.Settings.KeyPath

/-!
Settings and the JSON values that they stand for. The JSON value of a setting gives back the value
that was read, and a path leads to the same place in both: it goes through objects only, so what is
inside an array is never split up.
-/

namespace SettingsBinding

namespace Json

def members? : Json → Option (List (String × Json))
  | .object members => some members
  | _ => none

/-- The value at the end of a path through objects, if the path leads to one. -/
def at? : Json → List String → Option Json
  | value, [] => some value
  | value, key :: path => (value.members?.bind (·.lookup key)).bind fun member => at? member path

end Json

namespace Setting

mutual

theorem toJson_ofJson : (value : Json) → (ofJson value).toJson = value
  | .null | .bool _ | .number _ | .string _ | .array _ => rfl
  | .object members => by rw [ofJson, toJson, entriesToJson_entriesOfJson members]

theorem entriesToJson_entriesOfJson :
    (members : List (String × Json)) → entriesToJson (entriesOfJson members) = members
  | [] => rfl
  | (key, value) :: rest => by
      rw [entriesOfJson, entriesToJson, toJson_ofJson value, entriesToJson_entriesOfJson rest]

end

theorem asTree?_ofJson (value : Json) :
    (ofJson value).asTree? = value.members?.map fun members =>
      members.map fun m => (m.1, ofJson m.2) := by
  cases value with
  | object members => rw [ofJson, entriesOfJson_eq_map]; rfl
  | _ => rfl

theorem at?_ofJson (value : Json) (path : List String) :
    (ofJson value).at? path = (value.at? path).map ofJson := by
  induction path generalizing value with
  | nil => rfl
  | cons key path ih =>
      rw [at?, Json.at?, asTree?_ofJson]
      cases value.members? with
      | none => rfl
      | some members =>
          simp only [Option.map_some, Option.bind_some, SettingsTree.get?,
            Entries.lookup_map_values fun _ => ofJson]
          cases members.lookup key with
          | none => rfl
          | some member => exact ih member

end Setting

namespace SettingsDocument

/-- The text of a document has the value at the end of a path. Of a key that stands twice in an
object, the last value counts. -/
def WritesAt (d : SettingsDocument) (path : List String) (value : Json) : Prop :=
  ∃ written, Json.parse d.text = .ok written ∧ written.withUniqueKeys.at? path = some value

/-- What the tree of a document holds at the end of a path is what its text has there. -/
theorem writesAt_of_tree? {d : SettingsDocument} {t : SettingsTree} (h : d.tree? = .ok (some t))
    {path : List String} {value : Setting} (hvalue : (Setting.tree t).at? path = some value) :
    d.WritesAt path value.toJson := by
  obtain ⟨-, hparse⟩ := tree?_eq_ok_some_iff.1 h
  obtain ⟨written, hparse, htree⟩ := SettingsTree.parse_eq_ok_iff.1 hparse
  rw [← htree, Setting.at?_ofJson] at hvalue
  obtain ⟨member, hmember, rfl⟩ := Option.map_eq_some_iff.1 hvalue
  exact ⟨written, hparse, by rw [hmember, Setting.toJson_ofJson]⟩

end SettingsDocument

end SettingsBinding
