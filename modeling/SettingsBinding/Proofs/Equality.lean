import SettingsBinding.Settings.Tree

/-!
Equality of JSON values and of settings is decided by comparing them part by part.
-/

namespace SettingsBinding

namespace Json

mutual

def same : Json → Json → Bool
  | .null, .null => true
  | .bool a, .bool b => a == b
  | .number a, .number b => a == b
  | .string a, .string b => a == b
  | .array as, .array bs => sameItems as bs
  | .object as, .object bs => sameMembers as bs
  | _, _ => false

def sameItems : List Json → List Json → Bool
  | [], [] => true
  | a :: as, b :: bs => same a b && sameItems as bs
  | _, _ => false

def sameMembers : List (String × Json) → List (String × Json) → Bool
  | [], [] => true
  | (j, a) :: as, (k, b) :: bs => j == k && same a b && sameMembers as bs
  | _, _ => false

end

mutual

theorem same_iff : (a b : Json) → (same a b = true ↔ a = b)
  | .null, b => by cases b <;> simp [same]
  | .bool _, b => by cases b <;> simp [same]
  | .number _, b => by cases b <;> simp [same]
  | .string _, b => by cases b <;> simp [same]
  | .array as, b => by cases b <;> simp [same, sameItems_iff as]
  | .object as, b => by cases b <;> simp [same, sameMembers_iff as]

theorem sameItems_iff : (as bs : List Json) → (sameItems as bs = true ↔ as = bs)
  | [], bs => by cases bs <;> simp [sameItems]
  | a :: as, bs => by cases bs <;> simp [sameItems, same_iff a, sameItems_iff as]

theorem sameMembers_iff : (as bs : List (String × Json)) → (sameMembers as bs = true ↔ as = bs)
  | [], bs => by cases bs <;> simp [sameMembers]
  | (j, a) :: as, bs => by
      rcases bs with _ | ⟨⟨k, b⟩, bs⟩ <;>
        simp [sameMembers, same_iff a, sameMembers_iff as]

end

instance : DecidableEq Json := fun a b => decidable_of_iff _ (same_iff a b)

end Json

namespace Setting

mutual

def same : Setting → Setting → Bool
  | .null, .null => true
  | .bool a, .bool b => a == b
  | .number a, .number b => a == b
  | .string a, .string b => a == b
  | .array as, .array bs => as == bs
  | .tree t, .tree u => sameEntries t u
  | _, _ => false

def sameEntries : SettingsTree → SettingsTree → Bool
  | [], [] => true
  | (j, a) :: t, (k, b) :: u => j == k && same a b && sameEntries t u
  | _, _ => false

end

mutual

theorem same_iff : (a b : Setting) → (same a b = true ↔ a = b)
  | .null, b => by cases b <;> simp [same]
  | .bool _, b => by cases b <;> simp [same]
  | .number _, b => by cases b <;> simp [same]
  | .string _, b => by cases b <;> simp [same]
  | .array _, b => by cases b <;> simp [same]
  | .tree t, b => by cases b <;> simp [same, sameEntries_iff t]

theorem sameEntries_iff : (t u : SettingsTree) → (sameEntries t u = true ↔ t = u)
  | [], u => by cases u <;> simp [sameEntries]
  | (j, a) :: t, u => by
      rcases u with _ | ⟨⟨k, b⟩, u⟩ <;> simp [sameEntries, same_iff a, sameEntries_iff t]

end

instance : DecidableEq Setting := fun a b => decidable_of_iff _ (same_iff a b)

end Setting

end SettingsBinding
