import SettingsBinding.Json.Reader
import SettingsBinding.Proofs.Settings.UniqueKeys
import SettingsBinding.Proofs.Steps

/-!
How deep a value nests, and which numbers it holds. A text is read only where it nests within the
limit, and dropping the earlier members of a key makes nothing deeper.
-/

namespace SettingsBinding.Json

mutual

/-- The greatest number of brackets that are open at a time in the text of a value. -/
def depth : Json → Nat
  | .array items => itemsDepth items + 1
  | .object members => membersDepth members + 1
  | _ => 0

def itemsDepth : List Json → Nat
  | [] => 0
  | item :: rest => max item.depth (itemsDepth rest)

def membersDepth : List (String × Json) → Nat
  | [] => 0
  | (_, value) :: rest => max value.depth (membersDepth rest)

end

mutual

def numbers : Json → List JsonNumber
  | .number n => [n]
  | .array items => itemsNumbers items
  | .object members => membersNumbers members
  | _ => []

def itemsNumbers : List Json → List JsonNumber
  | [] => []
  | item :: rest => item.numbers ++ itemsNumbers rest

def membersNumbers : List (String × Json) → List JsonNumber
  | [] => []
  | (_, value) :: rest => value.numbers ++ membersNumbers rest

end

variable {items : List Json} {members : List (String × Json)} {n : Nat}

theorem itemsDepth_le_iff : itemsDepth items ≤ n ↔ ∀ item ∈ items, item.depth ≤ n := by
  induction items with
  | nil => simp [itemsDepth]
  | cons item rest ih => rw [itemsDepth, Nat.max_le, ih, List.forall_mem_cons]

theorem membersDepth_le_iff : membersDepth members ≤ n ↔ ∀ m ∈ members, m.2.depth ≤ n := by
  induction members with
  | nil => simp [membersDepth]
  | cons m rest ih => rw [membersDepth, Nat.max_le, ih, List.forall_mem_cons]

theorem depth_array_le_iff : (array items).depth ≤ n + 1 ↔ ∀ item ∈ items, item.depth ≤ n := by
  rw [depth, Nat.succ_le_succ_iff, itemsDepth_le_iff]

theorem depth_object_le_iff : (object members).depth ≤ n + 1 ↔ ∀ m ∈ members, m.2.depth ≤ n := by
  rw [depth, Nat.succ_le_succ_iff, membersDepth_le_iff]

@[simp] theorem itemsNumbers_eq_flatMap (items : List Json) :
    itemsNumbers items = items.flatMap numbers := by
  induction items with
  | nil => rfl
  | cons item rest ih => rw [itemsNumbers, ih, List.flatMap_cons]

@[simp] theorem membersNumbers_eq_flatMap (members : List (String × Json)) :
    membersNumbers members = members.flatMap fun m => m.2.numbers := by
  induction members with
  | nil => rfl
  | cons m rest ih => rw [membersNumbers, ih, List.flatMap_cons]

/-! ### The limit of the reader -/

section

variable {readItem : List Char → Except (Fault Problem) (Json × List Char)} {P : Json → Prop}
  {room : Nat} {first : Bool} {cs rest : List Char}

theorem readItems_eq_ok_iff :
    readItems readItem (room + 1) first cs = .ok (items, rest) ↔
      nextItem? first cs = .ok none ∧ closeArray cs = .ok rest ∧ items = [] ∨
      ∃ start item middle others, nextItem? first cs = .ok (some start) ∧
        readItem start = .ok (item, middle) ∧
        readItems readItem room false middle = .ok (others, rest) ∧ items = item :: others := by
  rw [readItems, Steps.bind_eq_ok_iff]
  constructor
  · rintro ⟨_ | start, hnext, hread⟩
    · obtain ⟨_, hclose, ⟨⟩⟩ := Steps.bind_eq_ok_iff.1 hread
      exact .inl ⟨hnext, hclose, rfl⟩
    · obtain ⟨⟨item, middle⟩, hitem, hread⟩ := Steps.bind_eq_ok_iff.1 hread
      obtain ⟨⟨others, _⟩, hothers, ⟨⟩⟩ := Steps.bind_eq_ok_iff.1 hread
      exact .inr ⟨start, item, middle, others, hnext, hitem, hothers, rfl⟩
  · rintro (⟨hnext, hclose, rfl⟩ | ⟨start, item, middle, others, hnext, hitem, hothers, rfl⟩)
    · exact ⟨none, hnext, Steps.bind_eq_ok_iff.2 ⟨_, hclose, rfl⟩⟩
    · exact ⟨some start, hnext, Steps.bind_eq_ok_iff.2 ⟨_, hitem,
        Steps.bind_eq_ok_iff.2 ⟨_, hothers, rfl⟩⟩⟩

theorem readMembers_eq_ok_iff {textRoom : Nat} :
    readMembers textRoom readItem (room + 1) first cs = .ok (members, rest) ↔
      nextKey? first cs = .ok none ∧ closeObject cs = .ok rest ∧ members = [] ∨
      ∃ start key behindKey behindColon value middle others,
        nextKey? first cs = .ok (some start) ∧
        readString textRoom start = .ok (key, behindKey) ∧
        readColon behindKey = .ok behindColon ∧ readItem behindColon = .ok (value, middle) ∧
        readMembers textRoom readItem room false middle = .ok (others, rest) ∧
        members = (key, value) :: others := by
  rw [readMembers, Steps.bind_eq_ok_iff]
  constructor
  · rintro ⟨_ | start, hnext, hread⟩
    · obtain ⟨_, hclose, ⟨⟩⟩ := Steps.bind_eq_ok_iff.1 hread
      exact .inl ⟨hnext, hclose, rfl⟩
    · obtain ⟨⟨key, behindKey⟩, hkey, hread⟩ := Steps.bind_eq_ok_iff.1 hread
      obtain ⟨behindColon, hcolon, hread⟩ := Steps.bind_eq_ok_iff.1 hread
      obtain ⟨⟨value, middle⟩, hvalue, hread⟩ := Steps.bind_eq_ok_iff.1 hread
      obtain ⟨⟨others, _⟩, hothers, ⟨⟩⟩ := Steps.bind_eq_ok_iff.1 hread
      exact .inr ⟨start, key, behindKey, behindColon, value, middle, others, hnext, hkey, hcolon,
        hvalue, hothers, rfl⟩
  · rintro (⟨hnext, hclose, rfl⟩ | ⟨start, key, behindKey, behindColon, value, middle, others,
      hnext, hkey, hcolon, hvalue, hothers, rfl⟩)
    · exact ⟨none, hnext, Steps.bind_eq_ok_iff.2 ⟨_, hclose, rfl⟩⟩
    · exact ⟨some start, hnext, Steps.bind_eq_ok_iff.2 ⟨_, hkey, Steps.bind_eq_ok_iff.2 ⟨_, hcolon,
        Steps.bind_eq_ok_iff.2 ⟨_, hvalue, Steps.bind_eq_ok_iff.2 ⟨_, hothers, rfl⟩⟩⟩⟩⟩

/-- What holds of every value that is read holds of the items of an array. -/
theorem forall_mem_of_readItems
    (hitem : ∀ cs value rest, readItem cs = .ok (value, rest) → P value)
    (h : readItems readItem room first cs = .ok (items, rest)) : ∀ item ∈ items, P item := by
  induction room generalizing first cs items with
  | zero => cases h
  | succ room ih =>
      rcases readItems_eq_ok_iff.1 h with
        ⟨-, -, rfl⟩ | ⟨start, item, middle, others, -, hread, hothers, rfl⟩
      · exact nofun
      · exact List.forall_mem_cons.2 ⟨hitem _ _ _ hread, ih hothers⟩

/-- What holds of every value that is read holds of the values in an object. -/
theorem forall_mem_of_readMembers {textRoom : Nat}
    (hitem : ∀ cs value rest, readItem cs = .ok (value, rest) → P value)
    (h : readMembers textRoom readItem room first cs = .ok (members, rest)) :
    ∀ m ∈ members, P m.2 := by
  induction room generalizing first cs members with
  | zero => cases h
  | succ room ih =>
      rcases readMembers_eq_ok_iff.1 h with
        ⟨-, -, rfl⟩ | ⟨start, key, behindKey, behindColon, value, middle, others, -, -, -, hread,
          hothers, rfl⟩
      · exact nofun
      · exact List.forall_mem_cons.2 ⟨hitem _ _ _ hread, ih hothers⟩

end

/-- A value that is read has no brackets, or its items or members are read with one bracket less to
spare. -/
theorem readValue_cases {room limit : Nat} {cs rest : List Char} {value : Json}
    (h : readValue room limit cs = .ok (value, rest)) :
    value.depth = 0 ∨
      ∃ left, limit = left + 1 ∧
        ((∃ start items, readItems (readValue room left) room true start = .ok (items, rest) ∧
            value = array items) ∨
          ∃ start members, readMembers room (readValue room left) room true start =
            .ok (members, rest) ∧ value = object members) := by
  unfold readValue at h
  split at h
  · cases h
  · obtain ⟨_, -, ⟨⟩⟩ := Steps.bind_eq_ok_iff.1 h
    exact .inl rfl
  · obtain ⟨_, -, ⟨⟩⟩ := Steps.bind_eq_ok_iff.1 h
    exact .inl rfl
  · obtain ⟨_, -, ⟨⟩⟩ := Steps.bind_eq_ok_iff.1 h
    exact .inl rfl
  · obtain ⟨_, -, ⟨⟩⟩ := Steps.bind_eq_ok_iff.1 h
    exact .inl rfl
  · obtain ⟨_, -, ⟨⟩⟩ := Steps.bind_eq_ok_iff.1 h
    exact .inl rfl
  · next start _ =>
      cases limit with
      | zero => cases h
      | succ left =>
          obtain ⟨⟨items, _⟩, hitems, ⟨⟩⟩ := Steps.bind_eq_ok_iff.1 h
          exact .inr ⟨left, rfl, .inl ⟨start, items, hitems, rfl⟩⟩
  · next start _ =>
      cases limit with
      | zero => cases h
      | succ left =>
          obtain ⟨⟨members, _⟩, hmembers, ⟨⟩⟩ := Steps.bind_eq_ok_iff.1 h
          exact .inr ⟨left, rfl, .inr ⟨start, members, hmembers, rfl⟩⟩
  · split at h
    · obtain ⟨_, -, ⟨⟩⟩ := Steps.bind_eq_ok_iff.1 h
      exact .inl rfl
    · cases h

/-- No more brackets are open at a time than the reader has room for. -/
theorem depth_le_of_readValue {room limit : Nat} {cs rest : List Char} {value : Json}
    (h : readValue room limit cs = .ok (value, rest)) : value.depth ≤ limit := by
  induction limit generalizing cs value rest with
  | zero =>
      rcases readValue_cases h with hscalar | ⟨left, hleft, -⟩
      · exact Nat.le_of_eq hscalar
      · cases hleft
  | succ limit ih =>
      rcases readValue_cases h with hscalar | ⟨left, hleft, ⟨start, items, hitems, rfl⟩ |
        ⟨start, members, hmembers, rfl⟩⟩
      · rw [hscalar]
        exact Nat.zero_le _
      · cases hleft
        exact depth_array_le_iff.2 (forall_mem_of_readItems (fun _ _ _ => ih) hitems)
      · cases hleft
        exact depth_object_le_iff.2 (forall_mem_of_readMembers (fun _ _ _ => ih) hmembers)

theorem read_eq_ok_iff {cs : List Char} {value : Json} :
    read cs = .ok value ↔
      ∃ rest, readValue (roomFor cs) depthLimit cs = .ok (value, rest) ∧ readEnd rest = .ok () := by
  rw [read, Steps.bind_eq_ok_iff]
  constructor
  · rintro ⟨⟨_, rest⟩, hvalue, hread⟩
    obtain ⟨_, hend, ⟨⟩⟩ := Steps.bind_eq_ok_iff.1 hread
    exact ⟨rest, hvalue, hend⟩
  · rintro ⟨rest, hvalue, hend⟩
    exact ⟨_, hvalue, Steps.bind_eq_ok_iff.2 ⟨_, hend, rfl⟩⟩

theorem parse_eq_ok_iff {text : String} {value : Json} :
    parse text = .ok value ↔ read text.toList = .ok value := by
  rw [parse, Steps.mapError_eq_ok_iff]

/-- What is read nests within the limit. -/
theorem depth_le_of_parse {text : String} {value : Json} (h : parse text = .ok value) :
    value.depth ≤ depthLimit := by
  obtain ⟨rest, hvalue, -⟩ := read_eq_ok_iff.1 (parse_eq_ok_iff.1 h)
  exact depth_le_of_readValue hvalue

/-! ### Dropping the earlier members of a key -/

mutual

theorem depth_withUniqueKeys_le : (value : Json) → value.withUniqueKeys.depth ≤ value.depth
  | .null | .bool _ | .number _ | .string _ => Nat.le_refl _
  | .array items => by
      rw [withUniqueKeys, depth, depth, Nat.succ_le_succ_iff, itemsDepth_le_iff]
      exact depth_itemsWithUniqueKeys_le items
  | .object members => by
      rw [withUniqueKeys, depth, depth, Nat.succ_le_succ_iff, membersDepth_le_iff]
      exact (lastValues_invariant (fun value : Json => value.depth ≤ membersDepth members) _
        (depth_membersWithUniqueKeys_le members)).2

theorem depth_itemsWithUniqueKeys_le :
    (items : List Json) → ∀ item ∈ itemsWithUniqueKeys items, item.depth ≤ itemsDepth items
  | [] => nofun
  | item :: rest => by
      rw [itemsWithUniqueKeys, itemsDepth, List.forall_mem_cons]
      refine ⟨Nat.le_trans (depth_withUniqueKeys_le item) (Nat.le_max_left _ _), fun other h => ?_⟩
      exact Nat.le_trans (depth_itemsWithUniqueKeys_le rest other h) (Nat.le_max_right _ _)

theorem depth_membersWithUniqueKeys_le :
    (members : List (String × Json)) →
      ∀ m ∈ membersWithUniqueKeys members, m.2.depth ≤ membersDepth members
  | [] => nofun
  | (key, value) :: rest => by
      rw [membersWithUniqueKeys, membersDepth, List.forall_mem_cons]
      refine ⟨Nat.le_trans (depth_withUniqueKeys_le value) (Nat.le_max_left _ _), fun m h => ?_⟩
      exact Nat.le_trans (depth_membersWithUniqueKeys_le rest m h) (Nat.le_max_right _ _)

end

end SettingsBinding.Json
