import SettingsBinding.Model.Reader
import SettingsBinding.Proofs.Json.Printed
import SettingsBinding.Proofs.Model.Decoding

/-!
Readers of printed records. A reader undoes the writing of a value if it gives the same result for
the text of the value whatever stands behind it. The readers of arrays and of records undo it where
the readers of their elements and fields do, since the elements are read one behind the other and
the fields come in the order in which they are written, each of them once.
-/

namespace SettingsBinding

namespace Json

variable {rest : List Char}

def lead (first : Bool) : List Char := if first then [] else [',']

def itemsText (first : Bool) (level : Nat) : List Json → List Char
  | [] => []
  | item :: items => lead first ++ (print .compact level item ++ itemsText false level items)

def membersText (first : Bool) (level : Nat) : List (String × Json) → List Char
  | [] => []
  | (key, value) :: members =>
    lead first ++ ('"' :: (stringTail key ++
      (':' :: (print .compact level value ++ membersText false level members))))

theorem printItems_compact (level : Nat) (items : List Json) :
    printItems .compact level items = itemsText false level items := by
  induction items with
  | nil => rfl
  | cons item items ih =>
      rw [printItems, itemsText, ih]
      simp [Style.lineBreak, lead]

theorem printMembers_compact (level : Nat) (members : List (String × Json)) :
    printMembers .compact level members = membersText false level members := by
  induction members with
  | nil => rfl
  | cons m members ih =>
      rcases m with ⟨key, value⟩
      rw [printMembers, membersText, ih]
      simp [Style.lineBreak, Style.separator, stringChars_eq, lead]

theorem print_array_compact (level : Nat) (items : List Json) :
    print .compact level (.array items) = '[' :: (itemsText true (level + 1) items ++ [']']) := by
  cases items with
  | nil => rfl
  | cons item items =>
      rw [print, itemsText, printItems_compact]
      simp [Style.lineBreak, lead]

theorem print_object_compact (level : Nat) (members : List (String × Json)) :
    print .compact level (.object members) =
      '\x7b' :: (membersText true (level + 1) members ++ ['\x7d']) := by
  rcases members with _ | ⟨⟨key, value⟩, members⟩
  · rfl
  · rw [print, membersText, printMembers_compact]
    simp [Style.lineBreak, Style.separator, stringChars_eq, lead]

theorem nextItem?_lead (first : Bool) {c : Char} (hc : isBlank c = false) (hclose : c ≠ ']') :
    nextItem? first (lead first ++ c :: rest) = .ok (some (c :: rest)) := by
  cases first with
  | true => exact nextItem?_first (List.forall_mem_nil _) hc hclose
  | false => exact nextItem?_comma (List.forall_mem_nil _) hc hclose

theorem nextKey?_lead (first : Bool) (rest : List Char) :
    nextKey? first (lead first ++ '"' :: rest) = .ok (some rest) := by
  cases first with
  | true => exact nextKey?_first (List.forall_mem_nil _)
  | false => exact nextKey?_comma (List.forall_mem_nil _)

end Json

namespace Model

open Json (Fault print stringTail itemsText membersText)

variable {α ε σ : Type} {room depth count : Nat} {value : Json} {a : α} {rest : List Char}

@[simp] theorem inside_ok (a : α) : inside (.ok a) = .ok a := rfl

@[simp] theorem insideJson_ok (a : α) : insideJson (.ok a) = .ok a := rfl

/-- The text of the value is read as `a`, whatever stands behind it, where there is room for it. -/
def Reads (room : Nat) (read : List Char → Except ε (α × List Char)) (value : Json) (a : α) :
    Prop :=
  ∀ level rest, (print .compact level value).length ≤ room →
    read (print .compact level value ++ rest) = .ok (a, rest)

theorem Reads.inside {read : List Char → Except (Fault Problem) (α × List Char)}
    (h : Reads room read value a) : Reads room (fun cs => inside (read cs)) value a :=
  fun level rest hroom => congrArg Model.inside (h level rest hroom)

theorem reads_text (room : Nat) (expected s : String) :
    Reads room (readText room expected) (.string s) s := by
  intro level rest hroom
  rw [print, Json.stringChars_eq, List.length_cons] at hroom
  rw [print, Json.stringChars_eq, List.cons_append, readText,
    Json.skipBlank_cons_of_not_isBlank rfl]
  exact congrArg ofJsonStep (Json.readString_stringTail s rest (Nat.le_of_succ_le hroom))

/-! ### Arrays -/

section

variable {readItem : List Char → Except Stop (α × List Char)} {toJson : α → Json}

theorem readElements_itemsText (hobject : ∀ a, ∃ members, toJson a = .object members)
    (items : List α) (hitems : ∀ a ∈ items, Reads room readItem (toJson a) a) (first : Bool)
    (level : Nat) (hcount : (itemsText first level (items.map toJson)).length < count)
    (hroom : count ≤ room) (rest : List Char) :
    readElements readItem count first (itemsText first level (items.map toJson) ++ ']' :: rest) =
      .ok (items, ']' :: rest) := by
  induction items generalizing first count with
  | nil =>
      obtain ⟨count, rfl⟩ : ∃ left, count = left + 1 := ⟨count - 1, by omega⟩
      have hnext : Json.nextItem? first (']' :: rest) = .ok none :=
        Json.nextItem?_close (List.forall_mem_nil _) first
      rw [List.map_nil, itemsText, List.nil_append, readElements, hnext]
      rfl
  | cons a items ih =>
      rw [List.forall_mem_cons] at hitems
      rw [List.map_cons, itemsText, List.length_append, List.length_append] at hcount
      obtain ⟨count, rfl⟩ : ∃ left, count = left + 1 := ⟨count - 1, by omega⟩
      have hpositive : 0 < (print .compact level (toJson a)).length := by
        obtain ⟨members, hmembers⟩ := hobject a
        rw [hmembers, Json.print_object_compact]
        exact Nat.succ_pos _
      have hitem := hitems.1 level (itemsText false level (items.map toJson) ++ ']' :: rest)
        (by omega)
      have hothers := ih hitems.2 false (by omega) (Nat.le_of_succ_le hroom)
      have hnext : Json.nextItem? first (Json.lead first ++ (print .compact level (toJson a) ++
          (itemsText false level (items.map toJson) ++ ']' :: rest))) =
          .ok (some (print .compact level (toJson a) ++
            (itemsText false level (items.map toJson) ++ ']' :: rest))) := by
        obtain ⟨members, hmembers⟩ := hobject a
        rw [hmembers, Json.print_object_compact]
        exact Json.nextItem?_lead first rfl (by decide)
      simp only [List.map_cons, itemsText, List.append_assoc, readElements, hnext, insideJson_ok,
        Steps.ok_bind, hitem, hothers]
      rfl

theorem readArray_bracket (hdepth : 0 < depth) (cs : List Char) :
    readArray room depth readItem ('[' :: cs) = endArray (readElements readItem room true cs) := by
  rw [readArray, Json.skipBlank_cons_of_not_isBlank rfl]
  exact if_neg (Nat.ne_of_gt hdepth)

theorem endArray_close (a : α) (rest : List Char) :
    endArray (.ok (a, ']' :: rest)) = .ok (a, rest) := by
  have hclose : Json.closeArray (']' :: rest) = .ok rest :=
    Json.closeArray_append (List.forall_mem_nil _)
  rw [endArray, hclose]
  rfl

theorem reads_array (hobject : ∀ a, ∃ members, toJson a = .object members) (hdepth : 0 < depth)
    (items : List α) (hitems : ∀ a ∈ items, Reads room readItem (toJson a) a) :
    Reads room (readArray room depth readItem) (.array (items.map toJson)) items := by
  intro level rest hroom
  rw [Json.print_array_compact, List.length_cons, List.length_append] at hroom
  have helements := readElements_itemsText hobject items hitems true (level + 1)
    (Nat.lt_of_lt_of_le (Nat.lt_succ_of_le (Nat.le_add_right _ _)) hroom) (Nat.le_refl room) rest
  rw [Json.print_array_compact, List.cons_append, List.append_assoc, List.singleton_append,
    readArray_bracket hdepth, helements, endArray_close]

end

/-! ### Records -/

section

variable {readField : String → Option (σ → List Char → Except (Fault Problem) (σ × List Char))}
  {seen : List String} {state state' final : σ} {members : List (String × Json)}

/-- The members set fields that are known and not seen before, from a first state to a last one. -/
inductive ReadsFields (room : Nat)
    (readField : String → Option (σ → List Char → Except (Fault Problem) (σ × List Char))) :
    List String → σ → List (String × Json) → σ → Prop
  | nil (seen : List String) (state : σ) : ReadsFields room readField seen state [] state
  | cons {seen : List String} {state state' final : σ} {key : String} {value : Json}
      {members : List (String × Json)}
      {read : σ → List Char → Except (Fault Problem) (σ × List Char)}
      (hread : readField key = some read) (hfresh : key ∉ seen)
      (hvalue : Reads room (read state) value state')
      (hrest : ReadsFields room readField (key :: seen) state' members final) :
      ReadsFields room readField seen state ((key, value) :: members) final

theorem readFields_membersText (h : ReadsFields room readField seen state members final)
    (first : Bool) (level : Nat) (hcount : (membersText first level members).length < count)
    (hroom : count ≤ room) (rest : List Char) :
    readFields readField room count seen first state
      (membersText first level members ++ '\x7d' :: rest) = .ok (final, '\x7d' :: rest) := by
  induction h generalizing first count with
  | nil seen state =>
      obtain ⟨count, rfl⟩ : ∃ left, count = left + 1 := ⟨count - 1, by omega⟩
      have hnext : Json.nextKey? first ('\x7d' :: rest) = .ok none :=
        Json.nextKey?_close (List.forall_mem_nil _) first
      rw [membersText, List.nil_append, readFields, hnext]
      rfl
  | @cons seen state state' final key value members read hread hfresh hvalue hrest ih =>
      simp only [membersText, List.length_append, List.length_cons] at hcount
      obtain ⟨count, rfl⟩ : ∃ left, count = left + 1 := ⟨count - 1, by omega⟩
      have hkey (behind : List Char) :
          Json.readString room (stringTail key ++ behind) = .ok (key, behind) :=
        Json.readString_stringTail key behind (by omega)
      have hvalue := hvalue level (membersText false level members ++ '\x7d' :: rest) (by omega)
      have hothers := ih false (by omega) (Nat.le_of_succ_le hroom)
      simp only [membersText, List.append_assoc, List.cons_append, readFields,
        Json.nextKey?_lead, insideJson_ok, Steps.ok_bind, hkey, hread, if_neg hfresh,
        Json.readColon_cons, hvalue, inside_ok, hothers]

end

section

variable {ofElements ofMembers : List Char → Except Stop (α × List Char)} {expected : String}

theorem readRecord_brace (hdepth : 0 < depth) (cs : List Char) :
    readRecord room depth expected ofElements ofMembers ('\x7b' :: cs) =
      endObject (ofMembers cs) := by
  rw [readRecord, Json.skipBlank_cons_of_not_isBlank rfl]
  exact if_neg (Nat.ne_of_gt hdepth)

theorem endObject_close (a : α) (rest : List Char) :
    endObject (.ok (a, '\x7d' :: rest)) = .ok (a, rest) := by
  have hclose : Json.closeObject ('\x7d' :: rest) = .ok rest :=
    Json.closeObject_append (List.forall_mem_nil _)
  rw [endObject, hclose]
  rfl

theorem reads_record {members : List (String × Json)} (hdepth : 0 < depth)
    (h : ∀ level rest, (membersText true level members).length < room →
      ofMembers (membersText true level members ++ '\x7d' :: rest) = .ok (a, '\x7d' :: rest)) :
    Reads room (readRecord room depth expected ofElements ofMembers) (.object members) a := by
  intro level rest hroom
  rw [Json.print_object_compact, List.length_cons, List.length_append] at hroom
  have hmembers := h (level + 1) rest
    (Nat.lt_of_lt_of_le (Nat.lt_succ_of_le (Nat.le_add_right _ _)) hroom)
  rw [Json.print_object_compact, List.cons_append, List.append_assoc, List.singleton_append,
    readRecord_brace hdepth, hmembers, endObject_close]

end

/-! ### Tagged records -/

theorem reads_tag (room : Nat) (member : Member) :
    Reads room (readTag room) (.string member.tag) member.kind := by
  intro level rest hroom
  rw [readTag, reads_text room "variant identifier" member.tag level rest hroom, Steps.ok_bind]
  simp only [member.lookup_tag]
  rfl

theorem readTaggedMembers_membersText (kind : MemberKind) (members : List (String × Json))
    (hkeys : "kind" ∉ Json.keys members) (hnumbers : ∀ n ∈ Json.membersNumbers members, n.IsWord)
    (hdepth : Json.membersDepth members ≤ depth) (first : Bool) (level count : Nat)
    (hcount : (membersText first level members).length < count) (hroom : count ≤ room)
    (rest : List Char) :
    readTaggedMembers room depth count (some kind) first
      (membersText first level members ++ '\x7d' :: rest) =
        .ok ((kind, members), '\x7d' :: rest) := by
  induction members generalizing first count with
  | nil =>
      obtain ⟨count, rfl⟩ : ∃ left, count = left + 1 := ⟨count - 1, by omega⟩
      have hnext : Json.nextKey? first ('\x7d' :: rest) = .ok none :=
        Json.nextKey?_close (List.forall_mem_nil _) first
      rw [membersText, List.nil_append, readTaggedMembers, hnext]
      rfl
  | cons m members ih =>
      rcases m with ⟨key, value⟩
      rw [Json.keys, List.map_cons, List.mem_cons, not_or] at hkeys
      rw [Json.membersNumbers, List.forall_mem_append] at hnumbers
      rw [Json.membersDepth, Nat.max_le] at hdepth
      simp only [membersText, List.length_append, List.length_cons] at hcount
      obtain ⟨count, rfl⟩ : ∃ left, count = left + 1 := ⟨count - 1, by omega⟩
      have hkey (behind : List Char) :
          Json.readString room (stringTail key ++ behind) = .ok (key, behind) :=
        Json.readString_stringTail key behind (by omega)
      -- A number is read up to what cannot go on with it, which a comma or the brace is.
      have hends : Json.EndsValue (membersText false level members ++ '\x7d' :: rest) := by
        rw [← Json.printMembers_compact]
        exact Json.endsValue_printMembers .compact level members (List.forall_mem_nil _) rest
      have hvalue := Json.readValue_print .compact value hnumbers.1 level room hdepth.1 (by omega)
        hends
      have hothers := ih hkeys.2 hnumbers.2 hdepth.2 false count (by omega)
        (Nat.le_of_succ_le hroom)
      simp only [membersText, List.append_assoc, List.cons_append, readTaggedMembers,
        Json.nextKey?_lead, insideJson_ok, Steps.ok_bind, hkey, if_neg (Ne.symm hkeys.1),
        Json.readColon_cons, hvalue, hothers]
      rfl

end Model

end SettingsBinding
