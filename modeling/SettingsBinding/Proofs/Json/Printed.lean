import SettingsBinding.Json.Printer
import SettingsBinding.Proofs.Json.Depth
import SettingsBinding.Proofs.Json.Number
import SettingsBinding.Proofs.Json.StringText

/-!
Reading back the values that are written. The text of a value is read as that value, whatever ends
it, if the value nests within the limit and its numbers are integers of 64 bits. The proof goes
through the value and its text side by side; the room of the reader is the length of the text.
-/

namespace SettingsBinding.Json

variable {blanks rest : List Char} {c : Char}

/-! ### Steps of the grammar behind white space -/

theorem skipBlank_append (hblanks : ∀ c ∈ blanks, isBlank c = true) (rest : List Char) :
    skipBlank (blanks ++ rest) = skipBlank rest :=
  List.dropWhile_append_of_pos hblanks

theorem skipBlank_append_cons (hblanks : ∀ c ∈ blanks, isBlank c = true) (hc : isBlank c = false)
    (rest : List Char) : skipBlank (blanks ++ c :: rest) = c :: rest := by
  rw [skipBlank_append hblanks, skipBlank_cons_of_not_isBlank hc]

theorem endsValue_append_cons (hblanks : ∀ c ∈ blanks, isBlank c = true)
    (hc : isSeparator c = true) (rest : List Char) : EndsValue (blanks ++ c :: rest) := by
  cases blanks with
  | nil => exact endsValue_cons hc rest
  | cons b blanks => exact endsValue_cons (isSeparator_of_isBlank (hblanks b List.mem_cons_self)) _

theorem nextItem?_first (hblanks : ∀ c ∈ blanks, isBlank c = true) (hc : isBlank c = false)
    (hclose : c ≠ ']') : nextItem? true (blanks ++ c :: rest) = .ok (some (c :: rest)) := by
  rw [nextItem?, skipBlank_append_cons hblanks hc]
  split
  · contradiction
  · next h => exact absurd (List.cons.inj h).1 hclose
  · next h => rw [if_pos rfl, h]

theorem nextItem?_comma (hblanks : ∀ c ∈ blanks, isBlank c = true) (hc : isBlank c = false)
    (hclose : c ≠ ']') :
    nextItem? false (',' :: (blanks ++ c :: rest)) = .ok (some (c :: rest)) := by
  have hcomma : skipBlank (',' :: (blanks ++ c :: rest)) = ',' :: (blanks ++ c :: rest) :=
    skipBlank_cons_of_not_isBlank rfl _
  simp [nextItem?, hcomma, skipBlank_append_cons hblanks hc, hclose]

theorem nextItem?_close (hblanks : ∀ c ∈ blanks, isBlank c = true) (first : Bool) :
    nextItem? first (blanks ++ ']' :: rest) = .ok none := by
  rw [nextItem?, skipBlank_append_cons hblanks rfl]
  rfl

theorem closeArray_append (hblanks : ∀ c ∈ blanks, isBlank c = true) :
    closeArray (blanks ++ ']' :: rest) = .ok rest := by
  rw [closeArray, skipBlank_append_cons hblanks rfl]
  rfl

theorem nextKey?_first (hblanks : ∀ c ∈ blanks, isBlank c = true) :
    nextKey? true (blanks ++ '"' :: rest) = .ok (some rest) := by
  simp [nextKey?, skipBlank_append_cons hblanks (c := '"') rfl]

theorem nextKey?_comma (hblanks : ∀ c ∈ blanks, isBlank c = true) :
    nextKey? false (',' :: (blanks ++ '"' :: rest)) = .ok (some rest) := by
  have hcomma : skipBlank (',' :: (blanks ++ '"' :: rest)) = ',' :: (blanks ++ '"' :: rest) :=
    skipBlank_cons_of_not_isBlank rfl _
  simp [nextKey?, hcomma, skipBlank_append_cons hblanks (c := '"') rfl]

theorem nextKey?_close (hblanks : ∀ c ∈ blanks, isBlank c = true) (first : Bool) :
    nextKey? first (blanks ++ '\x7d' :: rest) = .ok none := by
  simp [nextKey?, skipBlank_append_cons hblanks (c := '\x7d') rfl]

theorem closeObject_append (hblanks : ∀ c ∈ blanks, isBlank c = true) :
    closeObject (blanks ++ '\x7d' :: rest) = .ok rest := by
  rw [closeObject, skipBlank_append_cons hblanks rfl]
  rfl

theorem readColon_cons (rest : List Char) : readColon (':' :: rest) = .ok rest := by
  rw [readColon, skipBlank_cons_of_not_isBlank rfl]
  rfl

theorem readValue_append (hblanks : ∀ c ∈ blanks, isBlank c = true) (room limit : Nat)
    (rest : List Char) : readValue room limit (blanks ++ rest) = readValue room limit rest := by
  unfold readValue
  rw [skipBlank_append hblanks]

namespace Style

/-- What stands between a key and its value is a colon and white space. -/
theorem separator_eq_cons (style : Style) :
    ∃ blanks, style.separator = ':' :: blanks ∧ ∀ c ∈ blanks, isBlank c = true := by
  cases style
  · exact ⟨[], rfl, nofun⟩
  · exact ⟨[' '], rfl, by simp [isBlank]⟩

end Style

/-! ### Values -/

variable {style : Style} {level room limit : Nat}

theorem not_isBlank_of_isDigit (h : c.isDigit = true) : isBlank c = false ∧ c ≠ ']' := by
  cases hsep : isSeparator c with
  | true =>
      rw [not_isDigit_of_isSeparator hsep] at h
      cases h
  | false =>
      simp only [isSeparator, Bool.or_eq_false_iff, beq_eq_false_iff_ne] at hsep
      exact ⟨hsep.1.1.1, hsep.1.2⟩

theorem toDigits_eq_cons (n : Nat) :
    ∃ c tail, Nat.toDigits 10 n = c :: tail ∧ c.isDigit = true := by
  obtain ⟨c, tail, htext⟩ := List.exists_cons_of_ne_nil (Nat.toDigits_ne_nil (n := n) (b := 10))
  exact ⟨c, tail, htext, JsonNumber.isDigit_of_mem_toDigits (htext ▸ List.mem_cons_self)⟩

theorem print_object_eq_cons (style : Style) (level : Nat) (members : List (String × Json)) :
    ∃ tail, print style level (.object members) = '\x7b' :: tail := by
  rcases members with _ | ⟨⟨key, value⟩, members⟩
  · exact ⟨_, rfl⟩
  · exact ⟨_, rfl⟩

/-- The text of a value starts with neither white space nor a closing bracket. -/
theorem print_eq_cons (style : Style) (level : Nat) {value : Json}
    (h : ∀ n ∈ value.numbers, n.IsWord) :
    ∃ c tail, print style level value = c :: tail ∧ isBlank c = false ∧ c ≠ ']' := by
  cases value with
  | null => exact ⟨'n', _, rfl, rfl, by decide⟩
  | bool b =>
      cases b
      · exact ⟨'f', _, rfl, rfl, by decide⟩
      · exact ⟨'t', _, rfl, rfl, by decide⟩
  | number n =>
      rcases n with (n | n) | x
      · obtain ⟨c, tail, htext, hc⟩ := toDigits_eq_cons n
        exact ⟨c, tail, htext, not_isBlank_of_isDigit hc⟩
      · exact ⟨'-', _, rfl, rfl, by decide⟩
      · cases h _ (List.mem_singleton_self _)
  | string s => exact ⟨'"', _, rfl, rfl, by decide⟩
  | array items =>
      cases items
      · exact ⟨'[', _, rfl, rfl, by decide⟩
      · exact ⟨'[', _, rfl, rfl, by decide⟩
  | object members =>
      obtain ⟨tail, htext⟩ := print_object_eq_cons style level members
      exact ⟨'\x7b', tail, htext, rfl, by decide⟩

theorem nextItem?_print_first (style : Style) (level : Nat) {value : Json}
    (h : ∀ n ∈ value.numbers, n.IsWord) (rest : List Char) :
    nextItem? true (style.lineBreak level ++ (print style level value ++ rest)) =
      .ok (some (print style level value ++ rest)) := by
  obtain ⟨c, tail, htext, hc, hclose⟩ := print_eq_cons style level h
  rw [htext, List.cons_append]
  exact nextItem?_first (style.lineBreak_isBlank level) hc hclose

theorem nextItem?_print_comma (style : Style) (level : Nat) {value : Json}
    (h : ∀ n ∈ value.numbers, n.IsWord) (rest : List Char) :
    nextItem? false (',' :: (style.lineBreak level ++ (print style level value ++ rest))) =
      .ok (some (print style level value ++ rest)) := by
  obtain ⟨c, tail, htext, hc, hclose⟩ := print_eq_cons style level h
  rw [htext, List.cons_append]
  exact nextItem?_comma (style.lineBreak_isBlank level) hc hclose

theorem endsValue_printItems (style : Style) (level : Nat) (items : List Json)
    (hblanks : ∀ c ∈ blanks, isBlank c = true) (rest : List Char) :
    EndsValue (printItems style level items ++ (blanks ++ ']' :: rest)) := by
  cases items with
  | nil => exact endsValue_append_cons hblanks rfl rest
  | cons item items => exact endsValue_cons rfl _

theorem endsValue_printMembers (style : Style) (level : Nat) (members : List (String × Json))
    (hblanks : ∀ c ∈ blanks, isBlank c = true) (rest : List Char) :
    EndsValue (printMembers style level members ++ (blanks ++ '\x7d' :: rest)) := by
  rcases members with _ | ⟨⟨key, value⟩, members⟩
  · exact endsValue_append_cons hblanks rfl rest
  · exact endsValue_cons rfl _

theorem readValue_digit (hc : c.isDigit = true) (rest : List Char) :
    readValue room limit (c :: rest) =
      (JsonNumber.read false (c :: rest) >>= fun read => pure (number read.1, read.2)) := by
  have hne {other : Char} (h : other.isDigit = false) : c ≠ other := by
    rintro rfl
    cases hc.symm.trans h
  unfold readValue
  rw [skipBlank_cons_of_not_isBlank (not_isBlank_of_isDigit hc).1]
  split
  · contradiction
  · next h => exact absurd (List.cons.inj h).1 (hne rfl)
  · next h => exact absurd (List.cons.inj h).1 (hne rfl)
  · next h => exact absurd (List.cons.inj h).1 (hne rfl)
  · next h => exact absurd (List.cons.inj h).1 (hne rfl)
  · next h => exact absurd (List.cons.inj h).1 (hne rfl)
  · next h => exact absurd (List.cons.inj h).1 (hne rfl)
  · next h => exact absurd (List.cons.inj h).1 (hne rfl)
  · next h =>
      cases h
      rw [if_pos hc]

theorem readValue_number {n : JsonNumber} (h : n.IsWord) (hrest : EndsValue rest) :
    readValue room limit (n.chars ++ rest) = .ok (number n, rest) := by
  rcases n with (n | n) | x
  · obtain ⟨c, tail, htext, hc⟩ := toDigits_eq_cons n
    have hread := JsonNumber.read_chars_ofNat h hrest
    change JsonNumber.read false (Nat.toDigits 10 n ++ rest) = _ at hread
    change readValue room limit (Nat.toDigits 10 n ++ rest) = _
    rw [htext, List.cons_append] at hread ⊢
    rw [readValue_digit hc, hread]
    rfl
  · have hread := JsonNumber.read_chars_negSucc h hrest
    change readValue room limit ('-' :: (Nat.toDigits 10 (n + 1) ++ rest)) = _
    unfold readValue
    rw [skipBlank_cons_of_not_isBlank rfl]
    simp only [hread]
    rfl
  · cases h

theorem readValue_null (rest : List Char) :
    readValue room limit ('n' :: 'u' :: 'l' :: 'l' :: rest) = .ok (null, rest) := by
  unfold readValue
  rw [skipBlank_cons_of_not_isBlank rfl]
  rfl

theorem readValue_true (rest : List Char) :
    readValue room limit ('t' :: 'r' :: 'u' :: 'e' :: rest) = .ok (bool true, rest) := by
  unfold readValue
  rw [skipBlank_cons_of_not_isBlank rfl]
  rfl

theorem readValue_false (rest : List Char) :
    readValue room limit ('f' :: 'a' :: 'l' :: 's' :: 'e' :: rest) = .ok (bool false, rest) := by
  unfold readValue
  rw [skipBlank_cons_of_not_isBlank rfl]
  rfl

theorem readValue_quote (room limit : Nat) (rest : List Char) :
    readValue room limit ('"' :: rest) =
      (readString room rest >>= fun read => pure (string read.1, read.2)) := by
  unfold readValue
  rw [skipBlank_cons_of_not_isBlank rfl]
  rfl

theorem readValue_bracket (room limit : Nat) (rest : List Char) :
    readValue room (limit + 1) ('[' :: rest) =
      (readItems (readValue room limit) room true rest >>= fun read =>
        pure (array read.1, read.2)) := by
  unfold readValue
  rw [skipBlank_cons_of_not_isBlank rfl]
  rfl

theorem readValue_brace (room limit : Nat) (rest : List Char) :
    readValue room (limit + 1) ('{' :: rest) =
      (readMembers room (readValue room limit) room true rest >>= fun read =>
        pure (object read.1, read.2)) := by
  unfold readValue
  rw [skipBlank_cons_of_not_isBlank rfl]
  rfl

theorem readValue_array_nil (hlimit : 0 < limit) (hroom : 0 < room) (rest : List Char) :
    readValue room limit ('[' :: ']' :: rest) = .ok (array [], rest) := by
  obtain ⟨limit, rfl⟩ : ∃ left, limit = left + 1 := ⟨limit - 1, by omega⟩
  obtain ⟨room, rfl⟩ : ∃ left, room = left + 1 := ⟨room - 1, by omega⟩
  have hitems : readItems (readValue (room + 1) limit) (room + 1) true (']' :: rest) =
      .ok ([], rest) :=
    readItems_eq_ok_iff.2 (.inl
      ⟨nextItem?_close (List.forall_mem_nil _) true, closeArray_append (List.forall_mem_nil _),
        rfl⟩)
  rw [readValue_bracket, hitems]
  rfl

theorem readValue_object_nil (hlimit : 0 < limit) (hroom : 0 < room) (rest : List Char) :
    readValue room limit ('\x7b' :: '\x7d' :: rest) = .ok (object [], rest) := by
  obtain ⟨limit, rfl⟩ : ∃ left, limit = left + 1 := ⟨limit - 1, by omega⟩
  obtain ⟨room, rfl⟩ : ∃ left, room = left + 1 := ⟨room - 1, by omega⟩
  have hmembers : readMembers (room + 1) (readValue (room + 1) limit) (room + 1) true
      ('\x7d' :: rest) = .ok ([], rest) :=
    readMembers_eq_ok_iff.2 (.inl
      ⟨nextKey?_close (List.forall_mem_nil _) true, closeObject_append (List.forall_mem_nil _),
        rfl⟩)
  rw [readValue_brace, hmembers]
  rfl

/-- A member is read from the text of its key, what separates the two, and the text of its value. -/
theorem readMembers_cons (style : Style) (key : String) {count : Nat} {first : Bool}
    {cs text middle : List Char} {value : Json} {others : List (String × Json)}
    (hnext : nextKey? first cs = .ok (some (stringTail key ++ (style.separator ++ text))))
    (hkey : (stringTail key).length ≤ room)
    (hvalue : readValue room limit text = .ok (value, middle))
    (hothers : readMembers room (readValue room limit) count false middle = .ok (others, rest)) :
    readMembers room (readValue room limit) (count + 1) first cs =
      .ok ((key, value) :: others, rest) := by
  obtain ⟨blanks, hseparator, hblanks⟩ := style.separator_eq_cons
  have hcolon : readColon (style.separator ++ text) = .ok (blanks ++ text) := by
    rw [hseparator]
    exact readColon_cons _
  rw [← readValue_append hblanks] at hvalue
  exact readMembers_eq_ok_iff.2 (.inr ⟨_, key, _, _, value, middle, others, hnext,
    readString_stringTail key _ hkey, hcolon, hvalue, hothers, rfl⟩)

/-! ### Arrays, objects and what they hold -/

mutual

/-- A value is read from its text, whatever ends it. -/
theorem readValue_print (style : Style) :
    (value : Json) → (∀ n ∈ value.numbers, n.IsWord) → ∀ (level room : Nat) {limit : Nat}
      {rest : List Char}, value.depth ≤ limit → (print style level value).length ≤ room →
      EndsValue rest → readValue room limit (print style level value ++ rest) = .ok (value, rest)
  | .null, _, _, _, _, rest, _, _, _ => readValue_null rest
  | .bool true, _, _, _, _, rest, _, _, _ => readValue_true rest
  | .bool false, _, _, _, _, rest, _, _, _ => readValue_false rest
  | .number n, hnumbers, _, _, _, _, _, _, hrest =>
      readValue_number (hnumbers n (List.mem_singleton_self n)) hrest
  | .string s, _, level, room, limit, rest, _, hroom, _ => by
      rw [print, stringChars_eq, List.length_cons] at hroom
      rw [print, stringChars_eq, List.cons_append, readValue_quote,
        readString_stringTail s rest (Nat.le_of_succ_le hroom)]
      rfl
  | .array [], _, _, _, _, rest, hdepth, hroom, _ =>
      readValue_array_nil (Nat.zero_lt_of_lt hdepth) (Nat.zero_lt_of_lt hroom) rest
  | .array (item :: items), hnumbers, level, room, limit, rest, hdepth, hroom, _ => by
      -- The bracket takes one level of the limit and one character of the room.
      rw [numbers, itemsNumbers, List.forall_mem_append] at hnumbers
      rw [depth, itemsDepth] at hdepth
      simp only [print, List.length_cons, List.length_append, List.length_nil] at hroom
      obtain ⟨limit, rfl⟩ : ∃ left, limit = left + 1 := ⟨limit - 1, by omega⟩
      rw [Nat.succ_le_succ_iff, Nat.max_le] at hdepth
      obtain ⟨room, rfl⟩ : ∃ left, room = left + 1 := ⟨room - 1, by omega⟩
      have hblanks := style.lineBreak_isBlank level
      have hitem := readValue_print style item hnumbers.1 (level + 1) (room + 1)
        hdepth.1 (by omega) (endsValue_printItems style (level + 1) items hblanks rest)
      have hitems := readItems_printItems style items hnumbers.2 (level + 1) (room + 1) room
        hdepth.2 hblanks (by omega) (Nat.le_succ room) rest
      have hnext := nextItem?_print_first style (level + 1) hnumbers.1
        (printItems style (level + 1) items ++ (style.lineBreak level ++ ']' :: rest))
      have hread := readItems_eq_ok_iff.2 (.inr ⟨_, _, _, _, hnext, hitem, hitems, rfl⟩)
      simp only [print, List.cons_append, List.append_assoc, List.nil_append]
      rw [readValue_bracket, hread]
      rfl
  | .object [], _, _, _, _, rest, hdepth, hroom, _ =>
      readValue_object_nil (Nat.zero_lt_of_lt hdepth) (Nat.zero_lt_of_lt hroom) rest
  | .object ((key, value) :: members), hnumbers, level, room, limit, rest, hdepth, hroom, _ => by
      rw [numbers, membersNumbers, List.forall_mem_append] at hnumbers
      rw [depth, membersDepth] at hdepth
      simp only [print, stringChars_eq, List.length_cons, List.length_append,
        List.length_nil] at hroom
      obtain ⟨limit, rfl⟩ : ∃ left, limit = left + 1 := ⟨limit - 1, by omega⟩
      rw [Nat.succ_le_succ_iff, Nat.max_le] at hdepth
      obtain ⟨room, rfl⟩ : ∃ left, room = left + 1 := ⟨room - 1, by omega⟩
      have hblanks := style.lineBreak_isBlank level
      have hvalue := readValue_print style value hnumbers.1 (level + 1) (room + 1)
        hdepth.1 (by omega) (endsValue_printMembers style (level + 1) members hblanks rest)
      have hmembers := readMembers_printMembers style members hnumbers.2 (level + 1) (room + 1) room
        hdepth.2 hblanks (by omega) (Nat.le_succ room) rest
      -- Only the first key stands without a comma; the others are read as the rest is.
      have hread := readMembers_cons style key
        (nextKey?_first (style.lineBreak_isBlank (level + 1))) (by omega) hvalue hmembers
      simp only [print, stringChars_eq, List.cons_append, List.append_assoc, List.nil_append]
      rw [readValue_brace, hread]
      rfl

/-- The items behind the first one are read from their text, up to the closing bracket. -/
theorem readItems_printItems (style : Style) :
    (items : List Json) → (∀ n ∈ itemsNumbers items, n.IsWord) → ∀ (level room count : Nat)
      {limit : Nat} {blanks : List Char}, itemsDepth items ≤ limit →
      (∀ c ∈ blanks, isBlank c = true) →
      (printItems style level items).length < count → count ≤ room → ∀ rest : List Char,
      readItems (readValue room limit) count false
        (printItems style level items ++ (blanks ++ ']' :: rest)) = .ok (items, rest)
  | [], _, level, room, count, limit, blanks, _, hblanks, hcount, _, rest => by
      obtain ⟨count, rfl⟩ : ∃ left, count = left + 1 := ⟨count - 1, by omega⟩
      exact readItems_eq_ok_iff.2
        (.inl ⟨nextItem?_close hblanks false, closeArray_append hblanks, rfl⟩)
  | item :: items, hnumbers, level, room, count, limit, blanks, hdepth, hblanks, hcount, hroom,
      rest => by
      rw [itemsNumbers, List.forall_mem_append] at hnumbers
      rw [itemsDepth, Nat.max_le] at hdepth
      simp only [printItems, List.length_cons, List.length_append] at hcount
      obtain ⟨count, rfl⟩ : ∃ left, count = left + 1 := ⟨count - 1, by omega⟩
      have hitem := readValue_print style item hnumbers.1 level room hdepth.1
        (by omega) (endsValue_printItems style level items hblanks rest)
      have hitems := readItems_printItems style items hnumbers.2 level room count
        hdepth.2 hblanks (by omega) (Nat.le_of_succ_le hroom) rest
      have hnext := nextItem?_print_comma style level hnumbers.1
        (printItems style level items ++ (blanks ++ ']' :: rest))
      simp only [printItems, List.cons_append, List.append_assoc]
      exact readItems_eq_ok_iff.2 (.inr ⟨_, _, _, _, hnext, hitem, hitems, rfl⟩)

/-- The members behind the first one are read from their text, up to the closing brace. -/
theorem readMembers_printMembers (style : Style) :
    (members : List (String × Json)) → (∀ n ∈ membersNumbers members, n.IsWord) →
      ∀ (level room count : Nat) {limit : Nat} {blanks : List Char}, membersDepth members ≤ limit →
      (∀ c ∈ blanks, isBlank c = true) → (printMembers style level members).length < count →
      count ≤ room → ∀ rest : List Char,
      readMembers room (readValue room limit) count false
        (printMembers style level members ++ (blanks ++ '\x7d' :: rest)) = .ok (members, rest)
  | [], _, level, room, count, limit, blanks, _, hblanks, hcount, _, rest => by
      obtain ⟨count, rfl⟩ : ∃ left, count = left + 1 := ⟨count - 1, by omega⟩
      exact readMembers_eq_ok_iff.2
        (.inl ⟨nextKey?_close hblanks false, closeObject_append hblanks, rfl⟩)
  | (key, value) :: members, hnumbers, level, room, count, limit, blanks, hdepth, hblanks, hcount,
      hroom, rest => by
      rw [membersNumbers, List.forall_mem_append] at hnumbers
      rw [membersDepth, Nat.max_le] at hdepth
      simp only [printMembers, stringChars_eq, List.length_cons, List.length_append] at hcount
      obtain ⟨count, rfl⟩ : ∃ left, count = left + 1 := ⟨count - 1, by omega⟩
      have hvalue := readValue_print style value hnumbers.1 level room hdepth.1
        (by omega) (endsValue_printMembers style level members hblanks rest)
      have hmembers := readMembers_printMembers style members hnumbers.2 level room count
        hdepth.2 hblanks (by omega) (Nat.le_of_succ_le hroom) rest
      have hread := readMembers_cons style key
        (nextKey?_comma (style.lineBreak_isBlank level)) (by omega) hvalue hmembers
      simpa only [printMembers, stringChars_eq, List.cons_append, List.append_assoc] using hread

end

/-- A printed value is read as that value, with white space behind it or without. -/
theorem read_print (style : Style) {value : Json} (hnumbers : ∀ n ∈ value.numbers, n.IsWord)
    (hdepth : value.depth ≤ depthLimit) (hblanks : ∀ c ∈ blanks, isBlank c = true) :
    read (print style 0 value ++ blanks) = .ok value := by
  have hends : EndsValue blanks := fun b hb =>
    isSeparator_of_isBlank (hblanks b (List.mem_of_mem_head? hb))
  have hroom : (print style 0 value).length ≤ roomFor (print style 0 value ++ blanks) := by
    rw [roomFor, List.length_append]
    omega
  have hend : readEnd blanks = .ok () := by
    have hskip := skipBlank_append hblanks []
    rw [List.append_nil] at hskip
    rw [readEnd, hskip]
    rfl
  exact read_eq_ok_iff.2
    ⟨blanks, readValue_print style value hnumbers 0 _ hdepth hroom hends, hend⟩

end SettingsBinding.Json
