import SettingsBinding.Json.StringText

/-!
Reading back the strings that are written. Every character is written as itself or as an escape, and
either form is read as that one character, so that a string of any characters comes back as it was.
-/

namespace SettingsBinding.Json

theorem escapeLetters_lookup {c letter : Char} (h : escapeLetter? c = some letter) :
    letter ≠ 'u' ∧ escapeLetters.lookup letter = some c := by
  unfold escapeLetter? at h
  split at h <;> cases h <;> decide

theorem not_special_of_escapeLetter?_eq_none {c : Char} (h : escapeLetter? c = none) :
    c ≠ '"' ∧ c ≠ '\\' := by
  constructor
  · rintro rfl
    cases h
  · rintro rfl
    cases h

/-- The four digits of a control are those of its code. -/
theorem hexValue?_control : ∀ n < 0x20,
    hexValue? '0' '0' (Nat.digitChar (n / 16)) (Nat.digitChar (n % 16)) = some n := by
  decide

theorem readCode_control {c : Char} (h : c.toNat < 0x20) (rest : List Char) :
    readCode ('0' :: '0' :: Nat.digitChar (c.toNat / 16) :: Nat.digitChar (c.toNat % 16) :: rest) =
      .ok (c, rest) := by
  have hcode := hexValue?_control c.toNat h
  have htrailing : isTrailingSurrogate c.toNat = false := by
    simp [isTrailingSurrogate]
    omega
  have hleading : isLeadingSurrogate c.toNat = false := by
    simp [isLeadingSurrogate]
    omega
  simp [readCode, readHex, hcode, htrailing, hleading, bind, Except.bind, pure, Except.pure]

/-- The form of a character is read as that character. -/
theorem readChars_escapeChar (room : Nat) (c : Char) (rest : List Char) :
    readChars (room + 1) (escapeChar c ++ rest) =
      (readChars room rest).map fun read => (c :: read.1, read.2) := by
  cases hletter : escapeLetter? c with
  | some letter =>
      obtain ⟨hu, hlookup⟩ := escapeLetters_lookup hletter
      have hescape : readEscape (letter :: rest) = .ok (c, rest) := by
        simp [readEscape, hu, hlookup]
      rw [escapeChar, hletter]
      change readChars (room + 1) ('\\' :: letter :: rest) = _
      rw [readChars, if_neg (by decide), if_pos rfl, hescape]
      rfl
  | none =>
      obtain ⟨hquote, hbackslash⟩ := not_special_of_escapeLetter?_eq_none hletter
      rw [escapeChar, hletter]
      by_cases hcontrol : c.toNat < 0x20
      · have hescape : readEscape ('u' :: '0' :: '0' :: Nat.digitChar (c.toNat / 16) ::
            Nat.digitChar (c.toNat % 16) :: rest) = .ok (c, rest) := by
          rw [readEscape, if_pos rfl, readCode_control hcontrol]
        simp only [hcontrol, if_true, List.cons_append, List.nil_append]
        rw [readChars, if_neg (by decide), if_pos rfl, hescape]
        rfl
      · simp only [hcontrol, if_false, List.cons_append, List.nil_append]
        rw [readChars, if_neg hquote, if_neg hbackslash, if_neg hcontrol]
        rfl

theorem readChars_flatMap_escapeChar (cs rest : List Char) {room : Nat} (h : cs.length < room) :
    readChars room (cs.flatMap escapeChar ++ '"' :: rest) = .ok (cs, rest) := by
  induction cs generalizing room with
  | nil =>
      obtain ⟨room, rfl⟩ : ∃ left, room = left + 1 := ⟨room - 1, by omega⟩
      rfl
  | cons c cs ih =>
      obtain ⟨room, rfl⟩ : ∃ left, room = left + 1 := ⟨room - 1, by omega⟩
      rw [List.flatMap_cons, List.append_assoc, readChars_escapeChar,
        ih (Nat.lt_of_succ_lt_succ h)]
      rfl

def stringTail (s : String) : List Char := s.toList.flatMap escapeChar ++ ['"']

theorem stringChars_eq (s : String) : stringChars s = '"' :: stringTail s := rfl

theorem one_le_length_escapeChar (c : Char) : 1 ≤ (escapeChar c).length := by
  rw [escapeChar]
  split
  · simp
  · split <;> simp

theorem length_le_flatMap_escapeChar (cs : List Char) :
    cs.length ≤ (cs.flatMap escapeChar).length := by
  induction cs with
  | nil => simp
  | cons c cs ih =>
      have := one_le_length_escapeChar c
      simp only [List.length_cons, List.flatMap_cons, List.length_append]
      omega

theorem length_lt_stringTail (s : String) : s.toList.length < (stringTail s).length := by
  have := length_le_flatMap_escapeChar s.toList
  simp only [stringTail, List.length_append, List.length_singleton]
  omega

/-- A string is read from its text, whatever follows. -/
theorem readString_stringTail (s : String) (rest : List Char) {room : Nat}
    (h : (stringTail s).length ≤ room) :
    readString room (stringTail s ++ rest) = .ok (s, rest) := by
  have hroom : s.toList.length < room := Nat.lt_of_lt_of_le (length_lt_stringTail s) h
  rw [readString, stringTail, List.append_assoc, List.singleton_append,
    readChars_flatMap_escapeChar _ _ hroom]
  simp [bind, Except.bind, pure, Except.pure]

end SettingsBinding.Json
