import SettingsBinding.Json.Number

/-!
Reading back the numbers that are written. Whatever may stand behind a value ends a number, and an
integer that fits 64 bits is read from its digits exactly, with its sign.
-/

namespace SettingsBinding

namespace Json

/-- What can stand directly behind a value: white space, a comma or a closing bracket. -/
def isSeparator (c : Char) : Bool := isBlank c || c == ',' || c == ']' || c == '\x7d'

def EndsValue (rest : List Char) : Prop := ∀ c ∈ rest.head?, isSeparator c = true

theorem endsValue_nil : EndsValue [] := nofun

theorem endsValue_cons {c : Char} (h : isSeparator c = true) (rest : List Char) :
    EndsValue (c :: rest) := by
  rintro _ ⟨⟩
  exact h

theorem isSeparator_of_isBlank {c : Char} (h : isBlank c = true) : isSeparator c = true := by
  simp [isSeparator, h]

theorem eq_of_isSeparator {c : Char} (h : isSeparator c = true) :
    c = ' ' ∨ c = '\t' ∨ c = '\n' ∨ c = '\r' ∨ c = ',' ∨ c = ']' ∨ c = '\x7d' := by
  simpa [isSeparator, isBlank, or_assoc] using h

theorem not_isDigit_of_isSeparator {c : Char} (h : isSeparator c = true) : c.isDigit = false := by
  rcases eq_of_isSeparator h with rfl | rfl | rfl | rfl | rfl | rfl | rfl <;> rfl

end Json

namespace JsonNumber

open Json (EndsValue isSeparator endsValue_nil endsValue_cons not_isDigit_of_isSeparator)

/-- An integer of 64 bits, with or without a sign. -/
def IsWord : JsonNumber → Prop
  | .integer i => -Int.ofNat (Nat.pow 2 63) ≤ i ∧ i < Int.ofNat (Nat.pow 2 64)
  | .double _ => False

theorem isWord_integer_iff {i : Int} :
    IsWord (.integer i) ↔ -9223372036854775808 ≤ i ∧ i < 18446744073709551616 := Iff.rfl

variable {rest : List Char}

/-! ### Runs of digits -/

theorem le_ofDigitChars (digits : List Char) (n : Nat) : n ≤ Nat.ofDigitChars 10 digits n := by
  induction digits generalizing n with
  | nil => simp
  | cons d digits ih =>
      rw [Nat.ofDigitChars_cons]
      calc
        n ≤ 10 * n + (d.toNat - '0'.toNat) := by omega
        _ ≤ _ := ih _

/-- Digits that write a number within the limit are all taken. -/
theorem takeFitting_eq {limit n : Nat} {digits : List Char}
    (h : Nat.ofDigitChars 10 digits n ≤ limit) :
    takeFitting limit n digits = (Nat.ofDigitChars 10 digits n, []) := by
  induction digits generalizing n with
  | nil => rfl
  | cons d digits ih =>
      rw [Nat.ofDigitChars_cons] at h ⊢
      have hfits : 10 * n + digitValue d ≤ limit := Nat.le_trans (le_ofDigitChars digits _) h
      rw [takeFitting, if_pos hfits]
      exact ih h

theorem takeWhile_isDigit_append {digits : List Char} (hdigits : ∀ d ∈ digits, d.isDigit = true)
    (hrest : EndsValue rest) :
    (digits ++ rest).takeWhile Char.isDigit = digits ∧
      (digits ++ rest).dropWhile Char.isDigit = rest := by
  have hstops : rest.takeWhile Char.isDigit = [] ∧ rest.dropWhile Char.isDigit = rest := by
    cases rest with
    | nil => exact ⟨rfl, rfl⟩
    | cons c rest =>
        have hc : c.isDigit = false := not_isDigit_of_isSeparator (hrest c rfl)
        simp [hc]
  constructor
  · rw [List.takeWhile_append_of_pos hdigits, hstops.1, List.append_nil]
  · rw [List.dropWhile_append_of_pos hdigits, hstops.2]

theorem isDigit_of_mem_toDigits {n : Nat} {d : Char} (h : d ∈ Nat.toDigits 10 n) :
    d.isDigit = true :=
  Nat.isDigit_of_mem_toDigits (by decide) (by decide) h

/-- Only zero is written with a zero in front. -/
theorem toDigits_eq_cons {n : Nat} (h : 0 < n) :
    ∃ d digits, Nat.toDigits 10 n = d :: digits ∧ d ≠ '0' := by
  induction n using Nat.strongRecOn with
  | ind n ih =>
      by_cases hsmall : n < 10
      · refine ⟨n.digitChar, [], Nat.toDigits_of_lt_base hsmall, fun hzero => ?_⟩
        have hcode := Nat.toNat_digitChar_of_lt_ten hsmall
        rw [hzero] at hcode
        have : '0'.toNat = 48 := rfl
        omega
      · obtain ⟨d, digits, hdigits, hd⟩ := ih (n / 10) (by omega) (by omega)
        refine ⟨d, digits ++ [(n % 10).digitChar], ?_, hd⟩
        rw [Nat.toDigits_of_base_le (by decide) (by omega), hdigits, List.cons_append]

/-! ### Integers -/

/-- A number that ends behind its integer digits is an integer. -/
theorem readTail_of_endsValue (negative : Bool) (n : Nat) (hrest : EndsValue rest) :
    readTail negative n [] rest = .ok (ofSigned negative n, rest) := by
  cases rest with
  | nil => rfl
  | cons c rest =>
      have hsep := hrest c rfl
      rw [readTail]
      · rfl
      · rintro fraction ⟨⟩
        cases hsep
      · rintro tail ⟨⟩
        cases hsep
      · rintro tail ⟨⟩
        cases hsep

theorem read_toDigits (negative : Bool) {n : Nat} (h : n ≤ greatestSignificand)
    (hrest : EndsValue rest) :
    read negative (Nat.toDigits 10 n ++ rest) = .ok (ofSigned negative n, rest) := by
  rcases Nat.eq_zero_or_pos n with rfl | hpos
  · rw [Nat.toDigits_zero, List.singleton_append]
    cases rest with
    | nil => rfl
    | cons c rest =>
        have hc : c.isDigit = false := not_isDigit_of_isSeparator (hrest c rfl)
        simp only [read, hc, Bool.false_eq_true, if_false]
        exact readTail_of_endsValue negative 0 hrest
  · obtain ⟨d, digits, hdigits, hd⟩ := toDigits_eq_cons hpos
    have hmem : ∀ c ∈ d :: digits, c.isDigit = true := fun c hc =>
      isDigit_of_mem_toDigits (hdigits ▸ hc)
    obtain ⟨htake, hdrop⟩ :=
      takeWhile_isDigit_append (fun c hc => hmem c (List.mem_cons_of_mem _ hc)) hrest
    have hvalue : Nat.ofDigitChars 10 (d :: digits) 0 = n := by
      rw [← hdigits, Nat.ofDigitChars_ten_toDigits]
    have hfits : takeFitting greatestSignificand 0 (d :: digits) = (n, []) := by
      rw [takeFitting_eq (hvalue.symm ▸ h), hvalue]
    rw [hdigits, List.cons_append, read]
    · simp only [hmem d List.mem_cons_self, if_true, htake, hdrop, hfits]
      exact readTail_of_endsValue negative n hrest
    · exact hd

theorem le_greatestSignificand_iff {n : Nat} :
    n ≤ greatestSignificand ↔ n < 18446744073709551616 := by
  have hgreatest : greatestSignificand = 18446744073709551615 := rfl
  omega

/-- A nonnegative integer of 64 bits is read from its text. -/
theorem read_chars_ofNat {n : Nat} (h : IsWord (.integer n)) (hrest : EndsValue rest) :
    read false (chars (.integer n) ++ rest) = .ok (.integer n, rest) := by
  have hfits : n ≤ greatestSignificand := by
    obtain ⟨-, h⟩ := isWord_integer_iff.1 h
    rw [le_greatestSignificand_iff]
    omega
  exact read_toDigits false hfits hrest

/-- A negative integer of 64 bits is read from its text behind the sign. -/
theorem read_chars_negSucc {n : Nat} (h : IsWord (.integer (.negSucc n)))
    (hrest : EndsValue rest) :
    read true (Nat.toDigits 10 (n + 1) ++ rest) = .ok (.integer (.negSucc n), rest) := by
  have hbound : n + 1 ≤ 9223372036854775808 := by
    obtain ⟨h, -⟩ := isWord_integer_iff.1 h
    omega
  have hsigned : ofSigned true (n + 1) = .integer (.negSucc n) := by
    have hfits : 0 < n + 1 ∧ n + 1 ≤ Nat.pow 2 63 := ⟨Nat.succ_pos n, hbound⟩
    simp [ofSigned, hfits, Int.negSucc_eq]
  rw [read_toDigits true (le_greatestSignificand_iff.2 (by omega)) hrest, hsigned]

end JsonNumber

end SettingsBinding
