import Mathlib.Data.List.Forall2
import Mathlib.Data.Nat.Digits.Defs
import SettingsBinding.Yaml.Reading

/-!
The natural numbers that a scalar writes. A numeral is told by its digits: a text is one if its
characters are digits to the base, and its number is the one with these digits. A decimal numeral
has no zero in front; the other bases are named behind a zero. The reader of numbers takes exactly
these texts, with or without a plus sign.
-/

namespace SettingsBinding.Yaml

variable {base n m : Nat} {cs : List Char} {c : Char} {d : Nat}

/-- The character is a digit to the base: `0` to `9`, and behind them the letters in either case. -/
def IsDigit (base : Nat) (c : Char) (d : Nat) : Prop :=
  d < base ∧ (c = d.digitChar ∨ c = d.digitChar.toUpper)

instance : Decidable (IsDigit base c d) := inferInstanceAs (Decidable (_ ∧ _))

/-- The characters are digits to the base, at least one, and `n` is the number with these digits. -/
def IsNumeral (base : Nat) (cs : List Char) (n : Nat) : Prop :=
  cs ≠ [] ∧ ∃ ds, List.Forall₂ (IsDigit base) cs ds ∧ n = Nat.ofDigits base ds.reverse

inductive IsUnsigned : List Char → Nat → Prop
  | decimal {cs : List Char} {n : Nat} (hzero : cs.head? = some '0' → cs = ['0'])
      (h : IsNumeral 10 cs n) : IsUnsigned cs n
  | hexadecimal {cs : List Char} {n : Nat} (h : IsNumeral 16 cs n) : IsUnsigned ('0' :: 'x' :: cs) n
  | octal {cs : List Char} {n : Nat} (h : IsNumeral 8 cs n) : IsUnsigned ('0' :: 'o' :: cs) n
  | binary {cs : List Char} {n : Nat} (h : IsNumeral 2 cs n) : IsUnsigned ('0' :: 'b' :: cs) n

/-- The text writes the number, with or without a plus sign. -/
inductive Spells : List Char → Nat → Prop
  | unsigned {cs : List Char} {n : Nat} (h : IsUnsigned cs n) : Spells cs n
  | plus {cs : List Char} {n : Nat} (h : IsUnsigned cs n) : Spells ('+' :: cs) n

/-! ### Digits -/

theorem forall_of_ascii {p : Char → Prop} (h : ∀ n < 128, p (Char.ofNat n)) (hc : c.toNat < 128) :
    p c := by
  have hp := h c.toNat hc
  rwa [Char.ofNat_toNat] at hp

theorem toNat_lt_of_hexDigit? (h : hexDigit? c = some d) : c.toNat < 128 := by
  have hbound : c ≤ '9' ∨ c ≤ 'f' ∨ c ≤ 'F' := by
    rw [hexDigit?] at h
    split_ifs at h with hdigit hlower hupper
    · simp only [Char.isDigit, Bool.and_eq_true, decide_eq_true_eq] at hdigit
      exact .inl hdigit.2
    · exact .inr (.inl hlower.2)
    · exact .inr (.inr hupper.2)
  simp only [Char.le_def, UInt32.le_iff_toNat_le] at hbound
  change c.val.toNat < 128
  change c.val.toNat ≤ 57 ∨ c.val.toNat ≤ 102 ∨ c.val.toNat ≤ 70 at hbound
  omega

theorem hexDigit?_eq_some_iff : hexDigit? c = some d ↔ IsDigit 16 c d := by
  constructor
  · intro h
    have hascii : ∀ n < 128, ∀ d ∈ hexDigit? (Char.ofNat n), IsDigit 16 (Char.ofNat n) d := by
      decide +kernel
    exact forall_of_ascii (p := fun c => ∀ d ∈ hexDigit? c, IsDigit 16 c d) hascii
      (toNat_lt_of_hexDigit? h) d h
  · rintro ⟨hlt, rfl | rfl⟩
    · have hlower : ∀ d < 16, hexDigit? d.digitChar = some d := by decide
      exact hlower d hlt
    · have hupper : ∀ d < 16, hexDigit? d.digitChar.toUpper = some d := by decide
      exact hupper d hlt

theorem isDigit_iff_of_le (hbase : base ≤ 16) :
    IsDigit base c d ↔ (hexDigit? c).filter (· < base) = some d := by
  rw [Option.filter_eq_some_iff, hexDigit?_eq_some_iff, decide_eq_true_iff, IsDigit, IsDigit]
  constructor
  · rintro ⟨hlt, hc⟩
    exact ⟨⟨by omega, hc⟩, hlt⟩
  · rintro ⟨⟨-, hc⟩, hlt⟩
    exact ⟨hlt, hc⟩

/-! ### Numerals -/

theorem ofDigits_reverse (base : Nat) (ds : List Nat) :
    Nat.ofDigits base ds.reverse = ds.foldl (fun n d => base * n + d) 0 := by
  rw [Nat.ofDigits_eq_foldr, List.foldr_reverse]
  congr
  funext n d
  rw [Nat.cast_id, Nat.add_comm]

/-- Reading on from a number that was read. -/
theorem foldlM_digits_eq_some_iff (hbase : base ≤ 16) :
    cs.foldlM (fun n d => ((hexDigit? d).filter (· < base)).map (base * n + ·)) m = some n ↔
      ∃ ds, List.Forall₂ (IsDigit base) cs ds ∧ n = ds.foldl (fun n d => base * n + d) m := by
  induction cs generalizing m with
  | nil => simp [eq_comm]
  | cons c cs ih =>
      rw [List.foldlM_cons, Option.bind_eq_bind, Option.bind_eq_some_iff]
      constructor
      · rintro ⟨m', hc, hcs⟩
        obtain ⟨d, hd, rfl⟩ := Option.map_eq_some_iff.1 hc
        obtain ⟨ds, hds, rfl⟩ := ih.1 hcs
        exact ⟨d :: ds, .cons ((isDigit_iff_of_le hbase).2 hd) hds, rfl⟩
      · rintro ⟨_, hds, rfl⟩
        cases hds with
        | @cons _ d _ ds hd hds =>
            rw [isDigit_iff_of_le hbase] at hd
            exact ⟨base * m + d, by rw [hd]; rfl, ih.2 ⟨ds, hds, rfl⟩⟩

theorem natOfDigits?_eq_some_iff (hbase : base ≤ 16) :
    natOfDigits? base cs = some n ↔ IsNumeral base cs n := by
  rw [natOfDigits?, IsNumeral]
  simp only [ofDigits_reverse, ← foldlM_digits_eq_some_iff hbase]
  split <;> simp [*]

theorem lookup_bases_eq_some_iff :
    bases.lookup c = some base ↔ (c = 'x' ∧ base = 16) ∨ (c = 'o' ∧ base = 8) ∨
      (c = 'b' ∧ base = 2) := by
  by_cases hx : c = 'x'
  · subst hx
    simp [bases, eq_comm]
  · by_cases ho : c = 'o'
    · subst ho
      simp [bases, List.lookup_cons, eq_comm]
    · by_cases hb : c = 'b'
      · subst hb
        simp [bases, List.lookup_cons, eq_comm]
      · have hnone : bases.lookup c = none := by
          rw [List.lookup_eq_none_iff]
          simp [bases, hx, ho, hb]
        simp [hnone, hx, ho, hb]

theorem magnitude?_eq_some_iff : magnitude? cs = some n ↔ IsUnsigned cs n := by
  constructor
  · intro h
    rw [magnitude?.eq_def] at h
    split at h
    · next letter digits =>
        obtain ⟨base, hbase, h⟩ := Option.bind_eq_some_iff.1 h
        obtain ⟨rfl, rfl⟩ | ⟨rfl, rfl⟩ | ⟨rfl, rfl⟩ := lookup_bases_eq_some_iff.1 hbase
        · exact .hexadecimal ((natOfDigits?_eq_some_iff (by decide)).1 h)
        · exact .octal ((natOfDigits?_eq_some_iff (by decide)).1 h)
        · exact .binary ((natOfDigits?_eq_some_iff (by decide)).1 h)
    · next hother =>
        refine .decimal (fun hzero => ?_) ((natOfDigits?_eq_some_iff (by decide)).1 h)
        obtain ⟨digits, rfl⟩ := List.head?_eq_some_iff.1 hzero
        cases digits with
        | nil => rfl
        | cons letter digits => exact absurd rfl (hother letter digits)
  · intro h
    cases h with
    | decimal hzero h =>
        rw [← natOfDigits?_eq_some_iff (by decide)] at h
        rw [magnitude?.eq_def]
        split
        · cases hzero rfl
        · exact h
    | hexadecimal h => exact (natOfDigits?_eq_some_iff (by decide)).2 h
    | octal h => exact (natOfDigits?_eq_some_iff (by decide)).2 h
    | binary h => exact (natOfDigits?_eq_some_iff (by decide)).2 h

theorem natural?_eq_some_iff : natural? cs = some n ↔ Spells cs n := by
  constructor
  · intro h
    rw [natural?.eq_def] at h
    split at h
    · exact .plus (magnitude?_eq_some_iff.1 h)
    · exact .unsigned (magnitude?_eq_some_iff.1 h)
  · intro h
    cases h with
    | plus h => exact magnitude?_eq_some_iff.2 h
    | unsigned h =>
        rw [← magnitude?_eq_some_iff] at h
        rw [natural?.eq_def]
        split
        · -- No number starts with a second plus sign.
          cases h
        · exact h

end SettingsBinding.Yaml
