import Mathlib.Data.List.Forall2
import SettingsBinding.Proofs.Files.Listing
import SettingsBinding.Settings.Discovery

/-!
The names of settings files in a directory. They are sorted, so they come in one order whatever the
order in which the directory lists them; and a name counts if it is the given one but for the case
of the letters from A to Z.
-/

namespace SettingsBinding

namespace Text

/-- The same character, or the same letter from A to Z, large and small. -/
def SameLetter (c d : Char) : Prop :=
  c = d ∨ c.isUpper ∧ d.toNat = c.toNat + 32 ∨ d.isUpper ∧ c.toNat = d.toNat + 32

theorem isUpper_iff {c : Char} : c.isUpper ↔ 65 ≤ c.toNat ∧ c.toNat ≤ 90 := decide_eq_true_iff

theorem toNat_toLower (c : Char) :
    c.toLower.toNat = if c.isUpper then c.toNat + 32 else c.toNat := by
  by_cases h : c.isUpper
  · have hbounds := isUpper_iff.1 h
    have hlower : c.toLower = _ := dif_pos (of_decide_eq_true h)
    rw [if_pos h, hlower]
    change (c.val + 32).toNat = c.val.toNat + 32
    rw [UInt32.toNat_add]
    exact Nat.mod_eq_of_lt (by change c.toNat + 32 < 2 ^ 32; omega)
  · have hsame : c.toLower = c := dif_neg (mt decide_eq_true h)
    rw [if_neg h, hsame]

theorem toLower_eq_toLower_iff {c d : Char} : c.toLower = d.toLower ↔ SameLetter c d := by
  rw [SameLetter, ← Char.toNat_inj, ← Char.toNat_inj, toNat_toLower, toNat_toLower]
  simp only [isUpper_iff]
  split <;> split <;> omega

theorem equalIgnoringCase_iff {a b : String} :
    equalIgnoringCase a b ↔ List.Forall₂ SameLetter a.toList b.toList := by
  rw [equalIgnoringCase, beq_iff_eq, ← List.forall₂_eq_eq_eq, List.forall₂_map_left_iff,
    List.forall₂_map_right_iff]
  simp only [toLower_eq_toLower_iff]

end Text

namespace SettingsDocument

variable {folder : Path} {fileName name : String} {names others : List String}

theorem mem_settingsNames_iff :
    name ∈ settingsNames folder fileName names ↔
      name ∈ names ∧ isSettingsPath fileName (folder.join name) := by
  rw [settingsNames, List.mem_mergeSort, List.mem_filter]

theorem pairwise_le_settingsNames (folder : Path) (fileName : String) (names : List String) :
    (settingsNames folder fileName names).Pairwise (· ≤ ·) := by
  refine (List.pairwise_mergeSort (fun a b c hab hbc => ?_) (fun a b => ?_) _).imp
    of_decide_eq_true
  · exact decide_eq_true (String.le_trans (of_decide_eq_true hab) (of_decide_eq_true hbc))
  · rw [Bool.or_eq_true, decide_eq_true_iff, decide_eq_true_iff]
    exact String.le_total a b

theorem pairwise_lt_settingsNames (folder : Path) (fileName : String) (h : names.Nodup) :
    (settingsNames folder fileName names).Pairwise (· < ·) := by
  have hdistinct : (settingsNames folder fileName names).Nodup :=
    (List.mergeSort_perm _ _).nodup_iff.2 (h.filter _)
  refine (pairwise_le_settingsNames folder fileName names).imp₂ (fun a b hle hne => ?_) hdistinct
  by_contra hnot
  exact hne (String.le_antisymm hle (String.not_lt.1 hnot))

/-- The names are sorted, so they do not depend on the order in which they are listed. -/
theorem settingsNames_eq_of_perm (h : names.Perm others) :
    settingsNames folder fileName names = settingsNames folder fileName others := by
  have hperm : (settingsNames folder fileName names).Perm (settingsNames folder fileName others) :=
    (List.mergeSort_perm _ _).trans ((h.filter _).trans (List.mergeSort_perm _ _).symm)
  exact hperm.eq_of_pairwise (fun a b _ _ => String.le_antisymm)
    (pairwise_le_settingsNames folder fileName names)
    (pairwise_le_settingsNames folder fileName others)

theorem isSettingsPath_join (folder : Path) (h : Path.IsName name) :
    isSettingsPath fileName (folder.join name) = Text.equalIgnoringCase name fileName := by
  rw [isSettingsPath, Path.fileName?_join folder h]
  rfl

end SettingsDocument

end SettingsBinding
