import SettingsBinding.Config.Basic

/-!
What is known of a configuration of which nothing is refused.
-/

namespace SettingsBinding.Config

theorem isWhiteSpace_of_isIdentifierStart {c : Char} (h : isIdentifierStart c) :
    Text.isWhiteSpace c = false := by
  have hcode : 65 ≤ c.toNat ∧ c.toNat ≤ 90 ∨ c.toNat = 95 ∨ 97 ≤ c.toNat ∧ c.toNat ≤ 122 := by
    rw [isIdentifierStart, Bool.or_eq_true, beq_iff_eq] at h
    rcases h with h | rfl
    · rcases Bool.or_eq_true_iff.1 h with hupper | hlower
      · exact .inl (of_decide_eq_true hupper)
      · have hbounds := Bool.and_eq_true_iff.1 hlower
        exact .inr (.inr ⟨of_decide_eq_true hbounds.1, of_decide_eq_true hbounds.2⟩)
    · exact .inr (.inl rfl)
  -- No range of white space meets the codes of letters or that of the underscore.
  simp only [Text.isWhiteSpace, Text.whiteSpaceRanges, List.any_cons, List.any_nil, Bool.or_false,
    Bool.or_eq_false_iff, Bool.and_eq_false_iff, decide_eq_false_iff_not]
  omega

theorem isBlank_of_isIdentifier {s : String} (h : isIdentifier s) : Text.isBlank s = false := by
  rw [isIdentifier] at h
  rw [Text.isBlank]
  cases hs : s.toList with
  | nil =>
      rw [hs] at h
      cases h
  | cons c rest =>
      rw [hs, Bool.and_eq_true] at h
      rw [List.all_cons, isWhiteSpace_of_isIdentifierStart h.1, Bool.false_and]

variable {config : Config}

/-- Nothing is refused where both identifiers are identifiers, both names are not blank, and the
width is in its bounds. -/
theorem isValid_iff :
    config.isValid ↔ isIdentifier config.markerSuffix ∧ isIdentifier config.hostKey ∧
      Text.isBlank config.settingsFileName = false ∧ Text.isBlank config.sourceName = false ∧
      1 ≤ config.indentWidth ∧ config.indentWidth ≤ greatestIndentWidth := by
  simp [isValid, errors, checkIdentifier, checkNotBlank, checkIndentWidth]

theorem checked_eq_ok_iff : config.checked = .ok config ↔ config.isValid := by
  rw [checked]
  split
  · simp [*]
  · simp [*]

theorem eq_of_checked {accepted : Config} (h : config.checked = .ok accepted) :
    accepted = config := by
  rw [checked] at h
  split at h
  · exact (Except.ok.inj h).symm
  · cases h

end SettingsBinding.Config
