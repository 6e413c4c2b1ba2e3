import Mathlib.Algebra.Order.Field.Basic
import Mathlib.Algebra.Order.Ring.Rat
import Mathlib.Data.List.Induction
import Mathlib.Tactic.NormNum
import SettingsBinding.Hint
import SettingsBinding.Proofs.Text.Distance

/-!
The section with the most similar name. The score of a name is an exact fraction, and it is one for
the names only that differ from the key in case, if the key itself is no name. The search goes
through the names once, and what it has found is the last of the best names so far, if that is
similar enough.
-/

namespace SettingsBinding

/-- How similar a name is to a key: one if they are equal up to case, else the share of the longer
one that need not be edited. -/
def score (key name : String) : ℚ :=
  if Text.equalIgnoringCase name key then 1
  else 1 - (Text.editDistance name.toList key.toList : ℚ) /
    (max name.toList.length key.toList.length : Nat)

theorem length_pos_of_not_equalIgnoringCase {key name : String}
    (h : Text.equalIgnoringCase name key = false) :
    0 < max name.toList.length key.toList.length := by
  rw [Nat.pos_iff_ne_zero]
  intro hzero
  have hname : name.toList = [] := List.eq_nil_of_length_eq_zero (by omega)
  have hkey : key.toList = [] := List.eq_nil_of_length_eq_zero (by omega)
  simp [Text.equalIgnoringCase, hname, hkey] at h

theorem score_le_one (key name : String) : score key name ≤ 1 := by
  rw [score]
  split
  · exact le_refl 1
  · exact sub_le_self 1 (div_nonneg (Nat.cast_nonneg _) (Nat.cast_nonneg _))

/-- But for the key itself, the best score is that of the names that differ in case only. -/
theorem score_eq_one_iff {key name : String} (hne : name ≠ key) :
    score key name = 1 ↔ Text.equalIgnoringCase name key = true := by
  rw [score]
  split
  · next h => simp [h]
  · next h =>
      have hlength := length_pos_of_not_equalIgnoringCase (Bool.eq_false_of_not_eq_true h)
      have hdistance : Text.editDistance name.toList key.toList ≠ 0 := fun hzero =>
        hne (String.toList_inj.1 (Text.editDistance_eq_zero_iff.1 hzero))
      refine iff_of_false (fun hone => ?_) h
      have hzero := sub_eq_self.1 hone
      rw [div_eq_zero_iff, Nat.cast_eq_zero, Nat.cast_eq_zero] at hzero
      omega

namespace Similarity

def value (s : Similarity) : ℚ := s.num / s.den

theorem atMost_iff {a b : Similarity} (ha : 0 < a.den) (hb : 0 < b.den) :
    a.atMost b ↔ a.value ≤ b.value := by
  have ha' : (0 : ℚ) < a.den := Nat.cast_pos.2 ha
  have hb' : (0 : ℚ) < b.den := Nat.cast_pos.2 hb
  rw [atMost, decide_eq_true_iff, value, value, div_le_div_iff₀ ha' hb']
  exact_mod_cast Iff.rfl

theorem den_ofNames_pos (name key : String) : 0 < (ofNames name key).den := by
  rw [ofNames]
  split
  · exact Nat.one_pos
  · next h => exact length_pos_of_not_equalIgnoringCase (Bool.eq_false_of_not_eq_true h)

@[simp] theorem value_ofNames (name key : String) : (ofNames name key).value = score key name := by
  rw [ofNames, score]
  split
  · simp [value]
  · next h =>
      have hlength := length_pos_of_not_equalIgnoringCase (Bool.eq_false_of_not_eq_true h)
      have hne : ((max name.toList.length key.toList.length : Nat) : ℚ) ≠ 0 :=
        Nat.cast_ne_zero.2 hlength.ne'
      rw [value, Nat.cast_sub (Text.editDistance_le_max _ _), sub_div, div_self hne]

theorem threshold_atMost_iff {name key : String} :
    threshold.atMost (ofNames name key) ↔ 3 / 4 ≤ score key name := by
  rw [atMost_iff (by decide) (den_ofNames_pos name key), value_ofNames]
  norm_num [value, threshold]

theorem atMost_ofNames_iff {key name other : String} :
    (ofNames name key).atMost (ofNames other key) ↔ score key name ≤ score key other := by
  rw [atMost_iff (den_ofNames_pos name key) (den_ofNames_pos other key), value_ofNames,
    value_ofNames]

end Similarity

/-! ### The last of the best -/

/-- No name scores higher, and every name behind it scores lower. -/
def IsLastBest (key : String) (names : List String) (name : String) : Prop :=
  ∃ before after, names = before ++ name :: after ∧
    (∀ other ∈ names, score key other ≤ score key name) ∧
    ∀ other ∈ after, score key other < score key name

namespace IsLastBest

variable {key name other : String} {names : List String}

theorem mem (h : IsLastBest key names name) : name ∈ names := by
  obtain ⟨before, after, rfl, -⟩ := h
  simp

theorem unique (h : IsLastBest key names name) (h' : IsLastBest key names other) :
    name = other := by
  obtain ⟨before, after, hnames, hbest, hafter⟩ := h
  obtain ⟨before', after', hnames', hbest', hafter'⟩ := h'
  have hle := hbest other (hnames' ▸ by simp)
  have hle' := hbest' name (hnames ▸ by simp)
  -- If one of the two stood behind the other it would score lower.
  rcases List.append_eq_append_iff.1 (hnames.symm.trans hnames') with
    ⟨_ | ⟨first, middle⟩, -, hrest⟩ | ⟨_ | ⟨first, middle⟩, -, hrest⟩
  · exact (List.cons.inj hrest).1
  · have hmem : other ∈ after := by simp [(List.cons.inj hrest).2]
    exact absurd hle' (hafter other hmem).not_ge
  · exact (List.cons.inj hrest).1.symm
  · have hmem : name ∈ after' := by simp [(List.cons.inj hrest).2]
    exact absurd hle (hafter' name hmem).not_ge

theorem append_of_lt (h : IsLastBest key names name) (hlt : score key other < score key name) :
    IsLastBest key (names ++ [other]) name := by
  obtain ⟨before, after, rfl, hbest, hafter⟩ := h
  refine ⟨before, after ++ [other], by simp, ?_, ?_⟩
  · rw [List.forall_mem_append, List.forall_mem_singleton]
    exact ⟨hbest, hlt.le⟩
  · rw [List.forall_mem_append, List.forall_mem_singleton]
    exact ⟨hafter, hlt⟩

theorem append_of_le (h : ∀ other ∈ names, score key other ≤ score key name) :
    IsLastBest key (names ++ [name]) name := by
  refine ⟨names, [], rfl, ?_, nofun⟩
  rw [List.forall_mem_append, List.forall_mem_singleton]
  exact ⟨h, le_refl _⟩

end IsLastBest

/-! ### The search -/

def searchNames (key : String) (names : List String) : Option (String × Similarity) :=
  ((names.map fun name => (name, Similarity.ofNames name key)).filter fun c =>
    Similarity.threshold.atMost c.2).foldl betterCandidate none

/-- What the search has found is the last of the best names, if its score is high enough. -/
def Searched (key : String) (names : List String) : Option (String × Similarity) → Prop
  | none => ∀ name ∈ names, score key name < 3 / 4
  | some (name, s) =>
    s = .ofNames name key ∧ 3 / 4 ≤ score key name ∧ IsLastBest key names name

variable {key : String} {names : List String}

theorem searchNames_append_singleton (name : String) :
    searchNames key (names ++ [name]) =
      if 3 / 4 ≤ score key name then
        betterCandidate (searchNames key names) (name, .ofNames name key)
      else searchNames key names := by
  rw [searchNames, List.map_append, List.filter_append, List.foldl_append, ← searchNames]
  by_cases h : 3 / 4 ≤ score key name
  · simp [h, Similarity.threshold_atMost_iff.2 h]
  · simp [h, mt Similarity.threshold_atMost_iff.1 h]

/-- A name that is not similar enough changes nothing. -/
theorem Searched.append_of_lt {found : Option (String × Similarity)}
    (h : Searched key names found) {name : String} (hlow : score key name < 3 / 4) :
    Searched key (names ++ [name]) found := by
  cases found with
  | none =>
      rw [Searched, List.forall_mem_append, List.forall_mem_singleton]
      exact ⟨h, hlow⟩
  | some best =>
      obtain ⟨hs, henough, hbest⟩ := h
      exact ⟨hs, henough, hbest.append_of_lt (hlow.trans_le henough)⟩

/-- A name that is similar enough becomes the best one unless the best one scores higher. -/
theorem Searched.append_of_le {found : Option (String × Similarity)}
    (h : Searched key names found) {name : String} (henough : 3 / 4 ≤ score key name) :
    Searched key (names ++ [name]) (betterCandidate found (name, .ofNames name key)) := by
  cases found with
  | none =>
      exact ⟨rfl, henough, .append_of_le fun other hother =>
        ((h other hother).trans_le henough).le⟩
  | some best =>
      rcases best with ⟨best, s⟩
      obtain ⟨rfl, hhigh, hbest⟩ := h
      rw [betterCandidate]
      by_cases hle : score key best ≤ score key name
      · obtain ⟨before, after, -, hbound, -⟩ := hbest
        rw [if_pos (Similarity.atMost_ofNames_iff.2 hle)]
        exact ⟨rfl, henough, .append_of_le fun other hother => (hbound other hother).trans hle⟩
      · rw [if_neg (mt Similarity.atMost_ofNames_iff.1 hle)]
        exact ⟨rfl, hhigh, hbest.append_of_lt (lt_of_not_ge hle)⟩

theorem searched_searchNames (key : String) (names : List String) :
    Searched key names (searchNames key names) := by
  induction names using List.reverseRecOn with
  | nil => exact nofun
  | append_singleton names name ih =>
      rw [searchNames_append_singleton]
      split
      · next henough => exact ih.append_of_le henough
      · next hlow => exact ih.append_of_lt (lt_of_not_ge hlow)

namespace SettingsTree

variable {settings : SettingsTree}

def sectionNames (settings : SettingsTree) : List String := settings.sections.map Prod.fst

theorem closestSection?_eq (settings : SettingsTree) (key : String) :
    settings.closestSection? key = (searchNames key settings.sectionNames).map Prod.fst := by
  rw [searchNames, sectionNames, List.map_map]
  rfl

theorem closestSection?_eq_none_iff :
    settings.closestSection? key = none ↔
      ∀ name ∈ settings.sectionNames, score key name < 3 / 4 := by
  have hsearched := searched_searchNames key settings.sectionNames
  rw [closestSection?_eq]
  cases hfound : searchNames key settings.sectionNames with
  | none =>
      rw [hfound] at hsearched
      exact iff_of_true rfl hsearched
  | some best =>
      rw [hfound] at hsearched
      obtain ⟨-, henough, hbest⟩ := hsearched
      refine iff_of_false (by simp) fun hlow => ?_
      exact (hlow best.1 hbest.mem).not_ge henough

theorem isLastBest_of_closestSection? {name : String}
    (h : settings.closestSection? key = some name) :
    3 / 4 ≤ score key name ∧ IsLastBest key settings.sectionNames name := by
  rw [closestSection?_eq, Option.map_eq_some_iff] at h
  obtain ⟨best, hfound, rfl⟩ := h
  have hsearched := searched_searchNames key settings.sectionNames
  rw [hfound] at hsearched
  exact hsearched.2

theorem closestSection?_of_isLastBest {name : String} (henough : 3 / 4 ≤ score key name)
    (hbest : IsLastBest key settings.sectionNames name) :
    settings.closestSection? key = some name := by
  cases hfound : settings.closestSection? key with
  | none => exact absurd henough (closestSection?_eq_none_iff.1 hfound name hbest.mem).not_ge
  | some other => rw [(isLastBest_of_closestSection? hfound).2.unique hbest]

/-- Where names are equal to the key up to case, the last of them is the last of the best. -/
theorem isLastBest_of_equalIgnoringCase {name : String} {before after : List String}
    (hkey : key ∉ before ++ name :: after) (hname : Text.equalIgnoringCase name key = true)
    (hafter : ∀ other ∈ after, Text.equalIgnoringCase other key = false) :
    IsLastBest key (before ++ name :: after) name := by
  have hone : score key name = 1 := by rw [score, if_pos hname]
  refine ⟨before, after, rfl, fun other _ => ?_, fun other hother => ?_⟩
  · rw [hone]
    exact score_le_one key other
  · have hne : other ≠ key := fun heq => hkey (heq ▸ by simp [hother])
    rw [hone]
    refine lt_of_le_of_ne (score_le_one key other) fun hbest => ?_
    rw [score_eq_one_iff hne, hafter other hother] at hbest
    cases hbest

end SettingsTree

end SettingsBinding
