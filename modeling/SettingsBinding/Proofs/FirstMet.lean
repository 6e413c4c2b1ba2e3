import Mathlib.Data.List.Induction
import Mathlib.Data.List.Nodup

/-!
Lists with each element once, in the order in which the elements are first met. Taking one more
element adds it at the end if it is new, and nothing else happens; the other facts follow from this
by induction on the list from behind.
-/

namespace SettingsBinding.FirstMet

variable {α : Type} [BEq α] [LawfulBEq α] {l : List α}

theorem eraseDups_append_singleton_of_mem {a : α} (h : a ∈ l) :
    (l ++ [a]).eraseDups = l.eraseDups := by
  rw [List.eraseDups_append]
  simp [List.removeAll, h]

theorem eraseDups_append_singleton_of_notMem {a : α} (h : a ∉ l) :
    (l ++ [a]).eraseDups = l.eraseDups ++ [a] := by
  rw [List.eraseDups_append]
  simp [List.removeAll, h, List.eraseDups_cons]

theorem nodup_eraseDups (l : List α) : l.eraseDups.Nodup := by
  induction l using List.reverseRecOn with
  | nil => simp
  | append_singleton l a ih =>
      by_cases h : a ∈ l
      · rwa [eraseDups_append_singleton_of_mem h]
      · rw [eraseDups_append_singleton_of_notMem h, ← List.concat_eq_append]
        exact ih.concat (mt List.mem_eraseDups.1 h)

theorem eraseDups_of_nodup (h : l.Nodup) : l.eraseDups = l := by
  induction l using List.reverseRecOn with
  | nil => simp
  | append_singleton l a ih =>
      obtain ⟨hl, -, hdisjoint⟩ := List.nodup_append.1 h
      have ha : a ∉ l := fun hmem => hdisjoint a hmem a (List.mem_singleton_self a) rfl
      rw [eraseDups_append_singleton_of_notMem ha, ih hl]

theorem eraseDups_filter (p : α → Bool) (l : List α) :
    (l.filter p).eraseDups = l.eraseDups.filter p := by
  induction l using List.reverseRecOn with
  | nil => simp
  | append_singleton l a ih =>
      rw [List.filter_append]
      cases hp : p a with
      | false =>
          by_cases h : a ∈ l
          · simp [hp, eraseDups_append_singleton_of_mem h, ih]
          · simp [hp, eraseDups_append_singleton_of_notMem h, ih]
      | true =>
          have hsingle : [a].filter p = [a] := List.filter_cons_of_pos hp
          rw [hsingle]
          by_cases h : a ∈ l
          · have hkept : a ∈ l.filter p := List.mem_filter.2 ⟨h, hp⟩
            rw [eraseDups_append_singleton_of_mem hkept, eraseDups_append_singleton_of_mem h, ih]
          · have hkept : a ∉ l.filter p := fun hmem => h (List.mem_of_mem_filter hmem)
            rw [eraseDups_append_singleton_of_notMem hkept,
              eraseDups_append_singleton_of_notMem h, ih, List.filter_append, hsingle]

/-- Repetitions may be dropped in the front part first. -/
theorem eraseDups_eraseDups_append (l m : List α) :
    (l.eraseDups ++ m).eraseDups = (l ++ m).eraseDups := by
  have hsame : m.removeAll l.eraseDups = m.removeAll l :=
    List.filter_congr fun a _ => by simp
  rw [List.eraseDups_append, List.eraseDups_append, eraseDups_of_nodup (nodup_eraseDups l), hsame]

/-- Repetitions may be dropped in the back part first. -/
theorem eraseDups_append_eraseDups (l m : List α) :
    (l ++ m.eraseDups).eraseDups = (l ++ m).eraseDups := by
  have hfilter : m.eraseDups.removeAll l = (m.removeAll l).eraseDups :=
    (eraseDups_filter _ m).symm
  rw [List.eraseDups_append, List.eraseDups_append, hfilter,
    eraseDups_of_nodup (nodup_eraseDups _)]

end SettingsBinding.FirstMet
