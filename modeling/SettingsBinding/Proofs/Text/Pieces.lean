import SettingsBinding.Classes
import SettingsBinding.Diagnostic

/-!
Texts in pieces. A beginning or an ending is taken off a text exactly if the text is put together
with it, lines come back apart if none of them holds a line break, and a text without white space
ends where the first space behind it stands.
-/

namespace SettingsBinding

/-! ### Beginnings and endings -/

theorem Diagnostic.dropStart?_eq_some_iff {start cs rest : List Char} :
    dropStart? start cs = some rest ↔ cs = start ++ rest := by
  rw [dropStart?]
  by_cases h : start <+: cs
  · rw [if_pos (List.isPrefixOf_iff_prefix.2 h), Option.some_inj]
    obtain ⟨after, rfl⟩ := h
    rw [List.append_right_inj, List.drop_left]
  · simp only [List.isPrefixOf_iff_prefix, h, if_false, reduceCtorEq, false_iff]
    rintro rfl
    exact h (List.prefix_append start rest)

theorem dropEnding?_eq_some_iff {ending cs front : List Char} :
    dropEnding? ending cs = some front ↔ cs = front ++ ending := by
  rw [dropEnding?]
  by_cases h : ending <:+ cs
  · rw [if_pos (List.isSuffixOf_iff_suffix.2 h), Option.some_inj]
    obtain ⟨before, rfl⟩ := h
    rw [List.append_left_inj, List.length_append, Nat.add_sub_cancel, List.take_left' rfl]
  · simp only [List.isSuffixOf_iff_suffix, h, if_false, reduceCtorEq, false_iff]
    rintro rfl
    exact h (List.suffix_append front ending)

namespace Text

/-! ### Lines -/

def IsLine (s : String) : Prop := '\n' ∉ s.toList

instance : DecidablePred IsLine := fun s => inferInstanceAs (Decidable ('\n' ∉ s.toList))

theorem isLine_append {s t : String} : IsLine (s ++ t) ↔ IsLine s ∧ IsLine t := by
  rw [IsLine, String.toList_append, List.mem_append, not_or]
  rfl

theorem splitOn_join_lines {lines : List String} (h : ∀ line ∈ lines, IsLine line) :
    (String.join (lines.map (· ++ "\n"))).toList.splitOn '\n' =
      lines.map String.toList ++ [[]] := by
  induction lines with
  | nil => rfl
  | cons line rest ih =>
      obtain ⟨hline, hrest⟩ := List.forall_mem_cons.1 h
      have htext : (String.join ((line :: rest).map (· ++ "\n"))).toList =
          line.toList ++ '\n' :: (String.join (rest.map (· ++ "\n"))).toList := by
        simp
      rw [htext, List.splitOn_append_cons_self_of_not_mem hline, ih hrest]
      rfl

/-! ### White space -/

def Spaceless (s : String) : Prop := ∀ c ∈ s.toList, isWhiteSpace c = false

theorem Spaceless.isLine {s : String} (h : Spaceless s) : IsLine s := by
  intro hbreak
  have hwhite : isWhiteSpace '\n' = true := by
    decide
  exact Bool.false_ne_true ((h _ hbreak).symm.trans hwhite)

theorem Spaceless.ne_space {s : String} (h : Spaceless s) {c : Char} (hc : c ∈ s.toList) :
    c ≠ ' ' := by
  rintro rfl
  have hwhite : isWhiteSpace ' ' = true := by
    decide
  exact Bool.false_ne_true ((h _ hc).symm.trans hwhite)

def splitSpace (cs : List Char) : String × String :=
  (String.ofList (cs.takeWhile (· != ' ')), String.ofList ((cs.dropWhile (· != ' ')).drop 1))

theorem splitSpace_append {s : String} (h : Spaceless s) (t : String) :
    splitSpace (s.toList ++ ' ' :: t.toList) = (s, t) := by
  have hfront : ∀ c ∈ s.toList, (c != ' ') = true := fun c hc => bne_iff_ne.2 (h.ne_space hc)
  rw [splitSpace, List.takeWhile_append_of_pos hfront, List.dropWhile_append_of_pos hfront]
  simp

end Text

end SettingsBinding
