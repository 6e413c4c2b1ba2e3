import Mathlib.Order.Bounds.Basic
import SettingsBinding.Text.Distance

/-!
The edit distance is the least number of edits. An edit inserts, deletes or replaces one character.
The rows by which the distance is computed follow the usual recursion on the two texts; by that
recursion one edit changes the distance to any text by at most one, and as many edits as the
distance says lead from one text to the other.
-/

namespace SettingsBinding.Text

/-- One edit: at the front of a text, or behind a character that stays. -/
inductive Edit : List Char → List Char → Prop
  | insert (c : Char) (a : List Char) : Edit a (c :: a)
  | delete (c : Char) (a : List Char) : Edit (c :: a) a
  | replace (c d : Char) (a : List Char) : Edit (c :: a) (d :: a)
  | behind (c : Char) {a b : List Char} (h : Edit a b) : Edit (c :: a) (c :: b)

/-- That many edits, one after the other, lead from one text to the other. -/
inductive Edits : Nat → List Char → List Char → Prop
  | none (a : List Char) : Edits 0 a a
  | step {n : Nat} {a b c : List Char} (first : Edit a b) (rest : Edits n b c) : Edits (n + 1) a c

variable {a b : List Char} {n : Nat}

/-! ### The recursion on the two texts -/

/-- The row for a text with one more character at the front has one more distance at the front. -/
theorem distanceRow_cons (a : List Char) (d : Char) (b : List Char) :
    distanceRow a (d :: b) = editDistance a (d :: b) :: distanceRow a b := by
  induction a with
  | nil => rfl
  | cons c a ih =>
      rw [distanceRow, editDistance, distanceRow, ih]
      rfl

@[simp] theorem distanceRow_nil_right (a : List Char) : distanceRow a [] = [a.length] := by
  induction a with
  | nil => rfl
  | cons c a ih => simp [distanceRow, ih, extendRow]

@[simp] theorem editDistance_nil_right (a : List Char) : editDistance a [] = a.length := by
  simp [editDistance]

theorem editDistance_cons_cons (c d : Char) (a b : List Char) :
    editDistance (c :: a) (d :: b) =
      min (editDistance a (d :: b) + 1)
        (min (editDistance (c :: a) b + 1) (editDistance a b + if c = d then 0 else 1)) := by
  rw [editDistance, distanceRow, distanceRow_cons]
  rfl

theorem editDistance_cons_left_le (c : Char) (a b : List Char) :
    editDistance (c :: a) b ≤ editDistance a b + 1 := by
  cases b with
  | nil => simp
  | cons d b =>
      rw [editDistance_cons_cons]
      omega

theorem editDistance_cons_right_le (a : List Char) (d : Char) (b : List Char) :
    editDistance a (d :: b) ≤ editDistance a b + 1 := by
  cases a with
  | nil => simp
  | cons c a =>
      rw [editDistance_cons_cons]
      omega

theorem editDistance_cons_cons_le (c d : Char) (a b : List Char) :
    editDistance (c :: a) (d :: b) ≤ editDistance a b + if c = d then 0 else 1 := by
  rw [editDistance_cons_cons]
  omega

theorem editDistance_cons_cons_cases (c d : Char) (a b : List Char) :
    editDistance (c :: a) (d :: b) = editDistance a (d :: b) + 1 ∨
      editDistance (c :: a) (d :: b) = editDistance (c :: a) b + 1 ∨
        editDistance (c :: a) (d :: b) = editDistance a b + if c = d then 0 else 1 := by
  rw [editDistance_cons_cons]
  omega

@[simp] theorem editDistance_self (a : List Char) : editDistance a a = 0 := by
  induction a with
  | nil => rfl
  | cons c a ih =>
      have := editDistance_cons_cons_le c c a a
      simpa [ih] using this

theorem editDistance_le_max (a b : List Char) : editDistance a b ≤ max a.length b.length := by
  induction a generalizing b with
  | nil => simp
  | cons c a ih =>
      cases b with
      | nil => simp
      | cons d b =>
          have hstep := editDistance_cons_cons_le c d a b
          have hrest := ih b
          simp only [List.length_cons]
          split at hstep <;> omega

/-! ### One edit costs at most one -/

theorem editDistance_le_of_insert (c : Char) (a t : List Char) :
    editDistance a t ≤ editDistance (c :: a) t + 1 := by
  induction t with
  | nil =>
      simp only [editDistance_nil_right, List.length_cons]
      omega
  | cons d t ih =>
      have hinsert := editDistance_cons_right_le a d t
      rcases editDistance_cons_cons_cases c d a t with h | h | h <;> omega

theorem editDistance_le_of_replace (c d : Char) (a t : List Char) :
    editDistance (c :: a) t ≤ editDistance (d :: a) t + 1 := by
  induction t with
  | nil => simp
  | cons e t ih =>
      have hdelete := editDistance_cons_left_le c a (e :: t)
      have hinsert := editDistance_cons_right_le (c :: a) e t
      have hreplace := editDistance_cons_cons_le c e a t
      rcases editDistance_cons_cons_cases d e a t with h | h | h
      · omega
      · omega
      · split at hreplace <;> omega

theorem editDistance_le_of_behind (c : Char) (h : ∀ t, editDistance a t ≤ editDistance b t + 1)
    (t : List Char) : editDistance (c :: a) t ≤ editDistance (c :: b) t + 1 := by
  induction t with
  | nil => simpa using h []
  | cons e t ih =>
      have hdelete := editDistance_cons_left_le c a (e :: t)
      have hinsert := editDistance_cons_right_le (c :: a) e t
      have hreplace := editDistance_cons_cons_le c e a t
      have hbelow := h (e :: t)
      have hrest := h t
      rcases editDistance_cons_cons_cases c e b t with h | h | h <;> omega

/-- An edit changes the distance to any text by one at most. -/
theorem editDistance_le_of_edit (h : Edit a b) (t : List Char) :
    editDistance a t ≤ editDistance b t + 1 := by
  induction h generalizing t with
  | insert c a => exact editDistance_le_of_insert c a t
  | delete c a => exact editDistance_cons_left_le c a t
  | replace c d a => exact editDistance_le_of_replace c d a t
  | behind c _ ih => exact editDistance_le_of_behind c ih t

theorem editDistance_le_of_edits (h : Edits n a b) : editDistance a b ≤ n := by
  induction h with
  | none a => simp
  | @step n a b t first _ ih =>
      have := editDistance_le_of_edit first t
      omega

/-! ### As many edits as the distance says -/

theorem Edits.behind (c : Char) (h : Edits n a b) : Edits n (c :: a) (c :: b) := by
  induction h with
  | none a => exact .none (c :: a)
  | step first _ ih => exact .step (.behind c first) ih

theorem Edits.delete (c : Char) (h : Edits n a b) : Edits (n + 1) (c :: a) b :=
  .step (.delete c a) h

theorem Edits.insert (d : Char) (h : Edits n a b) : Edits (n + 1) a (d :: b) :=
  .step (.insert d a) (h.behind d)

theorem Edits.replace (c d : Char) (h : Edits n a b) : Edits (n + 1) (c :: a) (d :: b) :=
  .step (.replace c d a) (h.behind d)

theorem edits_editDistance (a b : List Char) : Edits (editDistance a b) a b := by
  induction a generalizing b with
  | nil =>
      induction b with
      | nil => exact .none []
      | cons d b ih => simpa using ih.insert d
  | cons c a iha =>
      induction b with
      | nil => simpa using (iha []).delete c
      | cons d b ihb =>
          rcases editDistance_cons_cons_cases c d a b with h | h | h
          · rw [h]
            exact (iha (d :: b)).delete c
          · rw [h]
            exact ihb.insert d
          · rw [h]
            split
            · next heq =>
                rw [heq]
                exact (iha b).behind d
            · exact (iha b).replace c d

/-- The edit distance is the least number of edits that lead from one text to the other. -/
theorem isLeast_editDistance (a b : List Char) : IsLeast {n | Edits n a b} (editDistance a b) :=
  ⟨edits_editDistance a b, fun _ => editDistance_le_of_edits⟩

theorem editDistance_eq_zero_iff : editDistance a b = 0 ↔ a = b := by
  constructor
  · intro h
    have hedits := edits_editDistance a b
    rw [h] at hedits
    cases hedits
    rfl
  · rintro rfl
    exact editDistance_self a

end SettingsBinding.Text
