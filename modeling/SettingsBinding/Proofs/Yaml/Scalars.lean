import Mathlib.Data.List.TakeWhile
import SettingsBinding.Proofs.Yaml.Lines
import SettingsBinding.Proofs.Yaml.Number

/-!
The scalars of lines. A word is read as a plain scalar up to the colon behind it or to the end of
its line, and a text in single quotes up to the quote that ends it.
-/

namespace SettingsBinding.Yaml

variable {c : Char} {cs w s : List Char} {i n k room : Nat} {cursor : Cursor}
  {margin : Int}

/-! ### Characters -/

/-- A character at which no white space and no comment starts. -/
def IsSolid (c : Char) : Prop :=
  isBlank c = false ∧ isBreak c = false ∧ c ≠ '#' ∧ c ≠ byteOrderMark

instance : Decidable (IsSolid c) := inferInstanceAs (Decidable (_ ∧ _))

theorem IsWordPart.goesOn (h : IsWordPart c) : isBlank c = false ∧ isBreak c = false ∧ c ≠ ':' := by
  refine forall_of_ascii (p := fun c => IsWordPart c →
    isBlank c = false ∧ isBreak c = false ∧ c ≠ ':') ?_ (toNat_lt_of_isWordPart h) h
  decide +kernel

theorem IsWordStart.isSolid (h : IsWordStart c) : IsSolid c := by
  refine forall_of_ascii (p := fun c => IsWordStart c → IsSolid c) ?_
    (toNat_lt_of_isWordPart (.inl h)) h
  decide +kernel

/-- No other token than a plain scalar starts like a word. -/
theorem IsWordStart.notMem (h : IsWordStart c) : c ∉ '.' :: Lexer.indicators := by
  refine forall_of_ascii (p := fun c => IsWordStart c → c ∉ '.' :: Lexer.indicators) ?_
    (toNat_lt_of_isWordPart (.inl h)) h
  decide +kernel

/-! ### Between tokens -/

theorem Cursor.advance_zero (cursor : Cursor) : cursor.advance 0 = cursor := rfl

theorem Cursor.advanceWhile_of_not {p : Char → Bool} (h : cursor.rest = c :: s)
    (hp : p c = false) : cursor.advanceWhile p = cursor := by
  rw [Cursor.advanceWhile, h, List.takeWhile_cons_of_neg (by rw [hp]; exact Bool.false_ne_true)]
  rfl

/-- No mark of a document starts with another character than a dash or a dot. -/
theorem Cursor.atDocumentMark_eq_false (h : cursor.rest = c :: s) (hdash : c ≠ '-')
    (hdot : c ≠ '.') : cursor.atDocumentMark = false := by
  rw [Cursor.atDocumentMark, Bool.and_eq_false_iff, h]
  right
  split
  · next heq => exact absurd (List.cons.inj heq).1 hdash
  · next heq => exact absurd (List.cons.inj heq).1 hdot
  · rfl

/-! ### Plain scalars -/

theorem hasStrayColon_false (cs : List Char) : hasStrayColon false cs = false := by
  rw [hasStrayColon.eq_def]
  split <;> rfl

theorem readPlainRun_cons (h : endsPlain false (c :: s) = false) :
    readPlainRun false (room + 1) ⟨c :: s, i, n, k⟩ =
      (do
        let read ← readPlainRun false room ⟨s, i + 1, n, k + 1⟩
        pure (c :: read.1, read.2)) := by
  have hadvance : (⟨c :: s, i, n, k⟩ : Cursor).advance 1 = ⟨s, i + 1, n, k + 1⟩ := rfl
  rw [readPlainRun.eq_def]
  simp only [Cursor.next?, List.head?_cons, hasStrayColon_false, h, hadvance, Bool.and_false,
    Bool.false_eq_true, if_false]

theorem readPlainRun_word (hw : ∀ c ∈ w, IsWordPart c) (hend : endsPlain false s = true)
    (hroom : w.length < room) :
    readPlainRun false room ⟨w ++ s, i, n, k⟩ = some (w, ⟨s, i + w.length, n, k + w.length⟩) := by
  induction w generalizing i k room with
  | nil =>
      obtain ⟨room, rfl⟩ := Nat.exists_eq_succ_of_ne_zero (by omega : room ≠ 0)
      cases s with
      | nil => rfl
      | cons c s => simp [readPlainRun, Cursor.next?, hasStrayColon_false, hend]
  | cons c w ih =>
      obtain ⟨room, rfl⟩ := Nat.exists_eq_succ_of_ne_zero (by omega : room ≠ 0)
      obtain ⟨hblank, hbreak, hcolon⟩ := (hw c List.mem_cons_self).goesOn
      have hgoes : endsPlain false (c :: (w ++ s)) = false := by
        simp [endsPlain, hblank, hbreak, hcolon]
      rw [List.cons_append, readPlainRun_cons hgoes,
        ih (fun d hd => hw d (.tail _ hd)) (Nat.lt_of_succ_lt_succ hroom)]
      simp [Nat.add_comm, Nat.add_left_comm]

/-- What stands behind a word decides how a plain scalar goes on. -/
theorem readPlain_word (hw : IsWord w) (hend : endsPlain false s = true)
    (hroom : w.length ≤ room) :
    readPlain false margin [] {} (room + 1) ⟨w ++ s, i, n, k⟩ =
      if s = [] ∨ startsBlank s = false then
        some ⟨w, false, ⟨s, i + w.length, n, k + w.length⟩⟩
      else
        (({} : Gap).read margin (room + 1) ⟨s, i + w.length, n, k + w.length⟩).bind
          fun (gap, behind) =>
            if (behind.column : Int) < margin then some ⟨w, gap.broken, behind⟩
            else readPlain false margin w gap room behind := by
  cases w with
  | nil => cases hw
  | cons c w =>
      obtain ⟨hc, hw⟩ := hw
      have hnot : ∀ d ∈ '.' :: Lexer.indicators, c ≠ d := fun d hd heq => hc.notMem (heq ▸ hd)
      have hmark : (⟨c :: w ++ s, i, n, k⟩ : Cursor).atDocumentMark = false :=
        Cursor.atDocumentMark_eq_false rfl (hnot '-' (by decide)) (hnot '.' (by decide))
      have hnext : (⟨c :: w ++ s, i, n, k⟩ : Cursor).next? = some c := rfl
      have hrun : readPlainRun false (room + 1) (⟨c :: w ++ s, i, n, k⟩ : Cursor) = _ :=
        readPlainRun_word (List.forall_mem_cons.2 ⟨.inl hc, hw⟩) hend (Nat.lt_succ_of_le hroom)
      rw [readPlain, hmark, hnext, hrun]
      simp [hnot '#' (by decide), Gap.fold]

/-- A word in front of the colon of a line. -/
theorem readPlain_colon (hw : IsWord w) (hroom : w.length ≤ room) :
    readPlain false margin [] {} (room + 1) ⟨w ++ ':' :: ' ' :: s, i, n, k⟩ =
      some ⟨w, false, ⟨':' :: ' ' :: s, i + w.length, n, k + w.length⟩⟩ := by
  rw [readPlain_word hw rfl hroom, if_pos (.inr rfl)]

theorem readGap_lineFeed (hs : ∀ c ∈ s.head?, IsSolid c) :
    ({} : Gap).read margin (room + 1) ⟨'\n' :: s, i, n, k⟩ =
      some ({ first := ['\n'], broken := true }, ⟨s, i + 1, n + 1, 0⟩) := by
  have hbreak : (⟨'\n' :: s, i, n, k⟩ : Cursor).readBreak = (['\n'], ⟨s, i + 1, n + 1, 0⟩) := rfl
  have hgap : Gap.read margin { first := ['\n'], broken := true } room ⟨s, i + 1, n + 1, 0⟩ =
      some ({ first := ['\n'], broken := true }, ⟨s, i + 1, n + 1, 0⟩) := by
    rw [Gap.read.eq_def]
    cases s with
    | nil => cases room <;> rfl
    | cons c s =>
        obtain ⟨hblank, hbreak, -⟩ := hs c rfl
        cases room with
        | zero => rfl
        | succ room => simp [Cursor.next?, hblank, hbreak]
  rw [Gap.read.eq_def]
  simp [Cursor.next?, hbreak, hgap, show isBlank '\n' = false by decide,
    show isBreak '\n' = true by decide]

/-- A word at the end of a line, behind which there is text in front of the margin at most. -/
theorem readPlain_lineEnd (hw : IsWord w) (hs : ∀ c ∈ s.head?, IsSolid c) (hmargin : 0 < margin)
    (hroom : w.length ≤ room) :
    readPlain false margin [] {} (room + 1) ⟨w ++ '\n' :: s, i, n, k⟩ =
      some ⟨w, true, ⟨s, i + w.length + 1, n + 1, 0⟩⟩ := by
  rw [readPlain_word hw rfl hroom, if_neg (by simp [startsBlank]; decide), readGap_lineFeed hs]
  exact if_pos hmargin

/-! ### Quoted scalars -/

theorem readGap_blanks {blanks bs : List Char} (hbs : ∀ b ∈ bs, isBlank b = true)
    (hblank : isBlank c = false) (hbreak : isBreak c = false) (hroom : bs.length ≤ room) :
    Gap.read margin { blanks } room ⟨bs ++ c :: s, i, n, k⟩ =
      some ({ blanks := blanks ++ bs }, ⟨c :: s, i + bs.length, n, k + bs.length⟩) := by
  induction bs generalizing blanks i k room with
  | nil =>
      rw [Gap.read.eq_def]
      cases room <;> simp [Cursor.next?, hblank, hbreak]
  | cons b bs ih =>
      obtain ⟨room, rfl⟩ := Nat.exists_eq_succ_of_ne_zero (by simp at hroom; omega : room ≠ 0)
      have hadvance : (⟨b :: (bs ++ c :: s), i, n, k⟩ : Cursor).advance 1 =
          ⟨bs ++ c :: s, i + 1, n, k + 1⟩ := rfl
      rw [List.cons_append, Gap.read.eq_def]
      simp only [Cursor.next?, List.head?_cons, hbs b List.mem_cons_self, hadvance, Bool.false_and,
        Bool.false_eq_true, if_true, if_false]
      rw [ih (fun d hd => hbs d (.tail _ hd)) (Nat.le_of_succ_le_succ hroom)]
      simp [Nat.add_comm, Nat.add_left_comm]

theorem IsShown.isBreak_eq_false (h : IsShown c) : isBreak c = false := by
  refine forall_of_ascii (p := fun c => IsShown c → isBreak c = false) ?_ ?_ h
  · decide +kernel
  · exact Nat.lt_of_le_of_lt h.2 (by decide)

theorem readQuoted_end (hs : s.head? ≠ some '\'') :
    readQuoted true (room + 1) ⟨'\'' :: s, i, n, k⟩ = some ([], ⟨s, i + 1, n, k + 1⟩) := by
  have htwice : s.take 1 ≠ ['\''] := by
    cases s with
    | nil => nofun
    | cons c s =>
        rintro ⟨⟩
        exact hs rfl
  have hadvance : (⟨'\'' :: s, i, n, k⟩ : Cursor).advance 1 = ⟨s, i + 1, n, k + 1⟩ := rfl
  rw [readQuoted]
  simp [Cursor.atDocumentMark, Cursor.next?, htwice, hadvance,
    show isBlank '\'' = false by decide, show isBreak '\'' = false by decide]

theorem readQuoted_twice :
    readQuoted true (room + 1) ⟨'\'' :: '\'' :: s, i, n, k⟩ = (do
      let read ← readQuoted true room ⟨s, i + 2, n, k + 2⟩
      pure ('\'' :: read.1, read.2)) := by
  have hadvance : (⟨'\'' :: '\'' :: s, i, n, k⟩ : Cursor).advance 2 = ⟨s, i + 2, n, k + 2⟩ := rfl
  rw [readQuoted]
  simp [Cursor.atDocumentMark, Cursor.next?, hadvance,
    show isBlank '\'' = false by decide, show isBreak '\'' = false by decide]

theorem readQuoted_char (hblank : isBlank c = false) (hbreak : isBreak c = false) (hc : c ≠ '\'')
    (hk : k ≠ 0) :
    readQuoted true (room + 1) ⟨c :: s, i, n, k⟩ = (do
      let read ← readQuoted true room ⟨s, i + 1, n, k + 1⟩
      pure (c :: read.1, read.2)) := by
  have hadvance : (⟨c :: s, i, n, k⟩ : Cursor).advance 1 = ⟨s, i + 1, n, k + 1⟩ := rfl
  rw [readQuoted]
  simp [Cursor.atDocumentMark, hk, Cursor.next?, hadvance, hblank, hbreak, hc]

theorem readQuoted_blanks {b : Char} {bs : List Char} (hbs : ∀ d ∈ b :: bs, isBlank d = true)
    (hblank : isBlank c = false) (hbreak : isBreak c = false) (hroom : bs.length ≤ room)
    (hk : k ≠ 0) :
    readQuoted true (room + 1) ⟨b :: bs ++ c :: s, i, n, k⟩ = (do
      let read ← readQuoted true room
        ⟨c :: s, i + (b :: bs).length, n, k + (b :: bs).length⟩
      pure (b :: bs ++ read.1, read.2)) := by
  have hgap : Gap.read (-1) {} (room + 1) (⟨b :: bs ++ c :: s, i, n, k⟩ : Cursor) = _ :=
    readGap_blanks hbs hblank hbreak (Nat.succ_le_succ hroom)
  have hnext : (⟨b :: bs ++ c :: s, i, n, k⟩ : Cursor).next? = some b := rfl
  have hmark : (⟨b :: bs ++ c :: s, i, n, k⟩ : Cursor).atDocumentMark = false := by
    simp [Cursor.atDocumentMark, hk]
  rw [readQuoted, hmark, hnext, hgap]
  simp [hbs b List.mem_cons_self, Gap.fold]

theorem quote_cons (c : Char) (cs : List Char) :
    LineValue.quote (c :: cs) = (if c = '\'' then ['\'', '\''] else [c]) ++ LineValue.quote cs :=
  rfl

theorem quote_append_of_isBlank {bs : List Char} (h : ∀ b ∈ bs, isBlank b = true)
    (cs : List Char) : LineValue.quote (bs ++ cs) = bs ++ LineValue.quote cs := by
  induction bs with
  | nil => rfl
  | cons b bs ih =>
      obtain ⟨hb, hbs⟩ := List.forall_mem_cons.1 h
      have hquote : b ≠ '\'' := by
        rintro rfl
        cases hb
      rw [List.cons_append, quote_cons, if_neg hquote, ih hbs]
      rfl

/-- Behind the blanks in a text, or in front of its end, there is a character. -/
theorem exists_quote_eq_cons (hcs : ∀ c ∈ cs, IsShown c)
    (hhead : ∀ c ∈ cs.head?, isBlank c = false) :
    ∃ d rest, LineValue.quote cs ++ '\'' :: s = d :: rest ∧ isBlank d = false ∧
      isBreak d = false := by
  cases cs with
  | nil => exact ⟨'\'', s, rfl, by decide, by decide⟩
  | cons c cs =>
      by_cases hquote : c = '\''
      · exact ⟨'\'', _, by rw [quote_cons, if_pos hquote]; rfl, by decide, by decide⟩
      · exact ⟨c, _, by rw [quote_cons, if_neg hquote]; rfl, hhead c rfl,
          (hcs c List.mem_cons_self).isBreak_eq_false⟩

theorem exists_blanks_append (cs : List Char) :
    ∃ blanks rest, cs = blanks ++ rest ∧ (∀ b ∈ blanks, isBlank b = true) ∧
      ∀ c ∈ rest.head?, isBlank c = false := by
  refine ⟨cs.takeWhile isBlank, cs.dropWhile isBlank, List.takeWhile_append_dropWhile.symm,
    fun b hb => List.mem_takeWhile_imp hb, fun c hc => ?_⟩
  have hnot := List.head?_dropWhile_not isBlank cs
  rw [hc] at hnot
  exact hnot

/-- A text in single quotes is read up to the quote that ends it. Blanks are read together, so the
induction is on the length of what is left. -/
theorem readQuoted_quote (hcs : ∀ c ∈ cs, IsShown c) (hs : s.head? ≠ some '\'') (hk : k ≠ 0)
    (hroom : cs.length < room) :
    ∃ i' k', readQuoted true room ⟨LineValue.quote cs ++ '\'' :: s, i, n, k⟩ =
      some (cs, ⟨s, i', n, k'⟩) := by
  induction hlength : cs.length using Nat.strong_induction_on generalizing cs i k room with
  | _ length ih =>
    subst hlength
    obtain ⟨room, rfl⟩ := Nat.exists_eq_succ_of_ne_zero (by omega : room ≠ 0)
    cases cs with
    | nil => exact ⟨_, _, readQuoted_end hs⟩
    | cons c cs =>
        obtain ⟨hc, hcs⟩ := List.forall_mem_cons.1 hcs
        rw [List.length_cons] at hroom
        by_cases hblank : isBlank c = true
        · obtain ⟨blanks, rest, rfl, hblanks, hbehind⟩ := exists_blanks_append cs
          have hall : ∀ b ∈ c :: blanks, isBlank b = true :=
            List.forall_mem_cons.2 ⟨hblank, hblanks⟩
          have hshown : ∀ d ∈ rest, IsShown d := fun d hd => hcs d (List.mem_append_right _ hd)
          have hquote : LineValue.quote (c :: (blanks ++ rest)) =
              c :: blanks ++ LineValue.quote rest := quote_append_of_isBlank hall rest
          rw [List.length_append] at hroom
          obtain ⟨d, behind, hd, hdblank, hdbreak⟩ := exists_quote_eq_cons hshown hbehind (s := s)
          have hroom' : blanks.length ≤ room := by omega
          obtain ⟨i', k', hrest⟩ := ih rest.length
            (by rw [List.length_cons, List.length_append]; omega) hshown
            (by omega : k + (c :: blanks).length ≠ 0) (by omega : _ < room) rfl
          refine ⟨i', k', ?_⟩
          rw [hquote, List.append_assoc, hd, readQuoted_blanks hall hdblank hdbreak hroom' hk,
            ← hd, hrest]
          rfl
        · rw [Bool.not_eq_true] at hblank
          have hroom' : cs.length < room := Nat.lt_of_succ_lt_succ hroom
          by_cases hquote : c = '\''
          · obtain ⟨i', k', hrest⟩ :=
              ih _ (Nat.lt_succ_self _) hcs (Nat.succ_ne_zero (k + 1)) hroom' rfl
            refine ⟨i', k', ?_⟩
            rw [quote_cons, if_pos hquote, hquote, List.append_assoc, List.cons_append,
              List.singleton_append, readQuoted_twice, hrest]
            rfl
          · obtain ⟨i', k', hrest⟩ := ih _ (Nat.lt_succ_self _) hcs (Nat.succ_ne_zero k) hroom' rfl
            refine ⟨i', k', ?_⟩
            rw [quote_cons, if_neg hquote, List.append_assoc, List.singleton_append,
              readQuoted_char hblank hc.isBreak_eq_false hquote hk, hrest]
            rfl

end SettingsBinding.Yaml
