import SettingsBinding.Proofs.Yaml.Scalars

/-!
The tokens of lines. A word is a plain scalar, and a key once the colon behind it is met, so that
the tokens of a line stand behind those of the lines before it, with the start of the mapping in
front of the first ones. A word at the start of a line has to be a key where a mapping goes on.
-/

namespace SettingsBinding.Yaml

variable {c : Char} {cs w s : List Char} {i n k room : Nat} {l l' : Lexer}

/-! ### Lines -/

def Line.tokens (line : Line) : List Token :=
  [.key, .scalar .plain (String.ofList line.name), .value,
    .scalar line.value.style line.value.meaning]

theorem isSolid_head?_word (hw : IsWord w) : ∀ c ∈ (w ++ s).head?, IsSolid c := by
  cases w with
  | nil => cases hw
  | cons c w =>
      rintro d ⟨⟩
      exact hw.1.isSolid

theorem isSolid_head?_lines (lines : List Line) (hs : ∀ c ∈ s.head?, IsSolid c) :
    ∀ c ∈ (lines.flatMap Line.text ++ s).head?, IsSolid c := by
  cases lines with
  | nil => exact hs
  | cons line lines =>
      rw [List.flatMap_cons, List.append_assoc, Line.text_append]
      exact isSolid_head?_word line.isWord_name

/-! ### The next token -/

namespace Lexer

variable {tokens : Array Token} {outer : List Int} {indent : Int} {t : Token} {a required : Bool}
  {r : List Char} {j m : Nat}

theorem skipBlank_of_isSolid (h : l.cursor.rest = c :: s) (hc : IsSolid c) :
    l.skipBlank (room + 1) = l := by
  obtain ⟨hblank, hbreak, hcomment, hmark⟩ := hc
  have hnext : l.cursor.next? = some c := by rw [Cursor.next?, h]; rfl
  simp only [isBlank, Bool.or_eq_false_iff] at hblank
  rw [skipBlank, hnext]
  simp only [Option.some.injEq, hmark, and_false, if_false]
  rw [Cursor.advanceWhile_of_not h (by simp [hblank])]
  simp [hnext, hcomment, hbreak, moveTo]

theorem skipBlank_nil (h : l.cursor.rest = []) : l.skipBlank (room + 1) = l := by
  have hnext : l.cursor.next? = none := by rw [Cursor.next?, h]; rfl
  have hadvance : ∀ p, l.cursor.advanceWhile p = l.cursor := by
    intro p
    rw [Cursor.advanceWhile, h]
    exact Cursor.advance_zero l.cursor
  rw [skipBlank, hnext]
  simp [hadvance, hnext, moveTo]

theorem skipBlank_space (h : l.cursor.rest = ' ' :: c :: s) (hc : IsSolid c) :
    l.skipBlank (room + 1) = l.moveTo (l.cursor.advance 1) := by
  obtain ⟨hblank, hbreak, hcomment, hmark⟩ := hc
  have hnext : l.cursor.next? = some ' ' := by rw [Cursor.next?, h]; rfl
  have hbehind : (l.cursor.advance 1).next? = some c := by
    rw [Cursor.next?, Cursor.advance, h]
    rfl
  simp only [isBlank, Bool.or_eq_false_iff] at hblank
  have hadvance : ∀ p : Char → Bool, p ' ' = true → p c = false →
      l.cursor.advanceWhile p = l.cursor.advance 1 := by
    intro p hspace hp
    rw [Cursor.advanceWhile, h, List.takeWhile_cons_of_pos hspace,
      List.takeWhile_cons_of_neg (by rw [hp]; exact Bool.false_ne_true)]
    rfl
  rw [skipBlank, hnext]
  simp only [Option.some.injEq, show ' ' ≠ byteOrderMark by decide, and_false, if_false]
  rw [hadvance _ rfl (by simp [hblank])]
  simp [hbehind, hcomment, hbreak]

theorem skipBlank_lineFeed (h : l.cursor.rest = '\n' :: s) (houter : l.outerKeys = []) :
    l.skipBlank (room + 1) =
      skipBlank room { l with
        cursor := ⟨s, l.cursor.index + 1, l.cursor.line + 1, 0⟩
        keyAllowed := true } := by
  have hnext : l.cursor.next? = some '\n' := by rw [Cursor.next?, h]; rfl
  have hbreak : l.cursor.readBreak = (['\n'], ⟨s, l.cursor.index + 1, l.cursor.line + 1, 0⟩) := by
    rw [Cursor.readBreak, h]
    rfl
  rw [skipBlank, hnext]
  simp only [Option.some.injEq, show '\n' ≠ byteOrderMark by decide, and_false, if_false]
  rw [Cursor.advanceWhile_of_not h (by simp)]
  simp [hnext, hbreak, inFlow, houter, show isBreak '\n' = true by decide]

theorem ready_eq_some (hskip : l.skipBlank (l.cursor.rest.length + 1) = l')
    (hkey : ∀ key ∈ l'.possibleKey, key.isStale l'.cursor = false) (houter : l'.outerKeys = [])
    (hindent : l'.indent ≤ (l'.cursor.column : Int)) : l.ready = some l' := by
  obtain ⟨cursor, tokens, indent, outerIndents, keyAllowed, possibleKey, outerKeys⟩ := l'
  obtain rfl : outerKeys = [] := houter
  have hdrop : dropStale cursor possibleKey = some possibleKey := by
    cases possibleKey with
    | none => rfl
    | some key => rw [dropStale, hkey key rfl]; rfl
  have hunindent : unindentTo (cursor.column : Int) indent outerIndents tokens =
      (indent, outerIndents, tokens) := by
    rw [unindentTo.eq_def, if_neg (Int.not_lt.2 hindent)]
  simp [ready, hskip, dropStaleKeys, hdrop, unindent, inFlow, hunindent]

/-! ### One token -/

inductive Reads (l l' : Lexer) : Prop
  | intro {ready : Lexer} {c : Char} {rest : List Char} (hready : l.ready = some ready)
      (hrest : ready.cursor.rest = c :: rest) (htoken : ready.token c rest = some l')

theorem Reads.run (h : Reads l l') : l.run (room + 1) = l'.run room := by
  obtain ⟨hready, hrest, htoken⟩ := h
  rw [Lexer.run, hready, Option.bind_eq_bind, Option.bind_some, hrest]
  exact congrArg (Option.bind · (Lexer.run room)) htoken

theorem run_nil (hready : l.ready = some l') (hrest : l'.cursor.rest = []) :
    l.run room = l'.finish := by
  cases room with
  | zero => rw [Lexer.run, hready]; rfl
  | succ room =>
      rw [Lexer.run, hready, Option.bind_eq_bind, Option.bind_some, hrest]

/-- A word is read as a plain scalar. -/
theorem token_wordStart (hrest : l.cursor.rest = c :: s) (hc : IsWordStart c) :
    l.token c s = l.plain := by
  have hnot : ∀ d ∈ '.' :: indicators, c ≠ d := fun d hd heq => hc.notMem (heq ▸ hd)
  have hmark := Cursor.atDocumentMark_eq_false hrest (hnot '-' (by decide)) (hnot '.' (by decide))
  have hplain : startsPlain l.inFlow c s = true := by
    have hindicators : indicators.contains c = false := by
      rw [List.contains_eq_mem, decide_eq_false_iff_not]
      exact fun hmem => hnot c (.tail _ hmem) rfl
    rw [startsPlain, hc.isSolid.1, hc.isSolid.2.1, hindicators]
    rfl
  have hne : ∀ d ∈ '.' :: indicators, (c == d) = false :=
    fun d hd => beq_eq_false_iff_ne.2 (hnot d hd)
  rw [token.eq_def]
  simp only [hne '%' (by decide), hmark, Bool.and_false, Bool.false_eq_true, if_false]
  split
  all_goals first
    | exact absurd rfl (hnot _ (by decide))
    | skip
  simp [hne '-' (by decide), hne '?' (by decide), hne ':' (by decide), hne '|' (by decide),
    hne '>' (by decide), hplain]

theorem saveKey_of_not (h : l.keyAllowed = false) : l.saveKey = some l := by
  rw [saveKey, h]
  rfl

theorem saveKey_of_keyAllowed (h : l.keyAllowed = true) (hkey : l.possibleKey = none) :
    l.saveKey = some { l with
      possibleKey := some
        ⟨!l.inFlow && l.indent == (l.cursor.column : Int), l.tokens.size, l.cursor⟩ } := by
  rw [saveKey, if_pos h, dropKey, hkey]
  rfl

theorem plain_eq_some {read : ReadScalar} (hkey : l.saveKey = some l')
    (hread : readPlain l'.inFlow (l'.indent + 1) [] {} (l'.cursor.rest.length + 1) l'.cursor =
      some read) :
    l.plain = some (((l'.allowKey read.lineEnded).moveTo read.cursor).push
      (.scalar .plain (String.ofList read.text))) := by
  rw [plain, hkey, Option.bind_eq_bind, Option.bind_some, hread]
  rfl

/-- White space in front of a token goes with it. -/
theorem reads_of_isSolid (hrest : l.cursor.rest = c :: s) (hc : IsSolid c)
    (hkey : ∀ key ∈ l.possibleKey, key.isStale l.cursor = false) (houter : l.outerKeys = [])
    (hindent : l.indent ≤ (l.cursor.column : Int)) (htoken : l.token c s = some l') :
    Reads l l' :=
  .intro (ready_eq_some (skipBlank_of_isSolid hrest hc) hkey houter hindent) hrest htoken

theorem reads_of_space (hrest : l.cursor.rest = ' ' :: c :: s) (hc : IsSolid c)
    (hkey : l.possibleKey = none) (houter : l.outerKeys = [])
    (hindent : l.indent ≤ (l.cursor.column : Int))
    (htoken : (l.moveTo (l.cursor.advance 1)).token c s = some l') : Reads l l' := by
  refine .intro (ready_eq_some (skipBlank_space hrest hc) (by simp [moveTo, hkey]) houter ?_) ?_
    htoken
  · simp [moveTo, Cursor.advance]
    omega
  · simp [moveTo, Cursor.advance, hrest]

/-! ### The tokens of a line -/

/-- In a mapping at the first column, where a key may start or not. -/
def inMapping (cursor : Cursor) (tokens : Array Token) (keyAllowed : Bool) : Lexer :=
  { cursor, tokens, indent := 0, outerIndents := [-1], keyAllowed }

/-- The name of a line, which may be a key. -/
theorem reads_name (hw : IsWord w) (hindent : indent ≤ 0) :
    Reads ⟨⟨w ++ ':' :: ' ' :: s, i, n, 0⟩, tokens, indent, outer, true, none, []⟩
      ⟨⟨':' :: ' ' :: s, i + w.length, n, 0 + w.length⟩,
        tokens.push (.scalar .plain (String.ofList w)), indent, outer, false,
        some ⟨indent == 0, tokens.size, ⟨w ++ ':' :: ' ' :: s, i, n, 0⟩⟩, []⟩ := by
  cases w with
  | nil => cases hw
  | cons c w =>
      have hkey := saveKey_of_keyAllowed rfl rfl
        (l := ⟨⟨c :: w ++ ':' :: ' ' :: s, i, n, 0⟩, tokens, indent, outer, true, none, []⟩)
      refine reads_of_isSolid rfl hw.1.isSolid nofun rfl hindent ?_
      exact (token_wordStart rfl hw.1).trans
        (plain_eq_some hkey (readPlain_colon hw (by simp)))

theorem insertIdxIfInBounds_size (tokens behind : Array Token) (t : Token) :
    (tokens ++ behind).insertIdxIfInBounds tokens.size t = tokens ++ #[t] ++ behind := by
  have hinsert : ∀ ts us : List Token, (ts ++ us).insertIdx ts.length t = ts ++ t :: us := by
    intro ts us
    induction ts with
    | nil => rfl
    | cons head ts ih => exact congrArg (head :: ·) ih
  apply Array.toList_inj.1
  rw [Array.insertIdxIfInBounds, dif_pos (by simp), Array.toList_insertIdx, Array.toList_append,
    ← Array.length_toList, hinsert]
  simp

theorem token_colon (hrest : l.cursor.rest = ':' :: ' ' :: s) :
    l.token ':' (' ' :: s) = l.value := by
  have hmark := Cursor.atDocumentMark_eq_false hrest (by decide) (by decide)
  have hblank : startsBlank (' ' :: s) = true := rfl
  simp [token, hmark, hblank]

/-- The colon makes a key of the token before it, and starts the mapping that it is the first key
of. -/
theorem reads_colon (hlength : i ≤ j + 1024) (hindent : indent ≤ k) :
    Reads ⟨⟨':' :: ' ' :: s, i, n, k⟩, tokens.push t, indent, outer, a,
        some ⟨required, tokens.size, ⟨r, j, n, m⟩⟩, []⟩
      (if indent < m then
        ⟨⟨' ' :: s, i + 1, n, k + 1⟩, tokens ++ #[.blockStart .mapping, .key, t, .value], m,
          indent :: outer, false, none, []⟩
      else
        ⟨⟨' ' :: s, i + 1, n, k + 1⟩, tokens ++ #[.key, t, .value], indent, outer, false, none,
          []⟩) := by
  have hstale : ∀ key ∈ some (⟨required, tokens.size, ⟨r, j, n, m⟩⟩ : PossibleKey),
      key.isStale ⟨':' :: ' ' :: s, i, n, k⟩ = false := by
    rintro key ⟨⟩
    rw [PossibleKey.isStale, Bool.or_eq_false_iff, decide_eq_false_iff_not, decide_eq_false_iff_not]
    exact ⟨Nat.lt_irrefl n, Nat.not_lt.2 hlength⟩
  refine reads_of_isSolid rfl (by decide) hstale rfl hindent ((token_colon rfl).trans ?_)
  have hkey : (tokens.push t).insertIdxIfInBounds tokens.size .key = tokens ++ #[.key, t] := by
    rw [Array.push_eq_append, insertIdxIfInBounds_size, Array.append_assoc]
    rfl
  have hadvance : (⟨':' :: ' ' :: s, i, n, k⟩ : Cursor).advance 1 =
      ⟨' ' :: s, i + 1, n, k + 1⟩ := rfl
  simp only [value, hkey, indentTo, indicator]
  split_ifs with h₁ h₂ h₂
  · simp [insertIdxIfInBounds_size, push, moveTo, allowKey, hadvance]
  · simp [inFlow] at h₁
    exact absurd h₁ h₂
  · simp [inFlow] at h₁
    exact absurd h₂ (by omega)
  · simp [push, moveTo, allowKey, hadvance]

theorem reads_word (hw : IsWord w) (hs : ∀ c ∈ s.head?, IsSolid c) :
    Reads (inMapping ⟨' ' :: (w ++ '\n' :: s), i, n, k⟩ tokens false)
      (inMapping ⟨s, i + 1 + w.length + 1, n + 1, 0⟩
        (tokens.push (.scalar .plain (String.ofList w))) true) := by
  cases w with
  | nil => cases hw
  | cons c w =>
      have hkey := saveKey_of_not rfl
        (l := inMapping ⟨c :: w ++ '\n' :: s, i + 1, n, k + 1⟩ tokens false)
      refine reads_of_space rfl hw.1.isSolid rfl rfl (Int.natCast_nonneg k) ?_
      exact (token_wordStart rfl hw.1).trans (plain_eq_some hkey
        (readPlain_lineEnd hw hs (by decide : (0 : Int) < 0 + 1) (by simp [inMapping])))

theorem token_quote (hrest : l.cursor.rest = '\'' :: s) : l.token '\'' s = l.quoted true := by
  have hmark := Cursor.atDocumentMark_eq_false hrest (by decide) (by decide)
  simp [token, hmark]

theorem length_le_length_quote (cs : List Char) : cs.length ≤ (LineValue.quote cs).length := by
  induction cs with
  | nil => rfl
  | cons c cs ih =>
      rw [quote_cons]
      split <;> simp <;> omega

theorem quoted_eq_some {cursor : Cursor} (hkey : l.saveKey = some l')
    (hread : readQuoted true (l'.cursor.rest.length + 1) (l'.cursor.advance 1) =
      some (cs, cursor)) :
    l.quoted true = some (((l'.allowKey false).moveTo cursor).push
      (.scalar .singleQuoted (String.ofList cs))) := by
  rw [quoted, node, hkey, Option.bind_eq_bind, Option.bind_some, hread]
  rfl

theorem reads_quoted (hcs : ∀ c ∈ cs, IsShown c) (hs : s.head? ≠ some '\'') :
    ∃ i' k', Reads
      (inMapping ⟨' ' :: '\'' :: (LineValue.quote cs ++ '\'' :: s), i, n, k⟩ tokens false)
      (inMapping ⟨s, i', n, k'⟩
        (tokens.push (.scalar .singleQuoted (String.ofList cs))) false) := by
  have hlength : cs.length < ('\'' :: (LineValue.quote cs ++ '\'' :: s)).length + 1 := by
    have hquote := length_le_length_quote cs
    rw [List.length_cons, List.length_append]
    omega
  obtain ⟨i', k', hread⟩ := readQuoted_quote hcs hs (Nat.succ_ne_zero (k + 1)) hlength (i := i + 2)
    (n := n)
  refine ⟨i', k', reads_of_space rfl (by decide) rfl rfl (Int.natCast_nonneg k) ?_⟩
  exact (token_quote rfl).trans (quoted_eq_some (saveKey_of_not rfl) hread)

/-- A line break in front of a token is read with it. -/
theorem run_lineFeed {a : Bool} :
    run room (inMapping ⟨'\n' :: s, i, n, k⟩ tokens a) =
      run room (inMapping ⟨s, i + 1, n + 1, 0⟩ tokens true) := by
  have hready : (inMapping ⟨'\n' :: s, i, n, k⟩ tokens a).ready =
      (inMapping ⟨s, i + 1, n + 1, 0⟩ tokens true).ready := by
    rw [ready, skipBlank_lineFeed rfl rfl]
    rfl
  cases room with
  | zero => rw [run, run, hready]
  | succ room => rw [run, run, hready]

/-- A value is read to the end of its line. -/
theorem run_value (value : LineValue) (hs : ∀ c ∈ s.head?, IsSolid c) :
    ∃ i' n', run (room + 1) (inMapping ⟨' ' :: (value.text ++ '\n' :: s), i, n, k⟩ tokens false) =
      run room
        (inMapping ⟨s, i', n', 0⟩ (tokens.push (.scalar value.style value.meaning)) true) := by
  cases value with
  | word w hw => exact ⟨_, _, (reads_word hw hs).run⟩
  | quoted cs hcs =>
      obtain ⟨i', k', hread⟩ := reads_quoted hcs (s := '\n' :: s) (by simp)
      have htext : (LineValue.quoted cs hcs).text ++ '\n' :: s =
          '\'' :: (LineValue.quote cs ++ '\'' :: '\n' :: s) := by
        simp [LineValue.text]
      exact ⟨_, _, by rw [htext, hread.run, run_lineFeed]; rfl⟩

theorem run_line (line : Line) (hs : ∀ c ∈ s.head?, IsSolid c) :
    ∃ i' n', run (room + 3) (inMapping ⟨line.text ++ s, i, n, 0⟩ tokens true) =
      run room (inMapping ⟨s, i', n', 0⟩ (tokens ++ line.tokens.toArray) true) := by
  obtain ⟨i', n', hvalue⟩ := run_value line.value hs
  refine ⟨i', n', ?_⟩
  rw [inMapping, Line.text_append, (reads_name line.isWord_name (Int.le_refl 0)).run,
    (reads_colon (Nat.add_le_add_left line.length_name i) (Int.natCast_nonneg _)).run,
    if_neg (by simp), ← inMapping, hvalue]
  simp [Line.tokens]

/-- The first line also starts the mapping. -/
theorem run_firstLine (line : Line) (hs : ∀ c ∈ s.head?, IsSolid c) (room : Nat) :
    ∃ i' n', run (room + 3) { cursor := { rest := line.text ++ s } } =
      run room (inMapping ⟨s, i', n', 0⟩ (.blockStart .mapping :: line.tokens).toArray true) := by
  obtain ⟨i', n', hvalue⟩ := run_value line.value hs
  refine ⟨i', n', ?_⟩
  rw [Line.text_append, (reads_name line.isWord_name (by decide)).run,
    (reads_colon (Nat.add_le_add_left line.length_name 0) (by simp)).run, if_pos (by decide),
    Nat.cast_zero, ← inMapping, hvalue]
  simp [Line.tokens]

theorem run_lines (lines : List Line) (hs : ∀ c ∈ s.head?, IsSolid c) (room : Nat)
    (tokens : Array Token) :
    ∃ i' n', run (room + 3 * lines.length)
        (inMapping ⟨lines.flatMap Line.text ++ s, i, n, 0⟩ tokens true) =
      run room
        (inMapping ⟨s, i', n', 0⟩ (tokens ++ (lines.flatMap Line.tokens).toArray) true) := by
  induction lines generalizing i n tokens with
  | nil => exact ⟨i, n, by simp⟩
  | cons line lines ih =>
      obtain ⟨i₁, n₁, hline⟩ := run_line line (isSolid_head?_lines lines hs)
      obtain ⟨i', n', hlines⟩ := ih (tokens ++ line.tokens.toArray) (i := i₁) (n := n₁)
      refine ⟨i', n', ?_⟩
      rw [List.flatMap_cons, List.append_assoc, List.length_cons, Nat.mul_succ, ← Nat.add_assoc,
        hline, hlines]
      simp

/-- A mapping cannot go on with a line without a colon: the word has to be a key, and it is too late
for the colon when the line has ended. -/
theorem run_strayWord (hw : IsWord w) :
    run (room + 1) (inMapping ⟨w ++ ['\n'], i, n, 0⟩ tokens true) = none := by
  have hword : Reads (inMapping ⟨w ++ ['\n'], i, n, 0⟩ tokens true)
      { inMapping ⟨[], i + w.length + 1, n + 1, 0⟩
          (tokens.push (.scalar .plain (String.ofList w))) true with
        possibleKey := some ⟨true, tokens.size, ⟨w ++ ['\n'], i, n, 0⟩⟩ } := by
    cases w with
    | nil => cases hw
    | cons c w =>
        have hkey := saveKey_of_keyAllowed rfl rfl
          (l := inMapping ⟨c :: w ++ ['\n'], i, n, 0⟩ tokens true)
        refine reads_of_isSolid rfl hw.1.isSolid nofun rfl (Int.le_refl 0) ?_
        exact (token_wordStart rfl hw.1).trans (plain_eq_some hkey
          (readPlain_lineEnd hw nofun (by decide : (0 : Int) < 0 + 1) (by simp [inMapping])))
  have hready : ready { inMapping ⟨[], i + w.length + 1, n + 1, 0⟩
          (tokens.push (.scalar .plain (String.ofList w))) true with
        possibleKey := some ⟨true, tokens.size, ⟨w ++ ['\n'], i, n, 0⟩⟩ } = none := by
    rw [ready, skipBlank_nil rfl, dropStaleKeys]
    simp [dropStale, PossibleKey.isStale, inMapping]
  rw [hword.run]
  cases room with
  | zero => rw [run, hready]; rfl
  | succ room => rw [run, hready]; rfl

theorem run_end : run room (inMapping ⟨[], i, n, 0⟩ tokens true) =
    some (tokens.push .blockEnd).toList := by
  have hready : ready (inMapping ⟨[], i, n, 0⟩ tokens true) =
      some (inMapping ⟨[], i, n, 0⟩ tokens true) :=
    ready_eq_some (skipBlank_nil rfl) nofun rfl (Int.le_refl 0)
  exact run_nil hready rfl

end Lexer

/-! ### Documents -/

theorem isAllowed_of_isWordPart (h : IsWordPart c) : isAllowed c = true := by
  refine forall_of_ascii (p := fun c => IsWordPart c → isAllowed c = true) ?_
    (toNat_lt_of_isWordPart h) h
  decide +kernel

theorem isAllowed_of_isShown (h : IsShown c) : isAllowed c = true := by
  refine forall_of_ascii (p := fun c => IsShown c → isAllowed c = true) ?_
    (Nat.lt_of_le_of_lt h.2 (by decide)) h
  decide +kernel

theorem isAllowed_of_mem_word (hw : IsWord w) (hc : c ∈ w) : isAllowed c = true := by
  cases w with
  | nil => cases hw
  | cons d w =>
      cases hc with
      | head => exact isAllowed_of_isWordPart (.inl hw.1)
      | tail _ hc => exact isAllowed_of_isWordPart (hw.2 c hc)

theorem isAllowed_of_mem_value (value : LineValue) (hc : c ∈ value.text) : isAllowed c = true := by
  cases value with
  | word w hw => exact isAllowed_of_mem_word hw hc
  | quoted cs hcs =>
      rw [LineValue.text, List.cons_append, List.mem_cons, List.mem_append, List.mem_singleton,
        LineValue.quote, List.mem_flatMap] at hc
      obtain rfl | ⟨d, hd, hc⟩ | rfl := hc
      · decide
      · split at hc
        · simp only [List.mem_cons, List.not_mem_nil, or_false, or_self] at hc
          rw [hc]
          decide
        · rw [List.mem_singleton] at hc
          exact isAllowed_of_isShown (hc ▸ hcs d hd)
      · decide

theorem isAllowed_of_mem_lines (lines : List Line) (hc : c ∈ lines.flatMap Line.text) :
    isAllowed c = true := by
  obtain ⟨line, -, hc⟩ := List.mem_flatMap.1 hc
  simp only [Line.text, List.mem_append, List.mem_cons, List.not_mem_nil, or_false] at hc
  obtain ((hname | rfl | rfl) | hvalue) | rfl := hc
  · exact isAllowed_of_mem_word line.isWord_name hname
  · decide
  · decide
  · exact isAllowed_of_mem_value line.value hvalue
  · decide

/-- Each line has room for its tokens. -/
theorem length_lines_le (lines : List Line) :
    3 * lines.length ≤ (lines.flatMap Line.text).length := by
  induction lines with
  | nil => exact Nat.le_refl 0
  | cons line lines ih =>
      have hline : 3 ≤ line.text.length := by
        simp [Line.text]
        omega
      rw [List.flatMap_cons, List.length_append, List.length_cons]
      omega

theorem tokens?_lines (line : Line) (lines : List Line) (hallowed : s.all isAllowed = true)
    (hs : ∀ c ∈ s.head?, IsSolid c) :
    ∃ room i n, tokens? (String.ofList ((line :: lines).flatMap Line.text ++ s)) =
      Lexer.run (room + s.length + 1) (Lexer.inMapping ⟨s, i, n, 0⟩
        (.blockStart .mapping :: (line :: lines).flatMap Line.tokens).toArray true) := by
  have hlength := length_lines_le (line :: lines)
  obtain ⟨room, hroom⟩ := Nat.exists_eq_add_of_le' hlength
  obtain ⟨i₁, n₁, hfirst⟩ := Lexer.run_firstLine line (isSolid_head?_lines lines hs)
    (room + s.length + 1 + 3 * lines.length)
  obtain ⟨i, n, hlines⟩ := Lexer.run_lines lines hs (room + s.length + 1)
    (.blockStart .mapping :: line.tokens).toArray (i := i₁) (n := n₁)
  have hall : ((line :: lines).flatMap Line.text ++ s).all isAllowed = true := by
    rw [List.all_append, hallowed, Bool.and_true, List.all_eq_true]
    exact fun c hc => isAllowed_of_mem_lines (line :: lines) hc
  have hsize : ((line :: lines).flatMap Line.text ++ s).length + 1 =
      room + s.length + 1 + 3 * lines.length + 3 := by
    rw [List.length_append, hroom, List.length_cons]
    omega
  refine ⟨room, i, n, ?_⟩
  rw [tokens?, String.toList_ofList, if_pos hall, hsize, List.flatMap_cons, List.append_assoc,
    hfirst, hlines]
  simp

theorem tokens?_document (line : Line) (lines : List Line) :
    tokens? (Line.document (line :: lines)) =
      some (.blockStart .mapping :: (line :: lines).flatMap Line.tokens ++ [.blockEnd]) := by
  obtain ⟨room, i, n, h⟩ := tokens?_lines line lines (s := []) rfl nofun
  rw [List.append_nil] at h
  rw [Line.document, h, Lexer.run_end]
  simp

theorem tokens?_brokenDocument (line : Line) (lines : List Line) (hw : IsWord w) :
    tokens? (Line.brokenDocument (line :: lines) w) = none := by
  have hallowed : (w ++ ['\n']).all isAllowed = true := by
    rw [List.all_append, List.all_eq_true.2 fun c hc => isAllowed_of_mem_word hw hc]
    rfl
  obtain ⟨room, i, n, h⟩ := tokens?_lines line lines hallowed (isSolid_head?_word hw)
  rw [Line.brokenDocument, h, Lexer.run_strayWord hw]

end SettingsBinding.Yaml
