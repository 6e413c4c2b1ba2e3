import SettingsBinding.Files.Tree
import SettingsBinding.Proofs.Steps

/-!
What the operations on a tree of files change. A path that leads somewhere leads there still after
directories were made at missing places and files were written where there is no directory; so a
directory that was made is found under its path, and a file that was written is read back.
-/

namespace SettingsBinding

namespace Path

variable {α : Type} {test : α → Bool} {p : Path}

/-- The directories above a path, the nearest first. -/
def above (p : Path) : List Path := (p.parent?.map ancestors).getD []

theorem mem_ancestorsWithin (room : Nat) (p : Path) : p ∈ p.ancestorsWithin room := by
  cases room with
  | zero => exact List.mem_singleton_self p
  | succ room =>
      rw [ancestorsWithin]
      split
      · exact List.mem_singleton_self p
      · exact List.mem_cons_self

/-- What is dropped from the end satisfies the test, and what is left does not end that way. -/
theorem exists_eq_dropLastWhile_append (test : α → Bool) (xs : List α) :
    ∃ dropped, xs = dropLastWhile test xs ++ dropped ∧ ∀ x ∈ dropped, test x = true := by
  refine ⟨(xs.reverse.takeWhile test).reverse, ?_, fun x hx => ?_⟩
  · rw [dropLastWhile, ← List.reverse_append, List.takeWhile_append_dropWhile, List.reverse_reverse]
  · exact List.all_eq_true.1 (List.all_takeWhile (p := test)) x (List.mem_reverse.1 hx)

theorem dropLastWhile_append_singleton {x : α} (hx : test x = false) (xs : List α) :
    dropLastWhile test (xs ++ [x]) = xs ++ [x] := by
  simp [dropLastWhile, hx]

theorem intercalate_append_nil (c : Char) {parts : List (List Char)} (h : parts ≠ []) :
    [c].intercalate (parts ++ [[]]) = [c].intercalate parts ++ [c] := by
  induction parts with
  | nil => exact absurd rfl h
  | cons part parts ih =>
      cases parts with
      | nil => simp [List.intercalate_cons_cons]
      | cons other parts =>
          rw [List.cons_append, List.cons_append, List.intercalate_cons_cons,
            List.intercalate_cons_cons, ← List.cons_append, ih (List.cons_ne_nil _ _)]
          simp

/-- The last piece is a name or dots, unless the path is empty or ends with a slash. -/
theorem exists_pieces_eq_append (hempty : p.text ≠ "")
    (hslash : p.text.toList.getLast? ≠ some '/') :
    ∃ front name, p.pieces = front ++ [name] ∧ name ≠ "" := by
  have hjoin : ['/'].intercalate (p.text.toList.splitOn '/') = p.text.toList :=
    List.intercalate_splitOn '/'
  rcases List.eq_nil_or_concat (p.text.toList.splitOn '/') with hnil | ⟨front, name, hsplit⟩
  · exact absurd hnil (List.splitOn_ne_nil _ _)
  · refine ⟨front.map String.ofList, String.ofList name, by simp [pieces, hsplit], fun hname => ?_⟩
    -- An empty last piece is what stands behind a slash at the end.
    rw [String.ofList_eq_empty_iff] at hname
    subst hname
    rw [hsplit] at hjoin
    by_cases hfront : front = []
    · subst hfront
      exact hempty (String.toList_eq_nil_iff.1 hjoin.symm)
    · rw [List.concat_eq_append, intercalate_append_nil '/' hfront] at hjoin
      exact hslash (by rw [← hjoin, List.getLast?_concat])

end Path

namespace FileTree

variable {t u v : FileTree} {directory l l' : Location} {piece name : String} {p : Path}

theorem isDirectory_eq_true_iff : t.isDirectory l = true ↔ t.get? l = some .directory := by
  rw [isDirectory]
  rcases t.get? l with _ | e
  · simp
  · cases e <;> simp [FileEntry.isDirectory]

theorem isDirectory_of_takesFile (h : t.takesFile l = true) : t.isDirectory l = false := by
  rw [takesFile] at h
  rw [isDirectory]
  cases hplace : t.get? l with
  | none => rfl
  | some e =>
      rw [hplace] at h
      cases e with
      | directory => cases h
      | _ => rfl

/-! ### Following paths -/

theorem step_eq_ok_iff :
    t.step l piece = .ok l' ↔ t.get? l = some .directory ∧
      (Path.isIdle piece = true ∧ l' = l ∨
        Path.isIdle piece = false ∧ piece = ".." ∧ l' = l.dropLast ∨
        Path.isIdle piece = false ∧ piece ≠ ".." ∧ l' = l ++ [piece] ∧
          (t.get? (l ++ [piece])).isSome) := by
  rw [step]
  rcases t.get? l with _ | e
  · simp
  · cases e with
    | directory =>
        cases hidle : Path.isIdle piece with
        | true => simp [eq_comm (a := l')]
        | false =>
            by_cases hparent : piece = ".."
            · simp [hparent, eq_comm (a := l')]
            · cases t.get? (l ++ [piece]) <;> simp [hparent, eq_comm (a := l')]
    | _ => simp

theorem follow_append (t : FileTree) (l : Location) (pieces others : List String) :
    t.follow l (pieces ++ others) = t.follow l pieces >>= fun l => t.follow l others :=
  List.foldlM_append

theorem follow_singleton (t : FileTree) (l : Location) (piece : String) :
    t.follow l [piece] = t.step l piece := by
  rw [follow, List.foldlM_cons]
  cases t.step l piece <;> rfl

theorem follow_of_empty (hl : t.get? l = some .directory) {pieces : List String}
    (hpieces : ∀ piece ∈ pieces, piece = "") : t.follow l pieces = .ok l := by
  induction pieces with
  | nil => rfl
  | cons piece pieces ih =>
      obtain ⟨rfl, hrest⟩ := List.forall_mem_cons.1 hpieces
      have hstep : t.step l "" = .ok l := step_eq_ok_iff.2 ⟨hl, .inl ⟨rfl, rfl⟩⟩
      rw [follow, List.foldlM_cons, hstep]
      exact ih hrest

theorem text_ne_empty_of_checkPath (h : checkPath p = .ok ()) : p.text ≠ "" := by
  intro hempty
  rw [checkPath, hempty] at h
  cases h

theorem resolve_eq_ok_iff :
    t.resolve directory p = .ok l ↔
      checkPath p = .ok () ∧ t.follow (start directory p) p.pieces = .ok l := by
  rw [resolve, Steps.bind_eq_ok_iff]
  exact ⟨fun ⟨_, hcheck, hfollow⟩ => ⟨hcheck, hfollow⟩, fun ⟨hcheck, hfollow⟩ =>
    ⟨(), hcheck, hfollow⟩⟩

/-- The name of a new entry is the last piece of the path that is not empty. -/
theorem target_eq_ok_some_iff :
    t.target directory p = .ok (l, some name) ↔
      checkPath p = .ok () ∧ ∃ front,
        Path.dropLastWhile (· == "") p.pieces = front ++ [name] ∧
        t.follow (start directory p) front = .ok l ∧ t.get? l = some .directory ∧
        Path.isIdle name = false ∧ name ≠ ".." := by
  rw [target, Steps.bind_eq_ok_iff]
  constructor
  · rintro ⟨_, hcheck, htarget⟩
    obtain ⟨place, hfollow, htarget⟩ := Steps.bind_eq_ok_iff.1 htarget
    split at htarget
    · next hdirectory =>
        obtain ⟨rfl, hname⟩ := Prod.mk.inj (Except.ok.inj htarget)
        obtain ⟨hlast, hproper⟩ := Option.filter_eq_some_iff.1 hname
        obtain ⟨front, hpieces⟩ := List.getLast?_eq_some_iff.1 hlast
        rw [hpieces, List.dropLast_concat] at hfollow
        rw [Bool.and_eq_true, Bool.not_eq_true', bne_iff_ne] at hproper
        exact ⟨hcheck, front, hpieces, hfollow, isDirectory_eq_true_iff.1 hdirectory, hproper⟩
    · cases htarget
  · rintro ⟨hcheck, front, hpieces, hfollow, hdirectory, hidle, hparent⟩
    refine ⟨(), hcheck, Steps.bind_eq_ok_iff.2 ⟨l, ?_, ?_⟩⟩
    · rwa [hpieces, List.dropLast_concat]
    · rw [if_pos (isDirectory_eq_true_iff.2 hdirectory), hpieces, List.getLast?_concat]
      simp [hidle, hparent]

/-! ### What is there stays there -/

/-- Directories stay directories, and files stay files. -/
def Keeps (t u : FileTree) : Prop :=
  ∀ l e, t.get? l = some e → ∃ e', u.get? l = some e' ∧ e'.isDirectory = e.isDirectory

theorem Keeps.refl (t : FileTree) : Keeps t t := fun _ e h => ⟨e, h, rfl⟩

theorem Keeps.trans (htu : Keeps t u) (huv : Keeps u v) : Keeps t v := by
  intro l e he
  obtain ⟨e', he', hkind⟩ := htu l e he
  obtain ⟨e'', he'', hkind'⟩ := huv l e' he'
  exact ⟨e'', he'', hkind'.trans hkind⟩

theorem Keeps.get?_directory (h : Keeps t u) (hl : t.get? l = some .directory) :
    u.get? l = some .directory := by
  obtain ⟨e, he, hkind⟩ := h l _ hl
  cases e with
  | directory => exact he
  | _ => cases hkind

theorem Keeps.step (h : Keeps t u) (hstep : t.step l piece = .ok l') :
    u.step l piece = .ok l' := by
  obtain ⟨hl, hpiece⟩ := step_eq_ok_iff.1 hstep
  refine step_eq_ok_iff.2 ⟨h.get?_directory hl, hpiece.imp_right (.imp_right ?_)⟩
  rintro ⟨hidle, hparent, hl', hsome⟩
  obtain ⟨e, he⟩ := Option.isSome_iff_exists.1 hsome
  obtain ⟨e', he', -⟩ := h _ e he
  exact ⟨hidle, hparent, hl', by rw [he']; rfl⟩

theorem Keeps.follow (h : Keeps t u) {pieces : List String} (hfollow : t.follow l pieces = .ok l') :
    u.follow l pieces = .ok l' := by
  induction pieces generalizing l with
  | nil => exact hfollow
  | cons piece pieces ih =>
      rw [FileTree.follow, List.foldlM_cons, Steps.bind_eq_ok_iff] at hfollow
      obtain ⟨middle, hstep, hrest⟩ := hfollow
      rw [FileTree.follow, List.foldlM_cons, h.step hstep]
      exact ih hrest

theorem Keeps.resolve (h : Keeps t u) (hresolve : t.resolve directory p = .ok l) :
    u.resolve directory p = .ok l := by
  obtain ⟨hcheck, hfollow⟩ := resolve_eq_ok_iff.1 hresolve
  exact resolve_eq_ok_iff.2 ⟨hcheck, h.follow hfollow⟩

theorem keeps_put {e : FileEntry} (hl : l ≠ [])
    (h : ∀ old, t.get? l = some old → e.isDirectory = old.isDirectory) : Keeps t (t.put l e) := by
  intro k old hold
  rw [get?_put t e k hl]
  by_cases hk : k = l
  · subst hk
    rw [if_pos rfl]
    exact ⟨e, rfl, h old hold⟩
  · rw [if_neg hk]
    exact ⟨old, hold, rfl⟩

/-! ### New entries -/

theorem makeDirectory_eq_ok_iff :
    t.makeDirectory directory p = .ok u ↔
      ∃ l name, t.target directory p = .ok (l, some name) ∧ t.get? (l ++ [name]) = none ∧
        u = t.put (l ++ [name]) .directory := by
  rw [makeDirectory, Steps.bind_eq_ok_iff]
  constructor
  · rintro ⟨⟨l, _ | name⟩, htarget, hmake⟩
    · cases hmake
    · cases hfree : t.get? (l ++ [name]) with
      | some e =>
          simp only [hfree] at hmake
          cases hmake
      | none =>
          simp only [hfree] at hmake
          exact ⟨l, name, htarget, hfree, (Except.ok.inj hmake).symm⟩
  · rintro ⟨l, name, htarget, hfree, rfl⟩
    exact ⟨_, htarget, by simp only [hfree]⟩

theorem writeText_eq_ok_iff {content : String} :
    t.writeText directory p content = .ok u ↔
      ∃ l name, t.target directory p = .ok (l, some name) ∧ p.text.toList.getLast? ≠ some '/' ∧
        t.takesFile (l ++ [name]) = true ∧ u = t.put (l ++ [name]) (.text content) := by
  rw [writeText, Steps.bind_eq_ok_iff]
  constructor
  · rintro ⟨⟨l, _ | name⟩, htarget, hwrite⟩
    · cases hwrite
    · dsimp only at hwrite
      split at hwrite
      · cases hwrite
      · next hplace =>
          split at hwrite
          · next hfree =>
              exact ⟨l, name, htarget, (not_or.1 hplace).1, hfree, (Except.ok.inj hwrite).symm⟩
          · cases hwrite
  · rintro ⟨l, name, htarget, hslash, hfree, rfl⟩
    refine ⟨_, htarget, ?_⟩
    dsimp only
    rw [if_neg (by simp [hslash, isDirectory_of_takesFile hfree]), if_pos hfree]

/-- An entry at the place of a path is found under the path. -/
theorem resolve_of_target (htarget : t.target directory p = .ok (l, some name)) (h : Keeps t u)
    {e : FileEntry} (he : u.get? (l ++ [name]) = some e)
    (hend : e = .directory ∨ p.text.toList.getLast? ≠ some '/') :
    u.resolve directory p = .ok (l ++ [name]) := by
  obtain ⟨hcheck, front, hpieces, hfollow, hdirectory, hidle, hparent⟩ :=
    target_eq_ok_some_iff.1 htarget
  obtain ⟨dropped, hsplit, hdropped⟩ := Path.exists_eq_dropLastWhile_append (· == "") p.pieces
  have hstep : u.step l name = .ok (l ++ [name]) :=
    step_eq_ok_iff.2 ⟨h.get?_directory hdirectory,
      .inr (.inr ⟨hidle, hparent, rfl, by rw [he]; rfl⟩)⟩
  have hplace : u.follow (start directory p) (front ++ [name]) = .ok (l ++ [name]) := by
    rw [follow_append, h.follow hfollow, Steps.ok_bind, follow_singleton, hstep]
  -- Slashes may stand at the end of the path of a directory, but not of a file.
  have hrest : u.follow (l ++ [name]) dropped = .ok (l ++ [name]) := by
    rcases hend with rfl | hslash
    · exact follow_of_empty he fun piece hpiece => by simpa using hdropped piece hpiece
    · obtain ⟨others, last, hlast, hne⟩ :=
        Path.exists_pieces_eq_append (text_ne_empty_of_checkPath hcheck) hslash
      have hnone : dropped = [] := by
        rw [hlast, Path.dropLastWhile_append_singleton (by simpa using hne)] at hsplit
        exact List.self_eq_append_right.1 hsplit
      rw [hnone]
      rfl
  refine resolve_eq_ok_iff.2 ⟨hcheck, ?_⟩
  rw [hsplit, hpieces, follow_append, hplace, Steps.ok_bind, hrest]

/-! ### Directories that were missing -/

/-- Nothing changes but that directories are made at missing places to which the paths lead. -/
def OnlyMakes (t u : FileTree) (directory : Location) (paths : List Path) : Prop :=
  ∀ l, u.get? l = t.get? l ∨
    t.get? l = none ∧ u.get? l = some .directory ∧ ∃ p ∈ paths, u.resolve directory p = .ok l

theorem OnlyMakes.refl (t : FileTree) (directory : Location) (paths : List Path) :
    OnlyMakes t t directory paths := fun _ => .inl rfl

theorem OnlyMakes.mono {paths others : List Path} (h : OnlyMakes t u directory paths)
    (hsub : ∀ p ∈ paths, p ∈ others) : OnlyMakes t u directory others := fun l =>
  (h l).imp_right fun ⟨hfree, hmade, p, hp, hresolve⟩ =>
    ⟨hfree, hmade, p, hsub p hp, hresolve⟩

theorem OnlyMakes.keeps {paths : List Path} (h : OnlyMakes t u directory paths) : Keeps t u := by
  intro l e he
  rcases h l with hsame | ⟨hfree, -, -⟩
  · exact ⟨e, hsame.trans he, rfl⟩
  · cases hfree.symm.trans he

theorem OnlyMakes.trans {paths : List Path} (htu : OnlyMakes t u directory paths)
    (huv : OnlyMakes u v directory paths) : OnlyMakes t v directory paths := by
  intro l
  rcases huv l with hsame | ⟨hfree, hmade⟩
  · rcases htu l with hsame' | ⟨hfree, hmade, p, hp, hresolve⟩
    · exact .inl (hsame.trans hsame')
    · exact .inr ⟨hfree, hsame.trans hmade, p, hp, huv.keeps.resolve hresolve⟩
  · rcases htu l with hsame' | ⟨-, hmade', -⟩
    · exact .inr ⟨hsame'.symm.trans hfree, hmade⟩
    · cases hfree.symm.trans hmade'

theorem onlyMakes_of_makeDirectory {paths : List Path} (hp : p ∈ paths)
    (h : t.makeDirectory directory p = .ok u) : OnlyMakes t u directory paths := by
  obtain ⟨l, name, htarget, hfree, rfl⟩ := makeDirectory_eq_ok_iff.1 h
  have hplace : l ++ [name] ≠ [] := List.append_ne_nil_of_right_ne_nil l (List.cons_ne_nil _ _)
  have hkeeps : Keeps t (t.put (l ++ [name]) .directory) := keeps_put hplace fun old hold => by
    cases hfree.symm.trans hold
  intro k
  rw [get?_put t _ k hplace]
  by_cases hk : k = l ++ [name]
  · subst hk
    have hmade : (t.put (l ++ [name]) .directory).get? (l ++ [name]) = some .directory := by
      rw [get?_put t _ _ hplace, if_pos rfl]
    exact .inr ⟨hfree, if_pos rfl, p, hp, resolve_of_target htarget hkeeps hmade (.inl rfl)⟩
  · exact .inl (if_neg hk)

/-! ### A file that is written -/

/-- The path leads to a file with the given text. Besides, only directories were made above it,
where they were missing. -/
structure Holds (t u : FileTree) (directory : Location) (p : Path) (content : String) : Prop where
  read : u.readText directory p = .ok content
  others : ∀ l, u.get? l = t.get? l ∨ u.resolve directory p = .ok l ∨
    t.get? l = none ∧ u.get? l = some .directory ∧
      ∃ parent ∈ p.above, u.resolve directory parent = .ok l

/-- Whether a text can be written does not depend on the text. -/
theorem exists_writeText_of_ok {content : String} (h : t.writeText directory p content = .ok u)
    (other : String) : ∃ v, t.writeText directory p other = .ok v := by
  obtain ⟨l, name, htarget, hslash, hfree, -⟩ := writeText_eq_ok_iff.1 h
  exact ⟨_, writeText_eq_ok_iff.2 ⟨l, name, htarget, hslash, hfree, rfl⟩⟩

theorem holds_of_writeText {content : String} (hmade : OnlyMakes t u directory p.above)
    (h : u.writeText directory p content = .ok v) : Holds t v directory p content := by
  obtain ⟨l, name, htarget, hslash, hfree, rfl⟩ := writeText_eq_ok_iff.1 h
  have hplace : l ++ [name] ≠ [] := List.append_ne_nil_of_right_ne_nil l (List.cons_ne_nil _ _)
  have hkeeps : Keeps u (u.put (l ++ [name]) (.text content)) := keeps_put hplace fun old hold => by
    have hfile := isDirectory_of_takesFile hfree
    rw [isDirectory, hold] at hfile
    exact hfile.symm
  have hwritten : (u.put (l ++ [name]) (.text content)).get? (l ++ [name]) =
      some (.text content) := by
    rw [get?_put u _ _ hplace, if_pos rfl]
  have hresolve := resolve_of_target htarget hkeeps hwritten (.inr hslash)
  constructor
  · rw [readText, hresolve, Steps.ok_bind]
    simp only [hwritten]
  · intro k
    by_cases hk : k = l ++ [name]
    · exact .inr (.inl (hk ▸ hresolve))
    · rw [get?_put u _ k hplace, if_neg hk]
      refine (hmade k).imp_right fun ⟨hfree, hmade, parent, hparent, hresolve⟩ => ?_
      exact .inr ⟨hfree, hmade, parent, hparent, hkeeps.resolve hresolve⟩

end FileTree

end SettingsBinding
