import SettingsBinding.Proofs.Files.Tree

/-!
Names of entries. A name holds no slash and is neither empty nor made of dots that stand for a
directory, so a path with a name behind it leads to the entry of that name in the directory to which
the path leads, and to nothing if the directory has no such entry.
-/

namespace SettingsBinding

namespace Path

variable {p : Path} {name : String}

structure IsName (name : String) : Prop where
  no_slash : '/' ∉ name.toList
  no_null : '\x00' ∉ name.toList
  not_idle : isIdle name = false
  not_parent : name ≠ ".."

theorem isName_iff : IsName name ↔
    '/' ∉ name.toList ∧ '\x00' ∉ name.toList ∧ isIdle name = false ∧ name ≠ ".." :=
  ⟨fun h => ⟨h.no_slash, h.no_null, h.not_idle, h.not_parent⟩,
    fun ⟨hslash, hnull, hidle, hparent⟩ => ⟨hslash, hnull, hidle, hparent⟩⟩

instance : DecidablePred IsName := fun _ => decidable_of_iff _ isName_iff.symm

theorem IsName.ne_empty (h : IsName name) : name ≠ "" := by
  rintro rfl
  cases h.not_idle

theorem IsName.splitOn (h : IsName name) : name.toList.splitOn '/' = [name.toList] :=
  List.splitOn_eq_singleton h.no_slash

/-- A name behind a path is the last piece, in place of the empty one that stands behind a slash at
the end. -/
theorem pieces_join (p : Path) (h : IsName name) :
    (p.join name).pieces = p.pieces ++ [name] ∨
      ∃ front, p.pieces = front ++ [""] ∧ (p.join name).pieces = front ++ [name] := by
  by_cases hempty : p.text = ""
  · refine .inr ⟨[], ?_, ?_⟩
    · simp [pieces, hempty]
    · simp [pieces, join, hempty, h.splitOn]
  · by_cases hslash : p.text.toList.getLast? = some '/'
    · obtain ⟨front, hfront⟩ := List.getLast?_eq_some_iff.1 hslash
      refine .inr ⟨(front.splitOn '/').map String.ofList, ?_, ?_⟩
      · rw [pieces, hfront, List.splitOn_append_cons_self]
        simp
      · rw [join, if_pos (.inr hslash), pieces, String.toList_append, hfront, List.append_assoc,
          List.singleton_append, List.splitOn_append_cons_self, h.splitOn]
        simp
    · refine .inl ?_
      rw [join, if_neg (not_or_intro hempty hslash), pieces, String.toList_append,
        String.toList_append, List.append_assoc]
      change ((p.text.toList ++ '/' :: name.toList).splitOn '/').map _ = _
      rw [List.splitOn_append_cons_self, h.splitOn]
      simp [pieces]

theorem fileName?_of_pieces {front : List String} (hpieces : p.pieces = front ++ [name])
    (h : IsName name) : p.fileName? = some name := by
  have hlast : p.body.getLast?.getD p.lead = name := by
    rw [body, lead, hpieces]
    cases front with
    | nil => rfl
    | cons first rest =>
        rw [List.cons_append, List.tail_cons, dropLastWhile_append_singleton h.not_idle,
          List.getLast?_concat, Option.getD_some]
  rw [fileName?, hlast]
  simp [h.not_idle, h.not_parent]

theorem fileName?_join (p : Path) (h : IsName name) : (p.join name).fileName? = some name := by
  rcases pieces_join p h with hpieces | ⟨front, -, hpieces⟩
  · exact fileName?_of_pieces hpieces h
  · exact fileName?_of_pieces hpieces h

/-- The text in front of a name is the same for every name. -/
theorem text_join (p : Path) : ∃ front : String, ∀ name, (p.join name).text = front ++ name := by
  by_cases h : p.text = "" ∨ p.text.toList.getLast? = some '/'
  · exact ⟨p.text, fun name => by rw [join, if_pos h]⟩
  · exact ⟨p.text ++ "/", fun name => by rw [join, if_neg h]⟩

theorem join_injective (p : Path) : Function.Injective p.join := by
  intro a b h
  obtain ⟨front, hfront⟩ := p.text_join
  have htext := congrArg Path.text h
  rw [hfront, hfront] at htext
  exact (String.append_right_inj front).1 htext

/-- Paths into one directory are ordered as their last names are. -/
theorem text_join_lt (p : Path) {a b : String} (h : a < b) : (p.join a).text < (p.join b).text := by
  obtain ⟨front, hfront⟩ := p.text_join
  rw [hfront, hfront]
  change (front ++ a).toList < (front ++ b).toList
  rw [String.toList_append, String.toList_append]
  exact List.append_left_lt h

theorem isAbsolute_join (hempty : p.text ≠ "") (name : String) :
    (p.join name).isAbsolute = p.isAbsolute := by
  have hchars : p.text.toList ≠ [] := mt String.toList_eq_nil_iff.1 hempty
  obtain ⟨c, rest, hfirst⟩ := List.exists_cons_of_ne_nil hchars
  rw [isAbsolute, isAbsolute, join]
  split <;> simp [hfirst]

end Path

namespace FileTree

variable {t : FileTree} {directory l : Location} {p : Path} {name : String}

theorem checkPath_eq_ok_iff :
    checkPath p = .ok () ↔ '\x00' ∉ p.text.toList ∧ p.text ≠ "" := by
  rw [checkPath]
  by_cases hnull : '\x00' ∈ p.text.toList
  · simp [hnull]
  · by_cases hempty : p.text = ""
    · simp [hempty]
    · simp [hnull, hempty]

theorem checkPath_join (h : checkPath p = .ok ()) (hname : Path.IsName name) :
    checkPath (p.join name) = .ok () := by
  obtain ⟨hnull, hempty⟩ := checkPath_eq_ok_iff.1 h
  have hlast : (p.join name).text ≠ "" := by
    obtain ⟨front, hfront⟩ := p.text_join
    rw [hfront]
    exact fun h => hname.ne_empty (String.append_eq_empty_iff.1 h).2
  refine checkPath_eq_ok_iff.2 ⟨?_, hlast⟩
  rw [Path.join]
  split <;> simp [hnull, hname.no_null]

theorem step_of_isName (hl : t.get? l = some .directory) (hname : Path.IsName name) :
    t.step l name =
      if (t.get? (l ++ [name])).isSome then .ok (l ++ [name]) else .error .missing := by
  rw [step, hl]
  cases hentry : t.get? (l ++ [name]) with
  | none => simp [hname.not_idle, hname.not_parent]
  | some e => simp [hname.not_idle, hname.not_parent]

theorem follow_join {start : Location} (h : t.follow start p.pieces = .ok l)
    (hname : Path.IsName name) : t.follow start (p.join name).pieces = t.step l name := by
  rcases p.pieces_join hname with hpieces | ⟨front, hfront, hpieces⟩
  · rw [hpieces, follow_append, h, Steps.ok_bind, follow_singleton]
  · -- The empty piece behind a slash leads nowhere else.
    rw [hfront, follow_append, Steps.bind_eq_ok_iff] at h
    obtain ⟨l', hfollow, hstep⟩ := h
    rw [follow_singleton] at hstep
    have hsame : l = l' := by
      rcases (step_eq_ok_iff.1 hstep).2 with ⟨-, hsame⟩ | ⟨hidle, -⟩ | ⟨hidle, -⟩
      · exact hsame
      · cases hidle
      · cases hidle
    rw [hpieces, follow_append, hfollow, Steps.ok_bind, follow_singleton, hsame]

theorem resolve_join (h : t.resolve directory p = .ok l) (hl : t.get? l = some .directory)
    (hname : Path.IsName name) :
    t.resolve directory (p.join name) =
      if (t.get? (l ++ [name])).isSome then .ok (l ++ [name]) else .error .missing := by
  obtain ⟨hcheck, hfollow⟩ := resolve_eq_ok_iff.1 h
  have hstart : start directory (p.join name) = start directory p := by
    rw [start, start, Path.isAbsolute_join (checkPath_eq_ok_iff.1 hcheck).2]
  rw [resolve, checkPath_join hcheck hname, Steps.ok_bind, hstart, follow_join hfollow hname,
    step_of_isName hl hname]

/-- A path with a name behind it leads to the entry of that name. -/
theorem find?_join (h : t.resolve directory p = .ok l) (hl : t.get? l = some .directory)
    (hname : Path.IsName name) : t.find? directory (p.join name) = t.get? (l ++ [name]) := by
  rw [find?, resolve_join h hl hname]
  cases hentry : t.get? (l ++ [name]) with
  | none => simp
  | some e => simpa using hentry

end FileTree

end SettingsBinding
