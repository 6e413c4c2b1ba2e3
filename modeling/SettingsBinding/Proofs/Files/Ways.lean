import SettingsBinding.Proofs.Files.Ancestors
import SettingsBinding.Proofs.Files.Machine

/-!
Directories that are made on the way to a place. A path of names leads from the root or from the
current directory through one place for each name. If all of them are free or directories, the
directories that are missing are made, from the first of them on, and nothing else is changed.
-/

namespace SettingsBinding

namespace Path

variable {names front : Location} {name : String} {root : Bool}

/-- The path of the given names from the root, or from the current directory. -/
def ofNames (root : Bool) (names : Location) : Path :=
  if root then ofLocation names else ofPieces names

def leadOf (root : Bool) : List String := if root then [""] else []

theorem pieces_ofNames (hnames : ∀ name ∈ names, IsName name) (h : names ≠ []) :
    (ofNames root names).pieces = leadOf root ++ names := by
  cases root with
  | true => exact pieces_ofLocation hnames h
  | false => exact pieces_ofPieces (fun name hname => (hnames name hname).no_slash) h

theorem ofNames_eq_ofPieces (h : names ≠ []) :
    ofNames root names = ofPieces (leadOf root ++ names) := by
  cases root with
  | true => exact ofLocation_eq_ofPieces h
  | false => rfl

theorem getLast?_text_ofNames (front : Location) (hname : IsName name) :
    (ofNames root (front ++ [name])).text.toList.getLast? ≠ some '/' := by
  rw [ofNames_eq_ofPieces (List.concat_ne_nil name front), ← List.append_assoc]
  exact getLast?_text_ofPieces _ hname

theorem mem_text_ofPieces {c : Char} {parts : List String}
    (h : c ∈ (ofPieces parts).text.toList) : c = '/' ∨ ∃ part ∈ parts, c ∈ part.toList := by
  induction parts with
  | nil => simp [ofPieces] at h
  | cons part parts ih =>
      cases parts with
      | nil => exact .inr ⟨part, List.mem_singleton_self part, by simpa [ofPieces] using h⟩
      | cons other parts =>
          rw [ofPieces, String.intercalate_cons_of_ne_nil (List.cons_ne_nil _ _),
            String.toList_append, String.toList_append, List.mem_append, List.mem_append] at h
          rcases h with (hpart | hslash) | hrest
          · exact .inr ⟨part, List.mem_cons_self, hpart⟩
          · exact .inl (by simpa using hslash)
          · rcases ih hrest with hslash | ⟨piece, hpiece, hc⟩
            · exact .inl hslash
            · exact .inr ⟨piece, List.mem_cons_of_mem _ hpiece, hc⟩

theorem exists_text_ofPieces_cons (name : String) (rest : List String) :
    ∃ behind : String, (ofPieces (name :: rest)).text = name ++ behind := by
  cases rest with
  | nil => exact ⟨"", by simp [ofPieces]⟩
  | cons other rest =>
      refine ⟨"/" ++ "/".intercalate (other :: rest), ?_⟩
      rw [ofPieces, String.intercalate_cons_of_ne_nil (List.cons_ne_nil _ _), String.append_assoc]

theorem isAbsolute_ofNames (hnames : ∀ name ∈ names, IsName name) (h : names ≠ []) :
    (ofNames root names).isAbsolute = root := by
  cases root with
  | true => exact isAbsolute_ofLocation names
  | false =>
      obtain ⟨name, rest, rfl⟩ := List.exists_cons_of_ne_nil h
      have hname : IsName name := hnames name List.mem_cons_self
      have hchars : name.toList ≠ [] := mt String.toList_eq_nil_iff.1 hname.ne_empty
      obtain ⟨c, cs, hcs⟩ := List.exists_cons_of_ne_nil hchars
      have hc : c ≠ '/' := by
        rintro rfl
        exact hname.no_slash (hcs ▸ List.mem_cons_self)
      obtain ⟨behind, htext⟩ := exists_text_ofPieces_cons name rest
      rw [ofNames, if_neg Bool.false_ne_true, isAbsolute, htext]
      simp [hcs, hc]

/-- The parent of a path of names is the path without the last of them. -/
theorem parent?_ofNames (hnames : ∀ piece ∈ front ++ [name], IsName piece) :
    (ofNames root (front ++ [name])).parent? = some (ofNames root front) := by
  cases root with
  | true => exact parent?_ofLocation hnames
  | false =>
      have hpieces : (ofNames false (front ++ [name])).pieces = front ++ [name] :=
        pieces_ofNames hnames (List.concat_ne_nil name front)
      have habsolute : (ofNames false (front ++ [name])).isAbsolute = false :=
        isAbsolute_ofNames hnames (List.concat_ne_nil name front)
      have hname : IsName name := hnames name (by simp)
      cases front with
      | nil =>
          rw [parent?, body, lead, hpieces]
          simp [dropLastWhile, hname.ne_empty, ofNames, ofPieces]
      | cons first rest =>
          have hrest : ∀ piece ∈ rest, IsName piece := fun piece h =>
            hnames piece (List.mem_append_left _ (List.mem_cons_of_mem _ h))
          have hbody : (ofNames false (first :: rest ++ [name])).body = rest ++ [name] := by
            rw [body, hpieces]
            exact dropLastWhile_append_singleton hname.not_idle rest
          rw [parent?]
          split
          · next hnone => exact absurd (hbody.symm.trans hnone) (List.concat_ne_nil name rest)
          · rw [hbody, List.dropLast_concat, dropLastWhile_isIdle hrest, habsolute, lead, hpieces]
            simp [ofNames]

end Path

namespace FileTree

variable {t u : FileTree} {directory l start : Location} {names front : Location} {name : String}
  {root : Bool}

open SettingsBinding.Path (IsName ofNames leadOf)

def startOf (root : Bool) (directory : Location) : Location := if root then [] else directory

theorem start_ofNames (hnames : ∀ name ∈ names, IsName name) (h : names ≠ []) :
    FileTree.start directory (ofNames root names) = startOf root directory := by
  rw [FileTree.start, Path.isAbsolute_ofNames hnames h]
  rfl

theorem checkPath_ofNames (hnames : ∀ piece ∈ front ++ [name], IsName piece) :
    checkPath (ofNames root (front ++ [name])) = .ok () := by
  rw [Path.ofNames_eq_ofPieces (List.concat_ne_nil name front)]
  refine checkPath_eq_ok_iff.2 ⟨fun hnull => ?_, ?_⟩
  · rcases Path.mem_text_ofPieces hnull with hslash | ⟨piece, hpiece, hnull⟩
    · cases hslash
    · rcases List.mem_append.1 hpiece with hlead | hpiece
      · cases root with
        | true =>
            obtain rfl := List.mem_singleton.1 hlead
            cases hnull
        | false => cases hlead
      · exact (hnames piece hpiece).no_null hnull
  · have hname : IsName name := hnames name (by simp)
    rw [← List.append_assoc]
    obtain ⟨before, htext⟩ := Path.exists_text_ofPieces (leadOf root ++ front) name
    rw [htext]
    exact fun hempty => hname.ne_empty (String.append_eq_empty_iff.1 hempty).2

theorem follow_leadOf (t : FileTree) (root : Bool) (directory : Location) (pieces : List String) :
    t.follow (startOf root directory) (leadOf root ++ pieces) =
      t.follow (startOf root directory) pieces := by
  cases root with
  | true =>
      have hempty : t.follow [] [""] = .ok [] := follow_of_empty rfl (by simp)
      change t.follow [] ([""] ++ pieces) = t.follow [] pieces
      rw [follow_append, hempty, Steps.ok_bind]
  | false => rfl

theorem resolve_ofNames (hnames : ∀ piece ∈ front ++ [name], IsName piece) :
    t.resolve directory (ofNames root (front ++ [name])) =
      t.follow (startOf root directory) (front ++ [name]) := by
  rw [resolve, checkPath_ofNames hnames, Steps.ok_bind,
    start_ofNames hnames (List.concat_ne_nil name front),
    Path.pieces_ofNames hnames (List.concat_ne_nil name front), follow_leadOf]

/-- The new entry of a path of names is one of the last name, in the place of the others. -/
theorem target_ofNames (hnames : ∀ piece ∈ front ++ [name], IsName piece) :
    t.target directory (ofNames root (front ++ [name])) = (do
      let l ← t.follow (startOf root directory) front
      if t.isDirectory l then .ok (l, some name) else .error .notADirectory) := by
  have hne := List.concat_ne_nil name front
  have hname : IsName name := hnames name (by simp)
  have hpieces : Path.dropLastWhile (· == "") (leadOf root ++ front ++ [name]) =
      leadOf root ++ front ++ [name] :=
    Path.dropLastWhile_append_singleton (by simpa using hname.ne_empty) _
  rw [target, checkPath_ofNames hnames, Steps.ok_bind, start_ofNames hnames hne,
    Path.pieces_ofNames hnames hne, ← List.append_assoc, hpieces]
  simp only [List.dropLast_concat, List.getLast?_concat, follow_leadOf]
  simp [Option.filter, hname.not_idle, hname.not_parent]

/-! ### Ways of directories -/

/-- All the places on a way are directories, the one where it starts as well. -/
def Passes (t : FileTree) (start names : Location) : Prop :=
  ∀ k, k <+: names → t.get? (start ++ k) = some .directory

/-- All the places on a way are free or directories. -/
def IsOpen (t : FileTree) (start names : Location) : Prop :=
  ∀ k, k <+: names → t.get? (start ++ k) = none ∨ t.get? (start ++ k) = some .directory

theorem Passes.of_prefix (h : t.Passes start names) (hfront : front <+: names) :
    t.Passes start front := fun k hk => h k (hk.trans hfront)

theorem IsOpen.of_prefix (h : t.IsOpen start names) (hfront : front <+: names) :
    t.IsOpen start front := fun k hk => h k (hk.trans hfront)

theorem passes_append_singleton_iff :
    t.Passes start (front ++ [name]) ↔
      t.Passes start front ∧ t.get? (start ++ front ++ [name]) = some .directory := by
  constructor
  · intro h
    refine ⟨h.of_prefix (List.prefix_append front [name]), ?_⟩
    rw [List.append_assoc]
    exact h _ List.prefix_rfl
  · rintro ⟨hfront, hlast⟩ k hk
    rcases List.prefix_concat_iff.1 hk with rfl | hk
    · rwa [← List.append_assoc]
    · exact hfront k hk

theorem follow_of_passes (hnames : ∀ piece ∈ names, IsName piece) (h : t.Passes start names) :
    t.follow start names = .ok (start ++ names) := by
  induction names using List.reverseRecOn with
  | nil => rw [List.append_nil]; rfl
  | append_singleton front name ih =>
      obtain ⟨hfront, hlast⟩ := passes_append_singleton_iff.1 h
      have hnames' : ∀ piece ∈ front, IsName piece := fun piece hpiece =>
        hnames piece (List.mem_append_left _ hpiece)
      rw [follow_append, ih hnames' hfront, Steps.ok_bind, follow_singleton,
        step_of_isName (hfront front List.prefix_rfl) (hnames name (by simp)), hlast,
        List.append_assoc]
      rfl

theorem target_of_passes (hnames : ∀ piece ∈ front ++ [name], IsName piece)
    (hfront : t.Passes (startOf root directory) front) :
    t.target directory (ofNames root (front ++ [name])) =
      .ok (startOf root directory ++ front, some name) := by
  have hnames' : ∀ piece ∈ front, IsName piece := fun piece hpiece =>
    hnames piece (List.mem_append_left _ hpiece)
  rw [target_ofNames hnames, follow_of_passes hnames' hfront, Steps.ok_bind,
    if_pos (isDirectory_eq_true_iff.2 (hfront front List.prefix_rfl))]

/-- A way that is open, but not all through directories, ends at a place that is missing. -/
theorem follow_of_not_passes (hnames : ∀ piece ∈ names, IsName piece) (h : t.IsOpen start names)
    (hstart : t.get? start = some .directory) (hnot : ¬t.Passes start names) :
    t.follow start names = .error .missing := by
  induction names using List.reverseRecOn with
  | nil =>
      refine absurd (fun k hk => ?_) hnot
      rwa [List.prefix_nil.1 hk, List.append_nil]
  | append_singleton front name ih =>
      have hnames' : ∀ piece ∈ front, IsName piece := fun piece hpiece =>
        hnames piece (List.mem_append_left _ hpiece)
      rw [follow_append]
      by_cases hfront : t.Passes start front
      · have hfree : t.get? (start ++ front ++ [name]) = none := by
          rcases h _ List.prefix_rfl with hfree | hlast
          · rwa [List.append_assoc]
          · rw [← List.append_assoc] at hlast
            exact absurd (passes_append_singleton_iff.2 ⟨hfront, hlast⟩) hnot
        rw [follow_of_passes hnames' hfront, Steps.ok_bind, follow_singleton,
          step_of_isName (hfront front List.prefix_rfl) (hnames name (by simp)), hfree]
        rfl
      · rw [ih hnames' (h.of_prefix (List.prefix_append front [name])) hfront]
        rfl

/-- Only through directories names lead to a directory. -/
theorem passes_of_follow (hnames : ∀ piece ∈ names, IsName piece)
    (h : t.follow start names = .ok l) (hl : t.get? l = some .directory) :
    l = start ++ names ∧ t.Passes start names := by
  induction names using List.reverseRecOn generalizing l with
  | nil =>
      obtain rfl := Except.ok.inj h
      refine ⟨(List.append_nil start).symm, fun k hk => ?_⟩
      rwa [List.prefix_nil.1 hk, List.append_nil]
  | append_singleton front name ih =>
      have hname : IsName name := hnames name (by simp)
      rw [follow_append, Steps.bind_eq_ok_iff] at h
      obtain ⟨middle, hfront, hstep⟩ := h
      rw [follow_singleton] at hstep
      obtain ⟨hmiddle, hstep⟩ := step_eq_ok_iff.1 hstep
      obtain ⟨rfl, hpasses⟩ := ih (fun piece hpiece =>
        hnames piece (List.mem_append_left _ hpiece)) hfront hmiddle
      rcases hstep with ⟨hidle, -⟩ | ⟨-, hparent, -⟩ | ⟨-, -, rfl, -⟩
      · exact absurd (hname.not_idle.symm.trans hidle) (by simp)
      · exact absurd hparent hname.not_parent
      · exact ⟨List.append_assoc _ _ _, passes_append_singleton_iff.2 ⟨hpasses, hl⟩⟩

theorem passes_of_target {last : String} (hnames : ∀ piece ∈ front ++ [name], IsName piece)
    (h : t.target directory (ofNames root (front ++ [name])) = .ok (l, some last)) :
    l = startOf root directory ++ front ∧ last = name ∧
      t.Passes (startOf root directory) front := by
  rw [target_ofNames hnames, Steps.bind_eq_ok_iff] at h
  obtain ⟨place, hfollow, htarget⟩ := h
  split at htarget
  · next hdirectory =>
      obtain ⟨rfl, rfl⟩ : place = l ∧ name = last := by simpa using htarget
      obtain ⟨hplace, hpasses⟩ := passes_of_follow (fun piece hpiece =>
        hnames piece (List.mem_append_left _ hpiece)) hfollow (isDirectory_eq_true_iff.1 hdirectory)
      exact ⟨hplace, rfl, hpasses⟩
  · cases htarget

/-- The places on a way become directories, and nothing else changes. -/
structure Paves (t u : FileTree) (start names : Location) : Prop where
  passes : u.Passes start names
  others : ∀ l, (∀ k, k <+: names → l ≠ start ++ k) → u.get? l = t.get? l

theorem paves_put (name : String) (hfront : t.Passes start front) :
    t.Paves (t.put (start ++ front ++ [name]) .directory) start (front ++ [name]) := by
  have hplace : start ++ front ++ [name] ≠ [] := List.concat_ne_nil name _
  constructor
  · refine passes_append_singleton_iff.2 ⟨fun k hk => ?_, ?_⟩
    · rw [get?_put t _ _ hplace]
      split
      · rfl
      · exact hfront k hk
    · rw [get?_put t _ _ hplace, if_pos rfl]
  · intro l hl
    rw [get?_put t _ _ hplace, if_neg]
    rw [List.append_assoc]
    exact hl _ List.prefix_rfl

/-- What is behind the way stays as it is. -/
theorem Paves.get?_append_singleton (h : t.Paves u start front) (name : String) :
    u.get? (start ++ (front ++ [name])) = t.get? (start ++ (front ++ [name])) := by
  apply h.others
  intro k hk heq
  have hlength := hk.length_le
  rw [← List.append_cancel_left heq, List.length_append, List.length_singleton] at hlength
  omega

theorem Paves.isOpen (h : t.Paves u start front) (hopen : t.IsOpen start (front ++ [name])) :
    u.IsOpen start (front ++ [name]) := by
  intro k hk
  rcases List.prefix_concat_iff.1 hk with rfl | hk
  · rw [h.get?_append_singleton]
    exact hopen _ List.prefix_rfl
  · exact .inr (h.passes k hk)

theorem Paves.trans_append_singleton {v : FileTree} (htu : t.Paves u start front)
    (huv : u.Paves v start (front ++ [name])) : t.Paves v start (front ++ [name]) :=
  ⟨huv.passes, fun l hl => (huv.others l hl).trans <|
    htu.others l fun k hk => hl k (hk.trans (List.prefix_append front [name]))⟩

end FileTree

namespace Machine

variable {t : FileTree} {directory : Location} {names front : Location} {name : String}
  {root : Bool}

open FileTree (startOf)
open SettingsBinding.Path (IsName ofNames)

/-- The directory at the end of a way is made, if it is not there, where the others are there. -/
theorem ends_ensureDirectory_of_passes (hnames : ∀ piece ∈ front ++ [name], IsName piece)
    (hfront : t.Passes (startOf root directory) front)
    (hopen : t.IsOpen (startOf root directory) (front ++ [name])) :
    ∃ u, Ends directory t (MonadMachine.ensureDirectory (ofNames root (front ++ [name]))) (.ok ())
        u ∧
      t.Paves u (startOf root directory) (front ++ [name]) := by
  have htarget := FileTree.target_of_passes hnames hfront
  have hplace := hopen _ List.prefix_rfl
  rw [← List.append_assoc] at hplace
  rcases hplace with hfree | hthere
  · have hmake : t.makeDirectory directory (ofNames root (front ++ [name])) =
        .ok (t.put (startOf root directory ++ front ++ [name]) .directory) :=
      FileTree.makeDirectory_eq_ok_iff.2 ⟨_, _, htarget, hfree, rfl⟩
    exact ⟨_, (ends_makeDirectory_ok hmake).bind (ends_pure _ _ _),
      FileTree.paves_put name hfront⟩
  · have hmake : t.makeDirectory directory (ofNames root (front ++ [name])) = .error .exists := by
      rw [FileTree.makeDirectory, htarget, Steps.ok_bind]
      simp only [hthere]
    have hpasses := FileTree.passes_append_singleton_iff.2 ⟨hfront, hthere⟩
    have hfind : t.find? directory (ofNames root (front ++ [name])) = some .directory := by
      rw [FileTree.find?, FileTree.resolve_ofNames hnames, FileTree.follow_of_passes hnames hpasses]
      exact hpasses _ List.prefix_rfl
    have hdirectory := ends_isDirectory directory t (ofNames root (front ++ [name]))
    rw [hfind] at hdirectory
    exact ⟨t, (ends_makeDirectory_error hmake).bind (hdirectory.bind (ends_pure _ _ _)),
      hpasses, fun _ _ => rfl⟩

theorem ends_ensureDirectory_of_missing (hnames : ∀ piece ∈ front ++ [name], IsName piece)
    (h : t.follow (startOf root directory) front = .error .missing) :
    Ends directory t (MonadMachine.ensureDirectory (ofNames root (front ++ [name])))
      (.error .missing) t := by
  have hmake : t.makeDirectory directory (ofNames root (front ++ [name])) = .error .missing := by
    rw [FileTree.makeDirectory, FileTree.target_ofNames hnames, h]
    rfl
  have hdirectory := ends_isDirectory directory t (ofNames root (front ++ [name]))
  rw [FileTree.find?, FileTree.resolve_ofNames hnames, FileTree.follow_append, h] at hdirectory
  exact (ends_makeDirectory_error hmake).bind (hdirectory.bind (ends_pure _ _ _))

theorem ends_makeDirectories_nil (directory : Location) (t : FileTree) (root : Bool) (room : Nat) :
    Ends directory t (MonadMachine.makeDirectories room (ofNames root [])) (.ok ()) t := by
  cases root with
  | true =>
      have hmake : t.makeDirectory directory (ofNames true []) = .error .exists := rfl
      have hdirectory : Ends directory t (MonadMachine.isDirectory (ofNames true [])) true t :=
        ends_isDirectory directory t (ofNames true [])
      have hensure : Ends directory t (MonadMachine.ensureDirectory (ofNames true [])) (.ok ()) t :=
        (ends_makeDirectory_error hmake).bind (hdirectory.bind (ends_pure _ _ _))
      cases room with
      | zero => exact hensure
      | succ room => exact hensure.bind (ends_pure _ _ _)
  | false =>
      cases room with
      | zero => exact ends_pure directory t _
      | succ room => exact ends_pure directory t _

/-- Where a way is open, all directories that are missing on it are made. -/
theorem ends_makeDirectories_of_isOpen {room : Nat} (hnames : ∀ piece ∈ names, IsName piece)
    (hstart : t.get? (startOf root directory) = some .directory)
    (hopen : t.IsOpen (startOf root directory) names) (hroom : names.length ≤ room) :
    ∃ u, Ends directory t (MonadMachine.makeDirectories room (ofNames root names)) (.ok ()) u ∧
      t.Paves u (startOf root directory) names := by
  induction names using List.reverseRecOn generalizing room with
  | nil =>
      refine ⟨t, ends_makeDirectories_nil directory t root room, fun k hk => ?_, fun _ _ => rfl⟩
      rwa [List.prefix_nil.1 hk, List.append_nil]
  | append_singleton front name ih =>
      have hnames' : ∀ piece ∈ front, IsName piece := fun piece hpiece =>
        hnames piece (List.mem_append_left _ hpiece)
      have hopen' := hopen.of_prefix (List.prefix_append front [name])
      have hcheck : FileTree.checkPath (ofNames root (front ++ [name])) = .ok () :=
        FileTree.checkPath_ofNames hnames
      cases room with
      | zero => simp at hroom
      | succ room =>
          rw [MonadMachine.makeDirectories, if_neg (FileTree.text_ne_empty_of_checkPath hcheck)]
          by_cases hfront : t.Passes (startOf root directory) front
          · obtain ⟨u, hensure, hpaves⟩ := ends_ensureDirectory_of_passes hnames hfront hopen
            exact ⟨u, hensure.bind (ends_pure _ u _), hpaves⟩
          · -- The first attempt fails, and is made again behind those for the places above.
            have hfollow := FileTree.follow_of_not_passes hnames' hopen' hstart hfront
            obtain ⟨u, hparents, hpaved⟩ := ih hnames' hopen' (by simpa using hroom)
            obtain ⟨v, hagain, hpaves⟩ :=
              ends_ensureDirectory_of_passes hnames hpaved.passes (hpaved.isOpen hopen)
            refine ⟨v, (ends_ensureDirectory_of_missing hnames hfollow).bind ?_,
              hpaved.trans_append_singleton hpaves⟩
            rw [Path.parent?_ofNames hnames]
            exact hparents.bind hagain

end Machine

end SettingsBinding
