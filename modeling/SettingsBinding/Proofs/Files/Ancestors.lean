import Mathlib.Data.List.Infix
import SettingsBinding.Proofs.Files.Names

/-!
The directories above a place. A path from the root that is made of names only leads to one place,
and its parent is the path of the place above; so the directories above it are the places whose
names it starts with, the longest first. A search upwards for a mark therefore ends at the nearest
place that has it.
-/

namespace SettingsBinding

namespace Path

variable {l : Location} {name : String} {room : Nat}

def ofLocation (l : Location) : Path := ⟨"/" ++ "/".intercalate l⟩

theorem pieces_ofPieces {parts : List String} (h : ∀ part ∈ parts, '/' ∉ part.toList)
    (hparts : parts ≠ []) : (ofPieces parts).pieces = parts := by
  have hslash : ∀ cs ∈ parts.map String.toList, '/' ∉ cs := by
    rintro cs hcs
    obtain ⟨part, hpart, rfl⟩ := List.mem_map.1 hcs
    exact h part hpart
  have hsplit : (['/'].intercalate (parts.map String.toList)).splitOn '/' =
      parts.map String.toList :=
    List.splitOn_intercalate '/' hslash (mt List.map_eq_nil_iff.1 hparts)
  rw [pieces, ofPieces, String.toList_intercalate]
  change ((['/'].intercalate (parts.map String.toList)).splitOn '/').map String.ofList = parts
  rw [hsplit, List.map_map]
  exact List.map_id'' (fun part => String.ofList_toList) parts

/-- The text of a path ends in its last name. -/
theorem exists_text_ofPieces (front : List String) (name : String) :
    ∃ before : String, (ofPieces (front ++ [name])).text = before ++ name := by
  by_cases hfront : front = []
  · exact ⟨"", by simp [ofPieces, hfront]⟩
  · refine ⟨"/".intercalate front ++ "/", ?_⟩
    rw [ofPieces, String.intercalate_append_of_ne_nil hfront (List.cons_ne_nil _ _),
      String.intercalate_singleton]

theorem getLast?_text_ofPieces (front : List String) (hname : IsName name) :
    (ofPieces (front ++ [name])).text.toList.getLast? ≠ some '/' := by
  obtain ⟨before, htext⟩ := exists_text_ofPieces front name
  have hne : name.toList ≠ [] := mt String.toList_eq_nil_iff.1 hname.ne_empty
  rw [htext, String.toList_append, List.getLast?_append_of_ne_nil _ hne]
  exact fun h => hname.no_slash (List.mem_of_getLast? h)

theorem ofLocation_eq_ofPieces (h : l ≠ []) : ofLocation l = ofPieces ("" :: l) := by
  rw [ofLocation, ofPieces, String.intercalate_cons_of_ne_nil h, String.empty_append]

theorem isAbsolute_ofLocation (l : Location) : (ofLocation l).isAbsolute = true := by
  simp [ofLocation, isAbsolute]

theorem pieces_ofLocation (hnames : ∀ name ∈ l, IsName name) (h : l ≠ []) :
    (ofLocation l).pieces = "" :: l := by
  rw [ofLocation_eq_ofPieces h]
  refine pieces_ofPieces ?_ (List.cons_ne_nil _ _)
  exact List.forall_mem_cons.2 ⟨by simp, fun name hname => (hnames name hname).no_slash⟩

theorem getLast?_text_ofLocation (front : Location) (hname : IsName name) :
    (ofLocation (front ++ [name])).text.toList.getLast? ≠ some '/' := by
  rw [ofLocation_eq_ofPieces (List.concat_ne_nil name front), ← List.cons_append]
  exact getLast?_text_ofPieces ("" :: front) hname

/-- The path of an entry of a directory is that of its place. -/
theorem join_ofLocation (hnames : ∀ name ∈ l, IsName name) (name : String) :
    (ofLocation l).join name = ofLocation (l ++ [name]) := by
  rcases List.eq_nil_or_concat l with rfl | ⟨front, last, rfl⟩
  · simp [ofLocation, join]
  · rw [List.concat_eq_append] at hnames ⊢
    have hlast : IsName last := hnames last (by simp)
    have hempty : (ofLocation (front ++ [last])).text ≠ "" := by simp [ofLocation]
    rw [join, if_neg (not_or_intro hempty (getLast?_text_ofLocation front hlast)), ofLocation,
      ofLocation, String.intercalate_append_of_ne_nil (by simp) (List.cons_ne_nil name []),
      String.intercalate_singleton]
    simp [String.append_assoc]

/-! ### Parents -/

theorem dropLastWhile_isIdle (hnames : ∀ name ∈ l, IsName name) :
    dropLastWhile isIdle l = l := by
  rcases List.eq_nil_or_concat l with rfl | ⟨front, last, rfl⟩
  · rfl
  · rw [List.concat_eq_append] at hnames ⊢
    exact dropLastWhile_append_singleton (hnames last (by simp)).not_idle front

/-- The parent of a path is the path of the place above. -/
theorem parent?_ofLocation (hnames : ∀ piece ∈ l ++ [name], IsName piece) :
    (ofLocation (l ++ [name])).parent? = some (ofLocation l) := by
  have hfront : ∀ piece ∈ l, IsName piece := fun piece h => hnames piece (List.mem_append_left _ h)
  have hpieces := pieces_ofLocation hnames (by simp)
  have hbody : (ofLocation (l ++ [name])).body = l ++ [name] := by
    rw [body, hpieces, List.tail_cons, dropLastWhile_isIdle hnames]
  rw [parent?]
  split
  · next h => simp [hbody] at h
  · rw [hbody, List.dropLast_concat, dropLastWhile_isIdle hfront, lead, hpieces,
      List.headD_cons, isAbsolute_ofLocation]
    by_cases hl : l = []
    · simp [hl, ofLocation]
    · simp [hl, ofLocation_eq_ofPieces]

theorem inits_append_singleton (l : Location) (name : String) :
    (l ++ [name]).inits = l.inits ++ [l ++ [name]] := by
  rw [List.inits_append]
  rfl

/-- The paths above a place are the paths of the places above it, the nearest first. -/
theorem ancestorsWithin_ofLocation (hnames : ∀ piece ∈ l, IsName piece) (hroom : l.length ≤ room) :
    ancestorsWithin room (ofLocation l) = l.inits.reverse.map ofLocation := by
  induction l using List.reverseRecOn generalizing room with
  | nil => cases room <;> rfl
  | append_singleton l name ih =>
      have hfront : ∀ piece ∈ l, IsName piece :=
        fun piece h => hnames piece (List.mem_append_left _ h)
      rw [inits_append_singleton, List.reverse_concat, List.map_cons]
      cases room with
      | zero => simp at hroom
      | succ room =>
          rw [ancestorsWithin, parent?_ofLocation hnames]
          exact congrArg _ (ih hfront (by simpa using hroom))

theorem ancestors_ofLocation (hnames : ∀ piece ∈ l, IsName piece) :
    (ofLocation l).ancestors = l.inits.reverse.map ofLocation := by
  refine ancestorsWithin_ofLocation hnames ?_
  by_cases hl : l = []
  · simp [hl]
  · rw [pieces_ofLocation hnames hl]
    exact Nat.le_succ _

end Path

namespace FileTree

variable {t : FileTree} {directory l : Location} {name : String}

/-- A place that can be entered: all that leads to it are directories with names. -/
structure Entered (t : FileTree) (l : Location) : Prop where
  isName : ∀ piece ∈ l, Path.IsName piece
  directory : ∀ above, above <+: l → t.get? above = some .directory

theorem Entered.of_prefix {above : Location} (h : t.Entered l) (habove : above <+: l) :
    t.Entered above :=
  ⟨fun piece hpiece => h.isName piece (habove.subset hpiece),
    fun other hother => h.directory other (hother.trans habove)⟩

theorem Entered.get? (h : t.Entered l) : t.get? l = some .directory :=
  h.directory l List.prefix_rfl

/-- The path of such a place leads to it, from any current directory. -/
theorem resolve_ofLocation (h : t.Entered l) :
    t.resolve directory (Path.ofLocation l) = .ok l := by
  induction l using List.reverseRecOn with
  | nil => exact resolve_eq_ok_iff.2 ⟨rfl, follow_of_empty h.get? (by decide)⟩
  | append_singleton l name ih =>
      have habove := h.of_prefix (List.prefix_append l [name])
      have hname : Path.IsName name := h.isName name (by simp)
      rw [← Path.join_ofLocation habove.isName, resolve_join (ih habove) habove.get? hname, h.get?]
      rfl

/-- The nearest place at or above a place where there is an entry with a name, if there is one. -/
def Nearest (t : FileTree) (name : String) (l : Location) : Option Location → Prop
  | some root => root <+: l ∧ (t.get? (root ++ [name])).isSome ∧
      ∀ above, above <+: l → (t.get? (above ++ [name])).isSome → above <+: root
  | none => ∀ above, above <+: l → t.get? (above ++ [name]) = none

theorem nearest_find? (t : FileTree) (name : String) (l : Location) :
    t.Nearest name l (l.inits.reverse.find? fun above => (t.get? (above ++ [name])).isSome) := by
  induction l using List.reverseRecOn with
  | nil =>
      rw [List.inits, List.reverse_singleton, List.find?_singleton]
      split
      · next h => exact ⟨List.prefix_rfl, h, fun _ habove _ => habove⟩
      · next h =>
          rintro above habove
          rw [List.prefix_nil.1 habove]
          exact Option.not_isSome_iff_eq_none.1 h
  | append_singleton l last ih =>
      rw [Path.inits_append_singleton, List.reverse_concat, List.find?_cons]
      split
      · next h => exact ⟨List.prefix_rfl, h, fun _ habove _ => habove⟩
      · next h =>
          -- The place itself has no such entry, so the search goes on from the place above.
          have hnone : t.get? (l ++ [last] ++ [name]) = none := by simpa using h
          generalize l.inits.reverse.find? _ = root at ih
          cases root with
          | none =>
              rintro above habove
              rcases List.prefix_concat_iff.1 habove with rfl | habove
              · exact hnone
              · exact ih above habove
          | some root =>
              obtain ⟨hroot, hentry, hnearest⟩ := ih
              refine ⟨hroot.trans (List.prefix_append l [last]), hentry, fun above habove h => ?_⟩
              rcases List.prefix_concat_iff.1 habove with rfl | habove
              · rw [hnone] at h
                cases h
              · exact hnearest above habove h

end FileTree

end SettingsBinding
