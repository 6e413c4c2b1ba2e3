import SettingsBinding.HostSource
import SettingsBinding.Proofs.Text.Pieces

/-!
The source of a host class, read back from its text. The lines are read from the front, imports and
properties each up to the first line that is none; so what a source says can be told from its text
whatever the width of the indentation is.
-/

namespace SettingsBinding

namespace HostSource

/-! ### Reading the lines -/

section TakeReadable

variable {α : Type}

/-- What the lines at the front say, and the lines from the first one on that cannot be read. -/
def takeReadable (read : List Char → Option α) : List (List Char) → List α × List (List Char)
  | [] => ([], [])
  | line :: rest =>
    match read line with
    | none => ([], line :: rest)
    | some a => (a :: (takeReadable read rest).1, (takeReadable read rest).2)

theorem takeReadable_append {read : List Char → Option α} {write : α → List Char} {items : List α}
    {stop : List Char} (h : ∀ a ∈ items, read (write a) = some a) (hstop : read stop = none)
    (rest : List (List Char)) :
    takeReadable read (items.map write ++ stop :: rest) = (items, stop :: rest) := by
  induction items with
  | nil =>
      rw [List.map_nil, List.nil_append, takeReadable, hstop]
  | cons a items ih =>
      obtain ⟨ha, hitems⟩ := List.forall_mem_cons.1 h
      rw [List.map_cons, List.cons_append, takeReadable, ha, ih hitems]

end TakeReadable

def importOf? (line : List Char) : Option String :=
  ((Diagnostic.dropStart? "using ".toList line).bind (dropEnding? ";".toList)).map String.ofList

/-- The class and the key of the section that a line declares a property for. -/
def propertyOf? (width level : Nat) (line : List Char) : Option (String × String) :=
  ((Diagnostic.dropStart? (indent width level "public ").toList line).bind
    (dropEnding? " \x7b get; set; \x7d".toList)).map Text.splitSpace

def classOf? (width level : Nat) : List (List Char) → Option (String × List (String × String))
  | declaration :: _ :: body =>
    (Diagnostic.dropStart? (indent width level "public partial class ").toList declaration).map
      fun name => (String.ofList name, (takeReadable (propertyOf? width (level + 1)) body).1)
  | _ => none

/-- The source whose class, in a namespace or in none, stands behind the imports. -/
def ofBody? (width : Nat) (imports : List String) (body : List (List Char)) : Option HostSource :=
  match body.head?.bind (Diagnostic.dropStart? "namespace ".toList) with
  | none => (classOf? width 0 body).map fun (className, sections) =>
      ⟨className, "", imports, sections⟩
  | some nameSpace => (classOf? width 1 (body.drop 2)).map fun (className, sections) =>
      ⟨className, String.ofList nameSpace, imports, sections⟩

/-- The source that has a text. The first line is the marker, and the one behind the imports is
empty. -/
def ofText? (width : Nat) (text : String) : Option HostSource :=
  let (imports, rest) := takeReadable importOf? ((text.toList.splitOn '\n').drop 1)
  ofBody? width imports (rest.drop 1)

/-! ### Single lines -/

theorem toList_indent (width level : Nat) (line : String) :
    (indent width level line).toList = List.replicate (level * width) ' ' ++ line.toList := by
  rw [indent, String.toList_append, String.toList_ofList]

theorem importOf?_importLine (nameSpace : String) :
    importOf? (importLine nameSpace).toList = some nameSpace := by
  have hstart : Diagnostic.dropStart? "using ".toList (importLine nameSpace).toList =
      some (nameSpace.toList ++ ";".toList) := by
    rw [importLine, String.toList_append, String.toList_append, List.append_assoc]
    exact Diagnostic.dropStart?_eq_some_iff.2 rfl
  have hending : dropEnding? ";".toList (nameSpace.toList ++ ";".toList) = some nameSpace.toList :=
    dropEnding?_eq_some_iff.2 rfl
  rw [importOf?, hstart, Option.bind_some, hending, Option.map_some, String.ofList_toList]

theorem propertyOf?_propertyLine {className : String} (h : Text.Spaceless className)
    (width level : Nat) (key : String) :
    propertyOf? width level (indent width level (propertyLine className key)).toList =
      some (className, key) := by
  have hstart : Diagnostic.dropStart? (indent width level "public ").toList
      (indent width level (propertyLine className key)).toList =
      some (className.toList ++ ' ' :: key.toList ++ " \x7b get; set; \x7d".toList) := by
    rw [Diagnostic.dropStart?_eq_some_iff, toList_indent, toList_indent, propertyLine]
    simp only [String.toList_append, List.append_assoc]
    rfl
  have hending : dropEnding? " \x7b get; set; \x7d".toList
      (className.toList ++ ' ' :: key.toList ++ " \x7b get; set; \x7d".toList) =
      some (className.toList ++ ' ' :: key.toList) :=
    dropEnding?_eq_some_iff.2 rfl
  rw [propertyOf?, hstart, Option.bind_some, hending, Option.map_some, Text.splitSpace_append h]

/-- The line that ends a class is shorter than what a property begins with. -/
theorem propertyOf?_closing (width level : Nat) :
    propertyOf? width (level + 1) (indent width level "\x7d").toList = none := by
  have hstart : Diagnostic.dropStart? (indent width (level + 1) "public ").toList
      (indent width level "\x7d").toList = none := by
    refine Option.eq_none_iff_forall_ne_some.2 fun rest hrest => ?_
    have hlength := congrArg List.length (Diagnostic.dropStart?_eq_some_iff.1 hrest)
    have hpublic : "public ".toList.length = 7 := rfl
    have hbrace : "\x7d".toList.length = 1 := rfl
    have hwidth : (level + 1) * width = level * width + width := Nat.succ_mul level width
    simp only [toList_indent, List.length_append, List.length_replicate, hpublic, hbrace] at hlength
    omega
  rw [propertyOf?, hstart]
  rfl

/-! ### The text of a source -/

structure Spaceless (source : HostSource) : Prop where
  className : Text.Spaceless source.className
  nameSpace : Text.Spaceless source.nameSpace
  imports : ∀ nameSpace ∈ source.imports, Text.Spaceless nameSpace
  sections : ∀ s ∈ source.sections, Text.Spaceless s.1 ∧ Text.Spaceless s.2

variable {source : HostSource}

theorem classOf?_classLines (h : source.Spaceless) (width level : Nat) (rest : List (List Char)) :
    classOf? width level ((source.classLines width level).map String.toList ++ rest) =
      some (source.className, source.sections) := by
  have hname : Diagnostic.dropStart? (indent width level "public partial class ").toList
      (indent width level ("public partial class " ++ source.className)).toList =
      some source.className.toList := by
    rw [Diagnostic.dropStart?_eq_some_iff, toList_indent, toList_indent, String.toList_append,
      List.append_assoc]
  have hsections : (takeReadable (propertyOf? width (level + 1))
      (source.sections.map (fun s => (indent width (level + 1) (propertyLine s.1 s.2)).toList) ++
        (indent width level "\x7d").toList :: rest)).1 = source.sections := by
    rw [takeReadable_append _ (propertyOf?_closing width level)]
    exact fun s hs => propertyOf?_propertyLine (h.sections s hs).1 width (level + 1) s.2
  simp only [classLines, List.map_append, List.map_cons, List.map_nil, List.map_map,
    List.cons_append, List.nil_append, List.append_assoc, classOf?, hname, Option.map_some,
    String.ofList_toList]
  exact congrArg (fun sections => some (source.className, sections)) hsections

def bodyLines (source : HostSource) (width : Nat) : List String :=
  if source.nameSpace = "" then source.classLines width 0
  else ["namespace " ++ source.nameSpace, "\x7b"] ++ source.classLines width 1 ++ ["\x7d"]

theorem ofBody?_bodyLines (h : source.Spaceless) (width : Nat) (rest : List (List Char)) :
    ofBody? width source.imports ((source.bodyLines width).map String.toList ++ rest) =
      some source := by
  rw [bodyLines]
  split
  · next hglobal =>
      have hclass : Diagnostic.dropStart? "namespace ".toList
          (indent width 0 ("public partial class " ++ source.className)).toList = none := by
        refine Option.eq_none_iff_forall_ne_some.2 fun rest hrest => ?_
        have heq := Diagnostic.dropStart?_eq_some_iff.1 hrest
        rw [toList_indent, Nat.zero_mul, String.toList_append] at heq
        cases heq
      have hhead : ((source.classLines width 0).map String.toList ++ rest).head?.bind
          (Diagnostic.dropStart? "namespace ".toList) = none := hclass
      rw [ofBody?, hhead, classOf?_classLines h, ← hglobal]
      rfl
  · next hnamed =>
      have hhead : (("namespace " ++ source.nameSpace).toList :: "\x7b".toList ::
          ((source.classLines width 1).map String.toList ++ ("\x7d".toList :: rest))).head?.bind
          (Diagnostic.dropStart? "namespace ".toList) = some source.nameSpace.toList := by
        rw [List.head?_cons, Option.bind_some, String.toList_append]
        exact Diagnostic.dropStart?_eq_some_iff.2 rfl
      have hlines : (["namespace " ++ source.nameSpace, "\x7b"] ++ source.classLines width 1 ++
          ["\x7d"]).map String.toList ++ rest =
          ("namespace " ++ source.nameSpace).toList :: "\x7b".toList ::
            ((source.classLines width 1).map String.toList ++ "\x7d".toList :: rest) := by
        simp
      rw [hlines, ofBody?, hhead]
      simp only [List.drop_succ_cons, List.drop_zero, classOf?_classLines h, Option.map_some,
        String.ofList_toList]

theorem isLine_indent {width level : Nat} {line : String} :
    Text.IsLine (indent width level line) ↔ Text.IsLine line := by
  rw [Text.IsLine, toList_indent, List.mem_append, not_or, and_iff_right]
  · rfl
  · exact fun h => absurd (List.eq_of_mem_replicate h) (by decide)

theorem isLine_of_mem_classLines (h : source.Spaceless) {width level : Nat} {line : String}
    (hline : line ∈ source.classLines width level) : Text.IsLine line := by
  simp only [classLines, List.mem_append, List.mem_cons, List.mem_map, List.not_mem_nil,
    or_false] at hline
  rcases hline with ((rfl | rfl) | ⟨⟨className, key⟩, hs, rfl⟩) | rfl
  · exact isLine_indent.2 (Text.isLine_append.2 ⟨by decide, h.className.isLine⟩)
  · exact isLine_indent.2 (by decide)
  · obtain ⟨hclass, hkey⟩ := h.sections _ hs
    simp only [isLine_indent, propertyLine, Text.isLine_append, hclass.isLine, hkey.isLine]
    decide
  · exact isLine_indent.2 (by decide)

theorem isLine_of_mem_bodyLines (h : source.Spaceless) {width : Nat} {line : String}
    (hline : line ∈ source.bodyLines width) : Text.IsLine line := by
  rw [bodyLines] at hline
  split at hline
  · exact isLine_of_mem_classLines h hline
  · simp only [List.mem_append, List.mem_cons, List.not_mem_nil, or_false] at hline
    rcases hline with ((rfl | rfl) | hline) | rfl
    · exact Text.isLine_append.2 ⟨by decide, h.nameSpace.isLine⟩
    · decide
    · exact isLine_of_mem_classLines h hline
    · decide

theorem lines_eq_append_bodyLines (source : HostSource) (width : Nat) :
    source.lines width =
      marker :: (source.imports.map importLine ++ "" :: source.bodyLines width) := by
  rw [lines, List.cons_append, List.cons_append, List.append_assoc]
  rfl

theorem isLine_of_mem_lines (h : source.Spaceless) {width : Nat} {line : String}
    (hline : line ∈ source.lines width) : Text.IsLine line := by
  rw [lines_eq_append_bodyLines] at hline
  simp only [List.mem_append, List.mem_cons, List.mem_map] at hline
  rcases hline with rfl | ⟨nameSpace, hmem, rfl⟩ | rfl | hline
  · decide
  · have hname := (h.imports nameSpace hmem).isLine
    simp only [importLine, Text.isLine_append, hname]
    decide
  · decide
  · exact isLine_of_mem_bodyLines h hline

/-- A source without white space in its names comes back from its text. -/
theorem ofText?_text (h : source.Spaceless) (width : Nat) :
    ofText? width (source.text width) = some source := by
  have hlines : (source.text width).toList.splitOn '\n' =
      marker.toList :: (source.imports.map (fun nameSpace => (importLine nameSpace).toList) ++
        "".toList :: ((source.bodyLines width).map String.toList ++ [[]])) := by
    rw [text, Text.splitOn_join_lines fun line hline => isLine_of_mem_lines h hline,
      lines_eq_append_bodyLines]
    simp
  have himports (rest : List (List Char)) : takeReadable importOf?
      (source.imports.map (fun nameSpace => (importLine nameSpace).toList) ++ "".toList :: rest) =
      (source.imports, "".toList :: rest) :=
    takeReadable_append (fun nameSpace _ => importOf?_importLine nameSpace) rfl rest
  rw [ofText?, hlines, List.drop_succ_cons, List.drop_zero, himports]
  exact ofBody?_bodyLines h width [[]]

end HostSource

end SettingsBinding
