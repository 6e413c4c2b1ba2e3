import SettingsBinding.Proofs.Commands.Output
import SettingsBinding.Proofs.Files.Ways

/-!
When a file can be written under a path of names, told from the tree of files: the directories above
it are there or can be made, and its place is free or holds a file.
-/

namespace SettingsBinding

open FileTree (startOf)
open SettingsBinding.Path (IsName ofNames)

/-- A file can be put at the end of a way: every place before it is free or a directory, and the
last one is free or holds a file. -/
structure FileTree.Admits (t : FileTree) (start names : Location) : Prop where
  above : ∀ k, k <+: names → k ≠ names →
    t.get? (start ++ k) = none ∨ t.get? (start ++ k) = some .directory
  place : t.takesFile (start ++ names) = true

namespace FileTree

variable {t u : FileTree} {directory start : Location} {front : Location} {name : String}

theorem admits_append_singleton_iff :
    t.Admits start (front ++ [name]) ↔
      t.IsOpen start front ∧ t.takesFile (start ++ (front ++ [name])) = true := by
  constructor
  · rintro ⟨habove, hplace⟩
    refine ⟨fun k hk => habove k (hk.trans (List.prefix_append front [name])) ?_, hplace⟩
    rintro rfl
    exact absurd hk.length_le (by simp)
  · rintro ⟨hopen, hplace⟩
    refine ⟨fun k hk hne => hopen k ?_, hplace⟩
    exact (List.prefix_concat_iff.1 hk).resolve_left hne

theorem takesFile_congr {l : Location} (h : u.get? l = t.get? l) :
    u.takesFile l = t.takesFile l := by
  rw [takesFile, takesFile, h]

theorem takesFile_of_none {l : Location} (h : t.get? l = none) : t.takesFile l = true := by
  rw [takesFile, h]
  rfl

end FileTree

namespace Machine

variable {machine : Machine} {names front : Location} {name : String} {root : Bool}

theorem length_le_pieces_ofNames (hnames : ∀ name ∈ names, IsName name) :
    names.length ≤ (ofNames root names).pieces.length := by
  by_cases hne : names = []
  · simp [hne]
  · rw [Path.pieces_ofNames hnames hne, List.length_append]
    exact Nat.le_add_left _ _

theorem canWrite_of_admits (hnames : ∀ piece ∈ front ++ [name], IsName piece)
    (hdirectory : machine.files.get? machine.directory = some .directory)
    (h : machine.files.Admits (startOf root machine.directory) (front ++ [name])) :
    machine.CanWrite (ofNames root (front ++ [name])) := by
  have hnames' : ∀ piece ∈ front, IsName piece := fun piece hpiece =>
    hnames piece (List.mem_append_left _ hpiece)
  have hname : IsName name := hnames name (by simp)
  have hstart : machine.files.get? (startOf root machine.directory) = some .directory := by
    cases root with
    | true => rfl
    | false => exact hdirectory
  obtain ⟨hopen, hplace⟩ := FileTree.admits_append_singleton_iff.1 h
  have hroom : front.length ≤ (ofNames root front).pieces.length :=
    length_le_pieces_ofNames hnames'
  obtain ⟨u, hmake, hpaved⟩ := ends_makeDirectories_of_isOpen hnames' hstart hopen hroom
  have hwrite : u.writeText machine.directory (ofNames root (front ++ [name])) "" =
      .ok (u.put (startOf root machine.directory ++ front ++ [name]) (.text "")) := by
    refine FileTree.writeText_eq_ok_iff.2 ⟨_, _, FileTree.target_of_passes hnames hpaved.passes,
      Path.getLast?_text_ofNames front hname, ?_, rfl⟩
    rwa [List.append_assoc, FileTree.takesFile_congr (hpaved.get?_append_singleton name)]
  have hend := ends_writeFile_of_ok (Path.parent?_ofNames hnames) hmake
    (ends_writeText_of_ok hwrite)
  exact ⟨"", hend.run.1⟩

theorem admits_of_canWrite (hnames : ∀ piece ∈ front ++ [name], IsName piece)
    (h : machine.CanWrite (ofNames root (front ++ [name]))) :
    machine.files.Admits (startOf root machine.directory) (front ++ [name]) := by
  have hnames' : ∀ piece ∈ front, IsName piece := fun piece hpiece =>
    hnames piece (List.mem_append_left _ hpiece)
  obtain ⟨content, hrun⟩ := h
  have hparent : (ofNames root (front ++ [name])).parent? = some (ofNames root front) :=
    Path.parent?_ofNames hnames
  obtain ⟨result, u, hmake, hmade⟩ := ends_makeDirectories machine.directory machine.files
    (ofNames root front).pieces.length (ofNames root front)
  cases result with
  | error e =>
      obtain ⟨trail, hend⟩ := ends_writeFile_of_error hparent hmake content
      rw [execute, hend.run.1] at hrun
      cases hrun
  | ok _ =>
      cases hwrite : u.writeText machine.directory (ofNames root (front ++ [name])) content with
      | error e =>
          obtain ⟨trail, hlast⟩ := ends_writeText_of_error hwrite
          rw [execute, (ends_writeFile_of_ok hparent hmake hlast).run.1] at hrun
          cases hrun
      | ok v =>
          obtain ⟨l, last, htarget, -, hfree, -⟩ := FileTree.writeText_eq_ok_iff.1 hwrite
          obtain ⟨rfl, rfl, hpasses⟩ := FileTree.passes_of_target hnames htarget
          -- What is a directory behind the step that makes directories was one or was free.
          refine FileTree.admits_append_singleton_iff.2 ⟨fun k hk => ?_, ?_⟩
          · rcases hmade (startOf root machine.directory ++ k) with hsame | ⟨hnone, -⟩
            · exact .inr (hsame.symm.trans (hpasses k hk))
            · exact .inl hnone
          · rw [← List.append_assoc]
            rcases hmade (startOf root machine.directory ++ front ++ [last]) with hsame | ⟨hnone, -⟩
            · rwa [← FileTree.takesFile_congr hsame]
            · exact FileTree.takesFile_of_none hnone

/-- A file can be written under a path of names if its place admits it. All the directories that are
missing above it are made then. -/
theorem canWrite_ofNames_iff (hnames : ∀ name ∈ names, IsName name) (hne : names ≠ [])
    (hdirectory : machine.files.get? machine.directory = some .directory) :
    machine.CanWrite (ofNames root names) ↔
      machine.files.Admits (startOf root machine.directory) names := by
  obtain rfl | ⟨front, name, rfl⟩ := List.eq_nil_or_concat names
  · exact absurd rfl hne
  · rw [List.concat_eq_append] at hnames ⊢
    exact ⟨admits_of_canWrite hnames, canWrite_of_admits hnames hdirectory⟩

end Machine

end SettingsBinding
