import SettingsBinding.Commands.Output
import SettingsBinding.Proofs.Files.Compositional
import SettingsBinding.Proofs.Files.Machine

/-!
Where a command writes its result. Whether a file can be written under a path does not depend on
what is written: missing directories are made first, and then the file is written if its place is
free or holds a file.
-/

namespace SettingsBinding

/-- What is written to an output becomes of the files: nothing if it is printed, and else the file
holds it. -/
def FileTree.Delivers (t u : FileTree) (directory : Location) : Option Path → String → Prop
  | none, _ => u = t
  | some p, content => t.Holds u directory p content

namespace Machine

variable {directory : Location} {t u v : FileTree} {machine : Machine} {p : Path}

def execute {α : Type} (machine : Machine) (command : ExceptT ErrorTrail (StateM Machine) α) :
    Except ErrorTrail α × Machine :=
  command.run.run machine

def CanWrite (machine : Machine) (p : Path) : Prop :=
  ∃ content, (machine.execute (writeFile p content)).1 = .ok ()

/-- The last step of writing a file, behind the one that makes directories. -/
def writeText (p : Path) (content : String) : ExceptT ErrorTrail (StateM Machine) Unit := do
  if let .error e ← (MonadMachine.writeText p content : StateM Machine _) then
    throw ((ErrorTrail.ofSystem e).within s!"Failed to write output to {p.text}")

theorem writeFile_of_root (h : p.parent? = none) (content : String) :
    writeFile p content = writeText p content := by
  rw [writeFile, h]
  rfl

theorem writeFile_of_parent {parent : Path} (h : p.parent? = some parent) (content : String) :
    writeFile p content = (do
      if let .error e ← (MonadMachine.makeDirectories parent.pieces.length parent :
          StateM Machine _) then
        throw ((ErrorTrail.ofSystem e).within s!"Failed to create output directory {parent.text}")
      writeText p content : ExceptT ErrorTrail (StateM Machine) Unit) := by
  rw [writeFile, h]
  rfl

theorem Compositional.writeFile {P : ∀ α : Type, StateM Machine α → Prop} (hP : Compositional P)
    (p : Path) (content : String) : P _ (SettingsBinding.writeFile p content).run := by
  have hwrite : P _ (Machine.writeText p content).run := by
    apply hP.lift_step (hP.writeText p content)
    intro result
    cases result with
    | error e => exact hP.pure _
    | ok _ => exact hP.pure _
  cases hparent : p.parent? with
  | none => rwa [writeFile_of_root hparent]
  | some parent =>
      rw [writeFile_of_parent hparent]
      apply hP.lift_step (hP.makeDirectories _ parent)
      intro result
      cases result with
      | error e => exact hP.pure _
      | ok _ => exact hwrite

theorem ends_writeText_of_ok {content : String} (h : t.writeText directory p content = .ok u) :
    Ends directory t (writeText p content).run (.ok ()) u :=
  (ends_writeText_ok h).lift.bind_ok (ends_pure directory u _)

theorem ends_writeText_of_error {content : String} {e : SystemError}
    (h : t.writeText directory p content = .error e) :
    ∃ trail, Ends directory t (writeText p content).run (.error trail) t :=
  ⟨_, (ends_writeText_error h).lift.bind_ok (ends_pure directory t _)⟩

theorem ends_writeText (directory : Location) (t : FileTree) (p : Path) :
    (∀ content, ∃ trail, Ends directory t (writeText p content).run (.error trail) t) ∨
      ∀ content, ∃ u, t.writeText directory p content = .ok u ∧
        Ends directory t (writeText p content).run (.ok ()) u := by
  by_cases hsome : ∃ content u, t.writeText directory p content = .ok u
  · obtain ⟨content, u, hwrite⟩ := hsome
    refine .inr fun other => ?_
    obtain ⟨v, hother⟩ := FileTree.exists_writeText_of_ok hwrite other
    exact ⟨v, hother, ends_writeText_of_ok hother⟩
  · refine .inl fun content => ?_
    cases hwrite : t.writeText directory p content with
    | ok u => exact absurd ⟨content, u, hwrite⟩ hsome
    | error e => exact ends_writeText_of_error hwrite

section

variable {parent : Path} {e : SystemError} {result : Except ErrorTrail Unit} {content : String}

theorem ends_writeFile_of_error (hparent : p.parent? = some parent)
    (h : Ends directory t (MonadMachine.makeDirectories parent.pieces.length parent) (.error e) u)
    (content : String) : ∃ trail, Ends directory t (writeFile p content).run (.error trail) u := by
  rw [writeFile_of_parent hparent]
  exact ⟨_, h.lift.bind_ok (.bind_error (ends_pure directory u _))⟩

theorem ends_writeFile_of_ok (hparent : p.parent? = some parent)
    (h : Ends directory t (MonadMachine.makeDirectories parent.pieces.length parent) (.ok ()) u)
    (hlast : Ends directory u (writeText p content).run result v) :
    Ends directory t (writeFile p content).run result v := by
  rw [writeFile_of_parent hparent]
  exact h.lift.bind_ok hlast

end

/-- A file is written under a path with any text, or with none. -/
theorem ends_writeFile (directory : Location) (t : FileTree) (p : Path) :
    (∀ content, ∃ trail u, Ends directory t (writeFile p content).run (.error trail) u) ∨
      ∀ content, ∃ u, Ends directory t (writeFile p content).run (.ok ()) u ∧
        t.Holds u directory p content := by
  cases hparent : p.parent? with
  | none =>
      have hmade : t.OnlyMakes t directory p.above := .refl t directory _
      simp only [writeFile_of_root hparent]
      refine (ends_writeText directory t p).imp (fun hfail content => ?_) fun hwrite content => ?_
      · obtain ⟨trail, hend⟩ := hfail content
        exact ⟨trail, t, hend⟩
      · obtain ⟨u, hwrite, hend⟩ := hwrite content
        exact ⟨u, hend, FileTree.holds_of_writeText hmade hwrite⟩
  | some parent =>
      -- The directories are made before the text is looked at.
      obtain ⟨result, u, hend, hmade⟩ :=
        ends_makeDirectories directory t parent.pieces.length parent
      have hmade : t.OnlyMakes u directory p.above := by
        rwa [Path.above, hparent]
      cases result with
      | error e =>
          refine .inl fun content => ?_
          obtain ⟨trail, hfail⟩ := ends_writeFile_of_error hparent hend content
          exact ⟨trail, u, hfail⟩
      | ok _ =>
          refine (ends_writeText directory u p).imp (fun hfail content => ?_)
            fun hwrite content => ?_
          · obtain ⟨trail, hlast⟩ := hfail content
            exact ⟨trail, u, ends_writeFile_of_ok hparent hend hlast⟩
          · obtain ⟨v, hwrite, hlast⟩ := hwrite content
            exact ⟨v, ends_writeFile_of_ok hparent hend hlast,
              FileTree.holds_of_writeText hmade hwrite⟩

theorem CanWrite.ends (h : machine.CanWrite p) (content : String) :
    ∃ u, Ends machine.directory machine.files (writeFile p content).run (.ok ()) u ∧
      machine.files.Holds u machine.directory p content := by
  rcases ends_writeFile machine.directory machine.files p with hfail | hwrite
  · obtain ⟨other, hother⟩ := h
    obtain ⟨trail, u, hend⟩ := hfail other
    rw [execute, hend.run.1] at hother
    cases hother
  · exact hwrite content

theorem ends_writeOutput {output : Option Path} (h : ∀ p ∈ output, machine.CanWrite p)
    (quiet : Bool) (content : String) :
    ∃ u, Ends machine.directory machine.files (writeOutput output quiet content).run (.ok ()) u ∧
      machine.files.Delivers u machine.directory output content := by
  cases output with
  | none =>
      exact ⟨_, (ends_say _ _ (.output (endLine content))).lift, rfl⟩
  | some p =>
      obtain ⟨u, hend, hholds⟩ := (h p rfl).ends content
      refine ⟨u, hend.bind_ok ?_, hholds⟩
      cases quiet with
      | true => exact ends_pure _ u _
      | false => exact (ends_say _ u (.event (info s!"Output written to {p.text}"))).lift

end Machine

end SettingsBinding
