import SettingsBinding.Proofs.Files.Compositional
import SettingsBinding.Proofs.Files.Machine

/-!
What actions print. Of all operations only those that print add to the output, so an action without
them ends as it does and prints nothing; and what one action prints comes in front of what the next
one prints.
-/

namespace SettingsBinding.Machine

variable {α β ε : Type} {directory : Location} {t u v : FileTree} {a : α} {b : β}
  {text more : String}

theorem output_append (machine : Machine) (said : List Utterance) :
    ({ machine with console := machine.console ++ said } : Machine).output =
      machine.output ++ String.join (said.filterMap Utterance.output?) := by
  simp only [output, List.filterMap_append, String.join_append]

/-! ### Actions that print nothing -/

def Silent (action : StateM Machine α) : Prop :=
  ∀ machine : Machine, (action.run machine).2.output = machine.output

theorem silent_pure (a : α) : Silent (pure a : StateM Machine α) := fun _ => rfl

theorem Silent.bind {action : StateM Machine α} {next : α → StateM Machine β}
    (h : Silent action) (hnext : ∀ a, Silent (next a)) : Silent (action >>= next) :=
  fun machine => (hnext _ _).trans (h machine)

theorem silent_change (f : Machine → Except SystemError FileTree) : Silent (change f) := by
  intro machine
  cases h : f machine with
  | error e => rw [run_change_error h]
  | ok files =>
      rw [run_change_ok h]
      rfl

theorem silent_log (e : LogEvent) : Silent (MonadMachine.log e : StateM Machine Unit) := by
  intro machine
  change ({ machine with console := machine.console ++ [.event e] } : Machine).output = _
  rw [output_append]
  exact String.append_empty

theorem silent_list (p : Path) :
    Silent (MonadMachine.list p : StateM Machine (Except SystemError (List String))) :=
  fun _ => rfl

theorem silent : Compositional @Silent where
  pure := silent_pure
  bind := Silent.bind
  readText _ _ := rfl
  kind? _ _ := rfl
  makeDirectory _ := silent_change _
  writeText _ _ := silent_change _
  log := silent_log

/-! ### What is printed -/

/-- On any machine with these files and this current directory the action ends with the result,
leaves the files `u`, and prints the text. -/
def Prints (directory : Location) (t : FileTree) (action : StateM Machine α) (a : α) (u : FileTree)
    (text : String) : Prop :=
  ∀ machine : Machine, machine.files = t → machine.directory = directory →
    ∃ after, action.run machine = (a, after) ∧ after.files = u ∧ after.directory = directory ∧
      after.output = machine.output ++ text

theorem Ends.prints {action : StateM Machine α} (h : Ends directory t action a u)
    (hsilent : Silent action) : Prints directory t action a u "" := by
  intro machine hfiles hdirectory
  obtain ⟨said, hrun⟩ := h machine hfiles hdirectory
  -- Events may have been reported, but none of them is part of the output.
  have hsame := hsilent machine
  rw [hrun] at hsame
  exact ⟨_, hrun, rfl, hdirectory, hsame.trans String.append_empty.symm⟩

theorem prints_print (directory : Location) (t : FileTree) (text : String) :
    Prints directory t (MonadMachine.print text) () t text := by
  intro machine hfiles hdirectory
  refine ⟨_, rfl, hfiles, hdirectory, ?_⟩
  exact (output_append machine [.output text]).trans (by simp [Utterance.output?])

theorem Prints.bind {action : StateM Machine α} {next : α → StateM Machine β}
    (h : Prints directory t action a u text) (hnext : Prints directory u (next a) b v more) :
    Prints directory t (action >>= next) b v (text ++ more) := by
  intro machine hfiles hdirectory
  obtain ⟨middle, hrun, hmiddle, hdirectory, hprinted⟩ := h machine hfiles hdirectory
  obtain ⟨after, hrunNext, hafter, hdirectory, hprintedNext⟩ := hnext middle hmiddle hdirectory
  refine ⟨after, ?_, hafter, hdirectory, ?_⟩
  · rw [StateT.run_bind, hrun]
    exact hrunNext
  · rw [hprintedNext, hprinted, String.append_assoc]

section

variable {action : ExceptT ε (StateM Machine) α} {next : α → ExceptT ε (StateM Machine) β}
  {result : Except ε β}

theorem Prints.bind_ok (h : Prints directory t action.run (.ok a) u text)
    (hnext : Prints directory u (next a).run result v more) :
    Prints directory t (action >>= next).run result v (text ++ more) := by
  rw [ExceptT.run_bind]
  exact h.bind hnext

theorem Prints.lift {action : StateM Machine α} (h : Prints directory t action a u text) :
    Prints directory t (liftM action : ExceptT ε (StateM Machine) α).run (.ok a) u text := by
  intro machine hfiles hdirectory
  obtain ⟨after, hrun, hafter⟩ := h machine hfiles hdirectory
  have hlift : (liftM action : ExceptT ε (StateM Machine) α).run = Except.ok <$> action := rfl
  exact ⟨after, by rw [hlift, StateT.run_map, hrun]; rfl, hafter⟩

end

end SettingsBinding.Machine
