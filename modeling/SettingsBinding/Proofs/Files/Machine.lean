import SettingsBinding.Commands.Basic
import SettingsBinding.Files.Machine
import SettingsBinding.Proofs.Files.Tree

/-!
How actions end on a machine. All that the actions here look at are the files and the current
directory; what was reported before makes no difference to them. So an action is told by its result
and by the files that it leaves, and actions are put together by what the one before leaves to the
one behind.
-/

namespace SettingsBinding.Machine

variable {α β ε : Type} {directory : Location} {t u v : FileTree} {a : α} {b : β}

/-- On any machine with these files and this current directory the action ends with the result, and
leaves the files `u`. Besides that it only reports. -/
def Ends (directory : Location) (t : FileTree) (action : StateM Machine α) (a : α) (u : FileTree) :
    Prop :=
  ∀ machine : Machine, machine.files = t → machine.directory = directory →
    ∃ said, action.run machine =
      (a, { machine with files := u, console := machine.console ++ said })

theorem Ends.run {action : StateM Machine α} {machine : Machine}
    (h : Ends machine.directory machine.files action a u) :
    (action.run machine).1 = a ∧ (action.run machine).2.files = u := by
  obtain ⟨said, hrun⟩ := h machine rfl rfl
  rw [hrun]
  exact ⟨rfl, rfl⟩

theorem ends_pure (directory : Location) (t : FileTree) (a : α) :
    Ends directory t (pure a) a t := by
  rintro machine rfl -
  exact ⟨[], by rw [List.append_nil]; rfl⟩

theorem Ends.bind {action : StateM Machine α} {next : α → StateM Machine β}
    (h : Ends directory t action a u) (hnext : Ends directory u (next a) b v) :
    Ends directory t (action >>= next) b v := by
  intro machine hfiles hdirectory
  obtain ⟨said, hrun⟩ := h machine hfiles hdirectory
  obtain ⟨saidNext, hrunNext⟩ := hnext
    { machine with files := u, console := machine.console ++ said } rfl hdirectory
  refine ⟨said ++ saidNext, ?_⟩
  rw [StateT.run_bind, hrun]
  exact hrunNext.trans (by rw [List.append_assoc])

theorem Ends.map {action : StateM Machine α} (h : Ends directory t action a u) (f : α → β) :
    Ends directory t (f <$> action) (f a) u := by
  intro machine hfiles hdirectory
  obtain ⟨said, hrun⟩ := h machine hfiles hdirectory
  exact ⟨said, by rw [StateT.run_map, hrun]; rfl⟩

/-! ### Steps that can fail -/

section

variable {action : ExceptT ε (StateM Machine) α} {next : α → ExceptT ε (StateM Machine) β}
  {result : Except ε β} {e : ε}

theorem Ends.bind_ok (h : Ends directory t action.run (.ok a) u)
    (hnext : Ends directory u (next a).run result v) :
    Ends directory t (action >>= next).run result v := by
  rw [ExceptT.run_bind]
  exact h.bind hnext

theorem Ends.bind_error (h : Ends directory t action.run (.error e) u) :
    Ends directory t (action >>= next).run (.error e) u := by
  rw [ExceptT.run_bind]
  exact h.bind (ends_pure directory u _)

theorem Ends.lift {action : StateM Machine α} (h : Ends directory t action a u) :
    Ends directory t (liftM action : ExceptT ε (StateM Machine) α).run (.ok a) u :=
  h.map Except.ok

theorem Ends.adapt {found : Except ε α} (h : Ends directory t action.run found u) (f : ε → β) :
    Ends directory t (action.adapt f).run (found.mapError f) u := h.map (Except.mapError f)

theorem Ends.bind_step {found : Except ε α} {rest : α → Except ε β}
    (h : Ends directory t action.run found t)
    (hnext : ∀ a, Ends directory t (next a).run (rest a) t) :
    Ends directory t (action >>= next).run (found >>= rest) t := by
  cases found with
  | error e => exact h.bind_error
  | ok a => exact h.bind_ok (hnext a)

theorem ends_mapM {f : α → ExceptT ε (StateM Machine) β} {g : α → Except ε β}
    (h : ∀ a, Ends directory t (f a).run (g a) t) (items : List α) :
    Ends directory t (items.mapM f).run (items.mapM g) t := by
  induction items with
  | nil => exact ends_pure directory t _
  | cons item items ih =>
      rw [List.mapM_cons, List.mapM_cons]
      exact (h item).bind_step fun b => ih.bind_step fun bs => ends_pure directory t _

end

/-! ### Operations -/

theorem ends_readText (directory : Location) (t : FileTree) (p : Path) :
    Ends directory t (MonadMachine.readText p) (t.readText directory p) t := by
  rintro machine rfl rfl
  exact ⟨[], by rw [List.append_nil]; rfl⟩

theorem ends_list (directory : Location) (t : FileTree) (p : Path) :
    Ends directory t (MonadMachine.list p) (t.list directory p) t := by
  rintro machine rfl rfl
  exact ⟨[], by rw [List.append_nil]; rfl⟩

theorem ends_isFile (directory : Location) (t : FileTree) (p : Path) :
    Ends directory t (MonadMachine.isFile p)
      ((t.find? directory p).map kindOf == some .file) t := by
  rintro machine rfl rfl
  exact ⟨[], by rw [List.append_nil]; rfl⟩

theorem ends_isDirectory (directory : Location) (t : FileTree) (p : Path) :
    Ends directory t (MonadMachine.isDirectory p)
      ((t.find? directory p).map kindOf == some .directory) t := by
  rintro machine rfl rfl
  exact ⟨[], by rw [List.append_nil]; rfl⟩

theorem ends_say (directory : Location) (t : FileTree) (utterance : Utterance) :
    Ends directory t (say utterance) () t := by
  rintro machine rfl -
  exact ⟨[utterance], rfl⟩

theorem run_change_ok {f : Machine → Except SystemError FileTree} {machine : Machine}
    {files : FileTree} (h : f machine = .ok files) :
    (change f).run machine = (.ok (), { machine with files }) := by
  rw [change, StateT.run_bind]
  simp only [StateT.run_get, pure_bind, h]
  rfl

theorem run_change_error {f : Machine → Except SystemError FileTree} {machine : Machine}
    {e : SystemError} (h : f machine = .error e) :
    (change f).run machine = (.error e, machine) := by
  rw [change, StateT.run_bind]
  simp only [StateT.run_get, pure_bind, h]
  rfl

theorem ends_change_ok {f : Machine → Except SystemError FileTree}
    (h : ∀ machine : Machine, machine.files = t → machine.directory = directory →
      f machine = .ok u) : Ends directory t (change f) (.ok ()) u := by
  intro machine hfiles hdirectory
  exact ⟨[], by rw [run_change_ok (h machine hfiles hdirectory), List.append_nil]⟩

theorem ends_change_error {f : Machine → Except SystemError FileTree} {e : SystemError}
    (h : ∀ machine : Machine, machine.files = t → machine.directory = directory →
      f machine = .error e) : Ends directory t (change f) (.error e) t := by
  intro machine hfiles hdirectory
  refine ⟨[], ?_⟩
  rw [run_change_error (h machine hfiles hdirectory), List.append_nil, ← hfiles]

theorem ends_makeDirectory_ok {p : Path} (h : t.makeDirectory directory p = .ok u) :
    Ends directory t (MonadMachine.makeDirectory p) (.ok ()) u :=
  ends_change_ok fun _ hfiles hdirectory => by rw [hfiles, hdirectory, h]

theorem ends_makeDirectory_error {p : Path} {e : SystemError}
    (h : t.makeDirectory directory p = .error e) :
    Ends directory t (MonadMachine.makeDirectory p) (.error e) t :=
  ends_change_error fun _ hfiles hdirectory => by rw [hfiles, hdirectory, h]

theorem ends_writeText_ok {p : Path} {content : String}
    (h : t.writeText directory p content = .ok u) :
    Ends directory t (MonadMachine.writeText p content) (.ok ()) u :=
  ends_change_ok fun _ hfiles hdirectory => by rw [hfiles, hdirectory, h]

theorem ends_writeText_error {p : Path} {content : String} {e : SystemError}
    (h : t.writeText directory p content = .error e) :
    Ends directory t (MonadMachine.writeText p content) (.error e) t :=
  ends_change_error fun _ hfiles hdirectory => by rw [hfiles, hdirectory, h]

theorem ends_forM {action : α → StateM Machine Unit}
    (h : ∀ a, Ends directory t (action a) () t) (items : List α) :
    Ends directory t (items.forM action) () t := by
  induction items with
  | nil => exact ends_pure directory t ()
  | cons item items ih =>
      rw [List.forM_eq_forM, List.forM_cons]
      exact (h item).bind ih

theorem ends_filterM {test : α → StateM Machine Bool} {keep : α → Bool}
    (h : ∀ a, Ends directory t (test a) (keep a) t) (items : List α) :
    Ends directory t (items.filterM test) (items.filter keep) t := by
  have hloop : ∀ kept, Ends directory t (items.filterAuxM test kept)
      ((items.filter keep).reverse ++ kept) t := by
    induction items with
    | nil => exact fun kept => ends_pure directory t kept
    | cons item items ih =>
        intro kept
        refine (h item).bind ?_
        have hrest := ih (bif keep item then item :: kept else kept)
        cases hkeep : keep item with
        | true =>
            rw [hkeep] at hrest
            rw [List.filter_cons_of_pos hkeep, List.reverse_cons, List.append_assoc]
            exact hrest
        | false =>
            rw [hkeep] at hrest
            rw [List.filter_cons_of_neg (Bool.not_eq_true _ ▸ hkeep)]
            exact hrest
  have hkept := hloop []
  rw [List.append_nil] at hkept
  have hend : Ends directory t (items.filterM test) (items.filter keep).reverse.reverse t :=
    hkept.bind (ends_pure directory t _)
  rwa [List.reverse_reverse] at hend

theorem ends_logAll (directory : Location) (t : FileTree) (events : List LogEvent) :
    Ends directory t (MonadMachine.logAll events) () t :=
  ends_forM (fun e => ends_say directory t (.event e)) events

/-! ### Directories that are missing -/

theorem ends_ensureDirectory (directory : Location) (t : FileTree) (p : Path) :
    ∃ result u, Ends directory t (MonadMachine.ensureDirectory p) result u ∧
      t.OnlyMakes u directory [p] := by
  cases hmake : t.makeDirectory directory p with
  | ok u =>
      refine ⟨_, u, (ends_makeDirectory_ok hmake).bind (ends_pure directory u _), ?_⟩
      exact FileTree.onlyMakes_of_makeDirectory (List.mem_singleton_self p) hmake
  | error e =>
      cases hkind : (t.find? directory p).map kindOf == some .directory with
      | true =>
          refine ⟨.ok (), t, (ends_makeDirectory_error hmake).bind
            ((ends_isDirectory directory t p).bind ?_), .refl t directory [p]⟩
          rw [hkind]
          exact ends_pure directory t _
      | false =>
          refine ⟨.error e, t, (ends_makeDirectory_error hmake).bind
            ((ends_isDirectory directory t p).bind ?_), .refl t directory [p]⟩
          rw [hkind]
          exact ends_pure directory t _

/-- Whether it succeeds or not, only directories are made, at places that the path or a path above
it leads to. -/
theorem ends_makeDirectories (directory : Location) (t : FileTree) (room : Nat) (p : Path) :
    ∃ result u, Ends directory t (MonadMachine.makeDirectories room p) result u ∧
      t.OnlyMakes u directory (p.ancestorsWithin room) := by
  induction room generalizing t p with
  | zero =>
      rw [MonadMachine.makeDirectories]
      split
      · exact ⟨_, t, ends_pure directory t _, .refl t directory _⟩
      · exact ends_ensureDirectory directory t p
  | succ room ih =>
      have hself : ∀ q ∈ [p], q ∈ p.ancestorsWithin (room + 1) := fun q hq =>
        List.mem_singleton.1 hq ▸ p.mem_ancestorsWithin (room + 1)
      obtain ⟨result, u, hensure, hmade⟩ := ends_ensureDirectory directory t p
      have hmade := hmade.mono hself
      rw [MonadMachine.makeDirectories]
      split
      · exact ⟨_, t, ends_pure directory t _, .refl t directory _⟩
      · -- What is done behind the first attempt adds to what that has made.
        suffices hnext : ∃ last v, Ends directory u _ last v ∧
            u.OnlyMakes v directory (p.ancestorsWithin (room + 1)) by
          obtain ⟨last, v, hlast, hmade'⟩ := hnext
          exact ⟨last, v, hensure.bind hlast, hmade.trans hmade'⟩
        split
        · next parent hparent =>
            have hsub : ∀ q ∈ parent.ancestorsWithin room, q ∈ p.ancestorsWithin (room + 1) := by
              rw [Path.ancestorsWithin, hparent]
              exact fun q => List.mem_cons_of_mem p
            obtain ⟨result, v, hparents, habove⟩ := ih u parent
            have habove := habove.mono hsub
            cases result with
            | error e => exact ⟨_, v, hparents.bind (ends_pure directory v _), habove⟩
            | ok _ =>
                obtain ⟨last, w, hagain, hlast⟩ := ends_ensureDirectory directory v p
                exact ⟨last, w, hparents.bind hagain, habove.trans (hlast.mono hself)⟩
        · exact ⟨_, u, ends_pure directory u _, .refl u directory _⟩

end SettingsBinding.Machine
