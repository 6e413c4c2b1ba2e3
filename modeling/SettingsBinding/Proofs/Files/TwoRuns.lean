import SettingsBinding.Proofs.Files.Compositional
import SettingsBinding.Proofs.Files.Listing
import SettingsBinding.Proofs.Files.Machine

/-!
Two runs of one action, on machines whose files are listed in different orders. An action that does
not look at the order gives the same result on both, reports the same, and leaves machines that
differ in the order at most. All operations on files are such actions but the one that lists a
directory, and actions put together of such ones are such again.
-/

namespace SettingsBinding

namespace FileTree

variable {t u : FileTree}

/-- Both changes of a tree fail with the same error, or both give trees with the same entries. -/
inductive SameChange : Except SystemError FileTree → Except SystemError FileTree → Prop
  | error (e : SystemError) : SameChange (.error e) (.error e)
  | ok {t u : FileTree} (h : t.Relisted u) : SameChange (.ok t) (.ok u)

theorem Relisted.makeDirectory (h : t.Relisted u) (directory : Location) (p : Path) :
    SameChange (t.makeDirectory directory p) (u.makeDirectory directory p) := by
  rw [FileTree.makeDirectory, FileTree.makeDirectory, h.target_eq]
  rcases u.target directory p with e | ⟨l, _ | name⟩
  · exact .error e
  · exact .error .exists
  · simp only [Steps.ok_bind, h.get?_eq]
    cases u.get? (l ++ [name]) with
    | some e => exact .error .exists
    | none => exact .ok (h.put _ _)

theorem Relisted.writeText (h : t.Relisted u) (directory : Location) (p : Path)
    (content : String) :
    SameChange (t.writeText directory p content) (u.writeText directory p content) := by
  rw [FileTree.writeText, FileTree.writeText, h.target_eq]
  rcases u.target directory p with e | ⟨l, _ | name⟩
  · exact .error e
  · exact .error .isADirectory
  · simp only [Steps.ok_bind, h.isDirectory_eq, h.takesFile_eq]
    split
    · exact .error .isADirectory
    · split
      · exact .ok (h.put _ _)
      · exact .error .cannotOpen

end FileTree

namespace Machine

variable {α β ε : Type}

/-- The two machines differ at most in the order in which their files are listed. -/
structure Relisted (machine other : Machine) : Prop where
  files : machine.files.Relisted other.files
  directory : machine.directory = other.directory
  configDirectory : machine.configDirectory = other.configDirectory
  console : machine.console = other.console

/-- The action gives related results on machines that differ in the order of files, and leaves
machines that do. -/
def Relates (action : StateM Machine α) (related : α → α → Prop) : Prop :=
  ∀ machine other, Relisted machine other →
    related (action.run machine).1 (action.run other).1 ∧
      Relisted (action.run machine).2 (action.run other).2

abbrev IgnoresListing (action : StateM Machine α) : Prop := Relates action Eq

theorem ignoresListing_pure (a : α) : IgnoresListing (pure a : StateM Machine α) :=
  fun _ _ h => ⟨rfl, h⟩

theorem Relates.bind {action : StateM Machine α} {related : α → α → Prop}
    {next : α → StateM Machine β} (h : Relates action related)
    (hsame : ∀ a b, related a b → next a = next b) (hnext : ∀ a, IgnoresListing (next a)) :
    IgnoresListing (action >>= next) := by
  intro machine other hrelisted
  obtain ⟨hresult, hleft⟩ := h machine other hrelisted
  have hrun (machine : Machine) : (action >>= next).run machine =
      (next (action.run machine).1).run (action.run machine).2 := rfl
  rw [hrun, hrun, hsame _ _ hresult]
  exact hnext _ _ _ hleft

/-! ### Steps that can fail -/

theorem Relates.lift_step {action : StateM Machine α} {related : α → α → Prop}
    {next : α → ExceptT ε (StateM Machine) β} (h : Relates action related)
    (hsame : ∀ a b, related a b → next a = next b) (hnext : ∀ a, IgnoresListing (next a).run) :
    IgnoresListing (liftM action >>= next : ExceptT ε (StateM Machine) β).run := by
  have hruns : IgnoresListing (action >>= fun a => (next a).run) :=
    h.bind (fun a b hab => congrArg ExceptT.run (hsame a b hab)) hnext
  exact hruns

/-! ### Operations -/

theorem relates_view (f : Machine → α) {related : α → α → Prop}
    (h : ∀ machine other, Relisted machine other → related (f machine) (f other)) :
    Relates (do return f (← get)) related :=
  fun machine other hrelisted => ⟨h machine other hrelisted, hrelisted⟩

theorem ignoresListing_readText (p : Path) : IgnoresListing (MonadMachine.readText p) :=
  relates_view (fun machine => machine.files.readText machine.directory p)
    fun machine other h => by rw [h.files.readText_eq, h.directory]

theorem ignoresListing_kind? (p : Path) : IgnoresListing (MonadMachine.kind? p) :=
  relates_view (fun machine => (machine.files.find? machine.directory p).map kindOf)
    fun machine other h => by rw [h.files.find?_eq, h.directory]

/-- A directory is listed with the same names, but in any order. -/
theorem relates_list (p : Path) : Relates (MonadMachine.list p) fun names others =>
    (∃ e, names = .error e ∧ others = .error e) ∨
      ∃ ns ms, names = .ok ns ∧ others = .ok ms ∧ ns.Perm ms := by
  refine relates_view (fun machine => machine.files.list machine.directory p)
    fun machine other h => ?_
  rw [FileTree.list, FileTree.list, h.files.resolve_eq, h.files.isDirectory_eq, h.directory]
  cases other.files.resolve other.directory p with
  | error e => exact .inl ⟨e, rfl, rfl⟩
  | ok l =>
      simp only [Steps.ok_bind, h.files.canList_eq]
      split
      · split
        · exact .inr ⟨_, _, rfl, rfl, h.files.names l⟩
        · exact .inl ⟨_, rfl, rfl⟩
      · exact .inl ⟨_, rfl, rfl⟩

theorem ignoresListing_change {f : Machine → Except SystemError FileTree}
    (h : ∀ machine other, Relisted machine other → FileTree.SameChange (f machine) (f other)) :
    IgnoresListing (change f) := by
  intro machine other hrelisted
  have hsame := h machine other hrelisted
  generalize hchanged : f machine = changed at hsame
  generalize hchanged' : f other = changed' at hsame
  cases hsame with
  | error e =>
      rw [run_change_error hchanged, run_change_error hchanged']
      exact ⟨rfl, hrelisted⟩
  | ok hfiles =>
      rw [run_change_ok hchanged, run_change_ok hchanged']
      exact ⟨rfl, ⟨hfiles, hrelisted.directory, hrelisted.configDirectory, hrelisted.console⟩⟩

theorem ignoresListing_makeDirectory (p : Path) :
    IgnoresListing (MonadMachine.makeDirectory p) :=
  ignoresListing_change fun machine other h => by
    rw [h.directory]
    exact h.files.makeDirectory other.directory p

theorem ignoresListing_writeText (p : Path) (content : String) :
    IgnoresListing (MonadMachine.writeText p content) :=
  ignoresListing_change fun machine other h => by
    rw [h.directory]
    exact h.files.writeText other.directory p content

theorem ignoresListing_say (utterance : Utterance) : IgnoresListing (say utterance) :=
  fun _ _ h => ⟨rfl, ⟨h.files, h.directory, h.configDirectory,
    congrArg (· ++ [utterance]) h.console⟩⟩

/-- Only the listing of a directory can make a difference. -/
theorem ignoresListing : Compositional @IgnoresListing where
  pure := ignoresListing_pure
  bind h hnext := Relates.bind h (fun _ _ => congrArg _) hnext
  readText := ignoresListing_readText
  kind? := ignoresListing_kind?
  makeDirectory := ignoresListing_makeDirectory
  writeText := ignoresListing_writeText
  log e := ignoresListing_say (.event e)

end Machine

end SettingsBinding
