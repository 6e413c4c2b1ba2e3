import SettingsBinding.Files.Machine

/-!
Properties of actions that pass from steps to what is put together of them. Such a property is shown
of the single operations only: loops, steps that can fail, and directories that are made with those
above them have it then.
-/

namespace SettingsBinding.Machine

variable {P : ∀ α : Type, StateM Machine α → Prop} {α β ε ε' : Type}

/-- A property of doing nothing, of one action behind another, and of all operations but those that
list a directory or print. -/
structure Compositional (P : ∀ α : Type, StateM Machine α → Prop) : Prop where
  pure {α : Type} (a : α) : P α (Pure.pure a)
  bind {α β : Type} {action : StateM Machine α} {next : α → StateM Machine β} :
    P α action → (∀ a, P β (next a)) → P β (action >>= next)
  readText (p : Path) : P _ (MonadMachine.readText p)
  kind? (p : Path) : P _ (MonadMachine.kind? p)
  makeDirectory (p : Path) : P _ (MonadMachine.makeDirectory p)
  writeText (p : Path) (content : String) : P _ (MonadMachine.writeText p content)
  log (e : LogEvent) : P _ (MonadMachine.log e)

namespace Compositional

theorem map (hP : Compositional P) {action : StateM Machine α} (h : P α action) (f : α → β) :
    P β (f <$> action) := by
  rw [map_eq_pure_bind]
  exact hP.bind h fun a => hP.pure (f a)

/-! ### Steps that can fail -/

section

variable {action : ExceptT ε (StateM Machine) α} {next : α → ExceptT ε (StateM Machine) β}

theorem step (hP : Compositional P) (h : P _ action.run) (hnext : ∀ a, P _ (next a).run) :
    P _ (action >>= next).run := by
  rw [ExceptT.run_bind]
  apply hP.bind h
  intro result
  cases result with
  | error e => exact hP.pure _
  | ok a => exact hnext a

theorem lift (hP : Compositional P) {action : StateM Machine α} (h : P α action) :
    P _ (liftM action : ExceptT ε (StateM Machine) α).run :=
  hP.map h Except.ok

theorem lift_step (hP : Compositional P) {action : StateM Machine α} (h : P α action)
    (hnext : ∀ a, P _ (next a).run) :
    P _ (liftM action >>= next : ExceptT ε (StateM Machine) β).run :=
  hP.step (hP.lift h) hnext

theorem adapt (hP : Compositional P) (h : P _ action.run) (f : ε → ε') :
    P _ (action.adapt f).run :=
  hP.map h (Except.mapError f)

theorem mapM (hP : Compositional P) {f : α → ExceptT ε (StateM Machine) β}
    (h : ∀ a, P _ (f a).run) (items : List α) : P _ (items.mapM f).run := by
  induction items with
  | nil => exact hP.pure _
  | cons item items ih =>
      rw [List.mapM_cons]
      exact hP.step (h item) fun b => hP.step ih fun bs => hP.pure _

end

/-! ### Loops -/

theorem forM (hP : Compositional P) {action : α → StateM Machine Unit} (h : ∀ a, P _ (action a))
    (items : List α) : P _ (items.forM action) := by
  induction items with
  | nil => exact hP.pure ()
  | cons item items ih =>
      rw [List.forM_eq_forM, List.forM_cons]
      exact hP.bind (h item) fun _ => ih

theorem filterM (hP : Compositional P) {test : α → StateM Machine Bool} (h : ∀ a, P _ (test a))
    (items : List α) : P _ (items.filterM test) := by
  have hloop : ∀ kept, P _ (items.filterAuxM test kept) := by
    induction items with
    | nil => exact fun kept => hP.pure kept
    | cons item items ih =>
        intro kept
        exact hP.bind (h item) fun keep => ih (bif keep then item :: kept else kept)
  exact hP.bind (hloop []) fun kept => hP.pure kept.reverse

theorem logAll (hP : Compositional P) (events : List LogEvent) :
    P _ (MonadMachine.logAll events) :=
  hP.forM hP.log events

/-! ### Operations -/

theorem isFile (hP : Compositional P) (p : Path) : P _ (MonadMachine.isFile p) :=
  hP.bind (hP.kind? p) fun _ => hP.pure _

theorem isDirectory (hP : Compositional P) (p : Path) : P _ (MonadMachine.isDirectory p) :=
  hP.bind (hP.kind? p) fun _ => hP.pure _

theorem ensureDirectory (hP : Compositional P) (p : Path) :
    P _ (MonadMachine.ensureDirectory p) := by
  apply hP.bind (hP.makeDirectory p)
  intro result
  cases result with
  | ok _ => exact hP.pure _
  | error e =>
      apply hP.bind (hP.isDirectory p)
      intro there
      cases there with
      | true => exact hP.pure _
      | false => exact hP.pure _

theorem makeDirectories (hP : Compositional P) (room : Nat) (p : Path) :
    P _ (MonadMachine.makeDirectories room p) := by
  induction room generalizing p with
  | zero =>
      rw [MonadMachine.makeDirectories]
      split
      · exact hP.pure _
      · exact hP.ensureDirectory p
  | succ room ih =>
      rw [MonadMachine.makeDirectories]
      split
      · exact hP.pure _
      · apply hP.bind (hP.ensureDirectory p)
        intro result
        split
        · next parent _ =>
            apply hP.bind (ih parent)
            intro result
            cases result with
            | error e => exact hP.pure _
            | ok _ => exact hP.ensureDirectory p
        · exact hP.pure _

end Compositional

end SettingsBinding.Machine
