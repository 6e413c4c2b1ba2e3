import SettingsBinding.Commands.Inputs
import SettingsBinding.Proofs.Config
import SettingsBinding.Proofs.Files.Compositional
import SettingsBinding.Proofs.Files.Machine
import SettingsBinding.Proofs.Settings.Documents

/-!
What a pass finds in the files, and what can be wrong with it. All of it is told from the files, the
current directory and the configuration. To read the inputs leaves the files as they are.
-/

namespace SettingsBinding

inductive InputFault where
  | model (p : Path) (failure : Failure)
  | folder (p : Path) (failure : Failure)
  | settingsFile (p : Path) (failure : Failure)
  | config (failure : Failure)
  /-- A settings document that cannot be merged. -/
  | document (failure : Failure)
  deriving DecidableEq, Repr

/-- The error that reports a fault. The context is that of merging settings documents. -/
def InputFault.trail (context : String) : InputFault → ErrorTrail
  | model p failure =>
    (ErrorTrail.ofFailure failure).within s!"Failed to load semantic model {p.text}"
  | folder p failure => (ErrorTrail.ofFailure failure).within s!"Failed to search {p.text}"
  | settingsFile p failure =>
    (ErrorTrail.ofFailure failure).within s!"Failed to read settings file {p.text}"
  | config failure => .ofFailure failure
  | document failure => (ErrorTrail.ofFailure failure).within context

namespace FileTree

def program (t : FileTree) (directory : Location) (p : Path) : Except Failure ProgramModel := do
  let text ← (t.readText directory p).mapError (.ofFile p)
  withContext p.text (ProgramModel.parse text)

def settingsDocument (t : FileTree) (directory : Location) (p : Path) :
    Except Failure SettingsDocument := do
  let text ← (t.readText directory p).mapError (.ofFile p)
  return ⟨p.text, text⟩

def isFile (t : FileTree) (directory : Location) (p : Path) : Bool :=
  (t.find? directory p).map Machine.kindOf == some .file

def settingsFiles (t : FileTree) (directory : Location) (fileName : String) (folder : Path) :
    Except Failure (List Path) := do
  let names ← (t.list directory folder).mapError (.ofFile folder)
  return ((SettingsDocument.settingsNames folder fileName names).map folder.join).filter
    (t.isFile directory)

def found (t : FileTree) (directory : Location) (fileName : String)
    (settings : SettingsSelection) : Except InputFault (List Path) :=
  match settings.directory with
  | none => .ok []
  | some folder => (t.settingsFiles directory fileName folder).mapError (.folder folder)

/-- The settings documents that a selection selects: those in the named files, and behind them those
in the files that are found. -/
def documents (t : FileTree) (directory : Location) (fileName : String)
    (settings : SettingsSelection) : Except InputFault (List SettingsDocument) := do
  let found ← t.found directory fileName settings
  (settings.files ++ found).mapM fun p =>
    (t.settingsDocument directory p).mapError (.settingsFile p)

/-! ### Faults -/

def modelFault? (t : FileTree) (directory : Location) (model : Path) : Option InputFault :=
  (Steps.error? (t.program directory model)).map (.model model)

def settingsFault? (t : FileTree) (directory : Location) (fileName : String)
    (settings : SettingsSelection) : Option InputFault :=
  Steps.error? (t.documents directory fileName settings)

def documentFault? (t : FileTree) (directory : Location) (fileName : String)
    (settings : SettingsSelection) : Option InputFault := do
  let documents ← (t.documents directory fileName settings).toOption
  (documents.findSome? fun d => Steps.error? d.tree?).map .document

end FileTree

def Config.fault? (config : Config) : Option InputFault :=
  (Steps.error? config.checked).map .config

/-- The first thing that is wrong with the inputs of a pass. -/
def FileTree.firstFault? (t : FileTree) (directory : Location) (config : Config) (model : Path)
    (settings : SettingsSelection) : Option InputFault :=
  (t.modelFault? directory model).or <|
    (t.settingsFault? directory config.settingsFileName settings).or <|
      config.fault?.or (t.documentFault? directory config.settingsFileName settings)

namespace FileTree

/-- What a pass works on, before its settings documents are merged. -/
def passInput (t : FileTree) (directory : Location) (config : Config) (model : Path)
    (settings : SettingsSelection) : Except InputFault PassInput := do
  let program ← (t.program directory model).mapError (.model model)
  let documents ← t.documents directory config.settingsFileName settings
  let _ ← config.checked.mapError .config
  return ⟨config, fun _ => false, documents, program.types⟩

variable {t : FileTree} {directory : Location} {config : Config} {model : Path}
  {settings : SettingsSelection}

theorem passInput_eq_ok_iff {input : PassInput} :
    t.passInput directory config model settings = .ok input ↔
      ∃ program documents, t.program directory model = .ok program ∧
        t.documents directory config.settingsFileName settings = .ok documents ∧
        config.checked = .ok config ∧
        input = ⟨config, fun _ => false, documents, program.types⟩ := by
  simp only [passInput, Steps.bind_eq_ok_iff, Steps.mapError_eq_ok_iff]
  constructor
  · rintro ⟨program, hprogram, documents, hdocuments, accepted, hchecked, hinput⟩
    obtain rfl := Config.eq_of_checked hchecked
    exact ⟨program, documents, hprogram, hdocuments, hchecked, (Except.ok.inj hinput).symm⟩
  · rintro ⟨program, documents, hprogram, hdocuments, hchecked, rfl⟩
    exact ⟨program, hprogram, documents, hdocuments, config, hchecked, rfl⟩

theorem error?_passInput (t : FileTree) (directory : Location) (config : Config) (model : Path)
    (settings : SettingsSelection) :
    Steps.error? (t.passInput directory config model settings) =
      (t.modelFault? directory model).or
        ((t.settingsFault? directory config.settingsFileName settings).or config.fault?) := by
  rw [passInput, modelFault?, settingsFault?, Config.fault?]
  cases t.program directory model with
  | error failure => rfl
  | ok program =>
      cases t.documents directory config.settingsFileName settings with
      | error fault => rfl
      | ok documents =>
          cases config.checked with
          | error failure => rfl
          | ok accepted => rfl

/-- The faults that keep the inputs from being loaded come before those of the documents. -/
theorem firstFault?_eq (t : FileTree) (directory : Location) (config : Config) (model : Path)
    (settings : SettingsSelection) :
    t.firstFault? directory config model settings =
      (Steps.error? (t.passInput directory config model settings)).or
        (t.documentFault? directory config.settingsFileName settings) := by
  rw [error?_passInput, Option.or_assoc, Option.or_assoc]
  rfl

theorem firstFault?_of_error {fault : InputFault}
    (h : t.passInput directory config model settings = .error fault) :
    t.firstFault? directory config model settings = some fault := by
  rw [firstFault?_eq, h]
  rfl

theorem firstFault?_of_ok {input : PassInput}
    (h : t.passInput directory config model settings = .ok input) :
    t.firstFault? directory config model settings =
      (Steps.error? input.merge).map .document := by
  rw [firstFault?_eq, h]
  obtain ⟨program, documents, hprogram, hdocuments, hchecked, rfl⟩ := passInput_eq_ok_iff.1 h
  rw [documentFault?, hdocuments, PassInput.merge, MergedSettings.error?_ofDocuments]
  rfl

theorem exists_merge_of_no_fault (h : t.firstFault? directory config model settings = none) :
    ∃ input merged, t.passInput directory config model settings = .ok input ∧
      input.merge = .ok merged := by
  cases hinput : t.passInput directory config model settings with
  | error fault =>
      rw [firstFault?_of_error hinput] at h
      cases h
  | ok input =>
      rw [firstFault?_of_ok hinput, Option.map_eq_none_iff] at h
      obtain ⟨merged, hmerge⟩ := Steps.error?_eq_none_iff.1 h
      exact ⟨input, merged, rfl, hmerge⟩

end FileTree

/-! ### Reading -/

namespace Machine

variable (directory : Location) (t : FileTree)

theorem ends_loadModel (p : Path) :
    Ends directory t (ProgramModel.load p).run (t.program directory p) t := by
  apply (ends_readText directory t p).lift.bind_ok
  rw [FileTree.program]
  cases t.readText directory p with
  | error e => exact ends_pure directory t _
  | ok text => exact ends_pure directory t _

theorem ends_loadSettings (p : Path) :
    Ends directory t (SettingsDocument.load p).run (t.settingsDocument directory p) t := by
  apply (ends_readText directory t p).lift.bind_ok
  rw [FileTree.settingsDocument]
  cases t.readText directory p with
  | error e => exact ends_pure directory t _
  | ok text => exact ends_pure directory t _

theorem ends_discoverSettings (fileName : String) (folder : Path) :
    Ends directory t (discoverSettings folder fileName).run
      (t.settingsFiles directory fileName folder) t := by
  apply (ends_list directory t folder).lift.bind_ok
  rw [FileTree.settingsFiles]
  cases t.list directory folder with
  | error e => exact ends_pure directory t _
  | ok names =>
      apply (ends_filterM (ends_isFile directory t) _).lift.bind_ok
      apply (ends_say directory t _).lift.bind_ok
      exact ends_pure directory t _

theorem ends_loadDocument (context : String) (p : Path) :
    Ends directory t (SettingsSelection.loadDocument p).run
      (((t.settingsDocument directory p).mapError (.settingsFile p)).mapError
        (InputFault.trail context)) t := by
  rw [Steps.mapError_mapError]
  apply (ends_say directory t _).lift.bind_ok
  exact (ends_loadSettings directory t p).adapt _

theorem ends_found (context : String) (settings : SettingsSelection) (fileName : String) :
    Ends directory t (settings.found fileName).run
      ((t.found directory fileName settings).mapError (InputFault.trail context)) t := by
  rw [SettingsSelection.found, FileTree.found]
  cases settings.directory with
  | none => exact ends_pure directory t _
  | some folder =>
      rw [Steps.mapError_mapError, ← bind_pure (Except.mapError _ _)]
      apply ((ends_discoverSettings directory t fileName folder).adapt _).bind_step
      intro paths
      -- Only the warning depends on whether something is found.
      cases paths.isEmpty with
      | true => exact (ends_say directory t _).lift.bind_ok (ends_pure directory t _)
      | false => exact ends_pure directory t _

theorem ends_loadDocuments (context : String) (settings : SettingsSelection) (fileName : String) :
    Ends directory t (settings.load fileName).run
      ((t.documents directory fileName settings).mapError (InputFault.trail context)) t := by
  rw [FileTree.documents, Steps.mapError_bind]
  apply (ends_found directory t context settings fileName).bind_step
  intro found
  rw [Steps.mapError_mapM]
  exact ends_mapM (ends_loadDocument directory t context) _

theorem ends_checkConfig (context : String) (config : Config) :
    Ends directory t (checkConfig config).run
      (((config.checked.mapError .config).mapError (InputFault.trail context)).map
        fun _ => ()) t := by
  rw [checkConfig]
  cases config.checked with
  | error failure => exact ends_pure directory t _
  | ok accepted => exact ends_pure directory t _

/-- The inputs of a pass are loaded, or the fault is reported that keeps them from being loaded. -/
theorem ends_loadInput (context : String) (config : Config) (model : Path)
    (settings : SettingsSelection) :
    Ends directory t (PassInput.load config model settings).run
      ((t.passInput directory config model settings).mapError (InputFault.trail context)) t := by
  simp only [FileTree.passInput, Steps.mapError_bind]
  rw [Steps.mapError_mapError]
  apply ((ends_loadModel directory t model).adapt _).bind_step
  intro program
  apply (ends_loadDocuments directory t context settings config.settingsFileName).bind_step
  intro documents
  have hchecked := ends_checkConfig directory t context config
  cases hconfig : config.checked with
  | error failure =>
      rw [hconfig] at hchecked
      exact hchecked.bind_error
  | ok accepted =>
      rw [hconfig] at hchecked
      exact hchecked.bind_ok (ends_pure directory t _)

/-! ### Properties of the actions -/

namespace Compositional

variable {P : ∀ α : Type, StateM Machine α → Prop} {fileName : String}

theorem loadModel (hP : Compositional P) (p : Path) : P _ (ProgramModel.load p).run := by
  apply hP.lift_step (hP.readText p)
  intro result
  cases result with
  | error e => exact hP.pure _
  | ok text => exact hP.pure _

theorem loadDocument (hP : Compositional P) (p : Path) :
    P _ (SettingsSelection.loadDocument p).run := by
  apply hP.lift_step (hP.log _)
  intro _
  apply hP.adapt
  apply hP.lift_step (hP.readText p)
  intro result
  cases result with
  | error e => exact hP.pure _
  | ok text => exact hP.pure _

/-- Such a property is one of loading settings documents if it is one of searching a directory. -/
theorem loadDocuments (hP : Compositional P)
    (hdiscover : ∀ folder, P _ (discoverSettings folder fileName).run)
    (settings : SettingsSelection) : P _ (settings.load fileName).run := by
  have hfound : P _ (settings.found fileName).run := by
    rw [SettingsSelection.found]
    cases settings.directory with
    | none => exact hP.pure _
    | some folder =>
        apply hP.step (hP.adapt (hdiscover folder) _)
        intro paths
        cases paths.isEmpty with
        | true => exact hP.lift_step (hP.log _) fun _ => hP.pure _
        | false => exact hP.pure _
  exact hP.step hfound fun _ => hP.mapM hP.loadDocument _

theorem checkConfig (hP : Compositional P) (config : Config) :
    P _ (SettingsBinding.checkConfig config).run :=
  hP.pure _

end Compositional

end Machine

end SettingsBinding
