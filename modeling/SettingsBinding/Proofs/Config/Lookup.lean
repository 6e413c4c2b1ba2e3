import Mathlib.Data.List.ReduceOption
import SettingsBinding.Config.Lookup
import SettingsBinding.Files.Machine
import SettingsBinding.Proofs.Config.Fields
import SettingsBinding.Proofs.Files.Ancestors
import SettingsBinding.Proofs.Yaml.Reading

/-!
Which configuration file counts, and what is made of it. Looking for a file leaves the machine as it
is, so a search is told by what it gives: the first path that leads anywhere in one list, which has
the names in the current directory first, then those at the root of the repository around it, then
those among the configuration files of the user. What a file is good for is told by that file
alone; no other file is read instead of it.
-/

namespace SettingsBinding.Machine

variable {α β : Type} {machine : Machine} {a : α} {b : β} {p : Path}

/-! ### Looking -/

/-- The action gives the result, and leaves the machine as it is. -/
def Gives (machine : Machine) (action : StateM Machine α) (a : α) : Prop :=
  action.run machine = (a, machine)

theorem gives_pure (machine : Machine) (a : α) : Gives machine (pure a) a := rfl

theorem Gives.bind {action : StateM Machine α} {next : α → StateM Machine β}
    (h : Gives machine action a) (hnext : Gives machine (next a) b) :
    Gives machine (action >>= next) b := by
  rw [Gives, StateT.run_bind, h]
  exact hnext

theorem Gives.map {action : StateM Machine α} (h : Gives machine action a) (f : α → β) :
    Gives machine (f <$> action) (f a) := by
  rw [Gives, StateT.run_map, h]
  rfl

theorem Gives.run_bind_lift {ε : Type} {action : StateM Machine α} (h : Gives machine action a)
    (next : α → ExceptT ε (StateM Machine) β) :
    (liftM action >>= next : ExceptT ε (StateM Machine) β).run.run machine =
      (next a).run.run machine := by
  have hrun : (liftM action >>= next : ExceptT ε (StateM Machine) β).run.run machine =
      (action >>= fun a => (next a).run).run machine := rfl
  rw [hrun, StateT.run_bind, h]
  rfl

/-- A search among the images of items finds that of the first item whose image passes the test. -/
theorem gives_findM?_map {test : β → StateM Machine Bool} {keep : α → Bool} {f : α → β}
    {items : List α} (h : ∀ item ∈ items, Gives machine (test (f item)) (keep item)) :
    Gives machine ((items.map f).findM? test) ((items.find? keep).map f) := by
  induction items with
  | nil => rfl
  | cons item items ih =>
      obtain ⟨hitem, hitems⟩ := List.forall_mem_cons.1 h
      refine hitem.bind ?_
      cases hkeep : keep item with
      | true =>
          rw [List.find?_cons_of_pos hkeep]
          rfl
      | false =>
          rw [List.find?_cons_of_neg (by rw [hkeep]; exact Bool.false_ne_true)]
          exact ih hitems

def leads (machine : Machine) (p : Path) : Bool :=
  (machine.files.find? machine.directory p).isSome

theorem gives_pathExists (machine : Machine) (p : Path) :
    Gives machine (MonadMachine.pathExists p) (machine.leads p) := by
  have hkind : Gives machine (MonadMachine.kind? p)
      ((machine.files.find? machine.directory p).map kindOf) := rfl
  have hexists : Gives machine (MonadMachine.pathExists p)
      ((machine.files.find? machine.directory p).map kindOf).isSome :=
    hkind.bind (gives_pure machine _)
  rwa [Option.isSome_map] at hexists

theorem gives_readText (machine : Machine) (p : Path) :
    Gives machine (MonadMachine.readText p) (machine.files.readText machine.directory p) := rfl

theorem gives_currentDirectory (machine : Machine) :
    Gives machine MonadMachine.currentDirectory (.ok (Path.ofLocation machine.directory)) := rfl

theorem gives_configDirectory? (machine : Machine) :
    Gives machine MonadMachine.configDirectory? machine.configDirectory := rfl

/-! ### The search -/

/-- The directories in which configuration files are looked for, in order, if the repository around
the current directory has this root. -/
def configPlaces (machine : Machine) (root : Option Location) : List (Option Path) :=
  [some (.ofLocation machine.directory), root.map .ofLocation,
    machine.configDirectory.map (·.join Config.userDirectoryName)]

def configPaths (machine : Machine) (root : Option Location) : List Path :=
  (machine.configPlaces root).reduceOption.flatMap fun place => Config.fileNames.map place.join

def foundConfig (machine : Machine) (root : Option Location) : Option Path :=
  (machine.configPaths root).find? machine.leads

theorem gives_fileIn? (machine : Machine) (place : Path) :
    Gives machine (Config.fileIn? place)
      ((Config.fileNames.map place.join).find? machine.leads) := by
  rw [List.find?_map]
  exact gives_findM?_map fun name _ => gives_pathExists machine (place.join name)

theorem gives_fileInAny? {searches : List (StateM Machine (Option Path))}
    {places : List (Option Path)} (h : List.Forall₂ (Gives machine) searches places) :
    Gives machine (Config.fileInAny? searches)
      ((places.reduceOption.flatMap fun place => Config.fileNames.map place.join).find?
        machine.leads) := by
  induction h with
  | nil => rfl
  | @cons search place searches places hsearch _ ih =>
      refine hsearch.bind ?_
      cases place with
      | none => exact ih
      | some place =>
          refine (gives_fileIn? machine place).bind ?_
          rw [List.reduceOption_cons_of_some, List.flatMap_cons, List.find?_append]
          cases (Config.fileNames.map place.join).find? machine.leads with
          | none => exact ih
          | some found => rfl

/-- The root of the repository is the nearest place upwards with the mark of a repository. -/
theorem gives_repositoryRoot? (h : machine.files.Entered machine.directory) :
    ∃ root, machine.files.Nearest Config.repositoryMark machine.directory root ∧
      Gives machine (Config.repositoryRoot? (.ofLocation machine.directory))
        (root.map .ofLocation) := by
  refine ⟨_, FileTree.nearest_find? machine.files Config.repositoryMark machine.directory, ?_⟩
  rw [Config.repositoryRoot?, Path.ancestors_ofLocation h.isName]
  refine gives_findM?_map fun place hplace => ?_
  have hentered := h.of_prefix ((List.mem_inits _ _).1 (List.mem_reverse.1 hplace))
  rw [← FileTree.find?_join (FileTree.resolve_ofLocation hentered) hentered.get? (by decide)]
  exact gives_pathExists machine ((Path.ofLocation place).join Config.repositoryMark)

theorem gives_findFile? (h : machine.files.Entered machine.directory) :
    ∃ root, machine.files.Nearest Config.repositoryMark machine.directory root ∧
      Gives machine Config.findFile? (machine.foundConfig root) := by
  obtain ⟨root, hnearest, hroot⟩ := gives_repositoryRoot? h
  refine ⟨root, hnearest, (gives_currentDirectory machine).bind (gives_fileInAny? ?_)⟩
  have huser := (gives_configDirectory? machine).map
    (Option.map fun place => place.join Config.userDirectoryName)
  exact .cons rfl (.cons hroot (.cons huser .nil))

/-! ### Reading -/

theorem leads_of_readText {text : String}
    (h : machine.files.readText machine.directory p = .ok text) : machine.leads p = true := by
  rw [FileTree.readText, Steps.bind_eq_ok_iff] at h
  obtain ⟨l, hresolve, htext⟩ := h
  have hfind : machine.files.find? machine.directory p = machine.files.get? l := by
    rw [FileTree.find?, hresolve]
  rw [leads, hfind]
  cases hentry : machine.files.get? l with
  | none =>
      rw [hentry] at htext
      cases htext
  | some e => exact Option.isSome_some

section

variable [Yaml.Reader] {result : Except ConfigFileError Config}

/-- What a file is good for: nothing if there is none or it cannot be read, a configuration if it
says what one holds. -/
inductive Loads (machine : Machine) (p : Path) : Except ConfigFileError Config → Prop
  | notFound (h : machine.leads p = false) : Loads machine p (.error (.notFound p))
  | unreadable {e : SystemError} (hleads : machine.leads p = true)
      (h : machine.files.readText machine.directory p = .error e) :
      Loads machine p (.error (.unreadable e))
  | malformed {text : String} (h : machine.files.readText machine.directory p = .ok text)
      (hstates : ∀ config, ¬Config.States text config) :
      Loads machine p (.error (@ConfigFileError.malformed (Yaml.Reader.complaint text)))
  | ok {text : String} {config : Config}
      (h : machine.files.readText machine.directory p = .ok text)
      (hstates : Config.States text config) : Loads machine p (.ok config)

theorem exists_loads (machine : Machine) (p : Path) : ∃ result, machine.Loads p result := by
  cases hleads : machine.leads p with
  | false => exact ⟨_, .notFound hleads⟩
  | true =>
      cases htext : machine.files.readText machine.directory p with
      | error e => exact ⟨_, .unreadable hleads htext⟩
      | ok text =>
          by_cases hstates : ∃ config, Config.States text config
          · obtain ⟨config, hstates⟩ := hstates
            exact ⟨_, .ok htext hstates⟩
          · exact ⟨_, .malformed htext (not_exists.1 hstates)⟩

theorem Loads.gives (h : machine.Loads p result) :
    Gives machine (Config.load (m := StateM Machine) p).run result := by
  have hexists := gives_pathExists machine p
  have hread := gives_readText machine p
  cases h with
  | notFound h =>
      rw [h] at hexists
      exact hexists.run_bind_lift _
  | unreadable hleads h =>
      rw [hleads] at hexists
      rw [h] at hread
      exact (hexists.run_bind_lift _).trans (hread.run_bind_lift _)
  | malformed h hstates =>
      rw [leads_of_readText h] at hexists
      rw [h] at hread
      refine (hexists.run_bind_lift _).trans ((hread.run_bind_lift _).trans ?_)
      simp only [Config.ofText_of_forall_not_states hstates]
      rfl
  | ok h hstates =>
      rw [leads_of_readText h] at hexists
      rw [h] at hread
      refine (hexists.run_bind_lift _).trans ((hread.run_bind_lift _).trans ?_)
      simp only [Config.ofText_of_states hstates]
      rfl

theorem loads_document_iff (hyaml : Yaml.Reader.Lawful) {lines : List Yaml.Line}
    (hlines : lines ≠ [])
    (h : machine.files.readText machine.directory p = .ok (Yaml.Line.document lines))
    (config : Config) :
    machine.Loads p (.ok config) ↔ ({} : Config).Writes (lines.map Yaml.Line.entry) config := by
  rw [← Config.states_document_iff hyaml hlines]
  refine ⟨fun hloads => ?_, .ok h⟩
  cases hloads with
  | ok htext hstates =>
      cases h.symm.trans htext
      exact hstates

theorem loads_of_isBroken (hyaml : Yaml.Reader.Lawful) {text : String}
    (h : machine.files.readText machine.directory p = .ok text) (hbroken : Yaml.IsBroken text)
    (hblank : Text.isBlank text = false) :
    machine.Loads p (.error (@ConfigFileError.malformed (Yaml.Reader.complaint text))) :=
  .malformed h fun _ => Config.not_states_of_isBroken hyaml hbroken hblank

/-- What is used if no file is named: the configuration of the file that was found, and all default
values if none was, or if that file is good for nothing, which is reported. -/
inductive Chooses (machine : Machine) : Option Path → (Config × Option Path) × Machine → Prop
  | default : Chooses machine none (({}, none), machine)
  | found {p : Path} {config : Config} (h : machine.Loads p (.ok config)) :
      Chooses machine (some p) ((config, some p), machine)
  | reported {p : Path} {e : ConfigFileError} (h : machine.Loads p (.error e)) :
      Chooses machine (some p) (({}, none), { machine with
        console := machine.console ++
          [.event (warn s!"Failed to load config from {p.text}: {e.message}")] })

theorem Loads.gives_loadOrDefault (h : machine.Loads p result) :
    Gives machine (Config.loadOrDefault (m := StateM Machine) (some p)).run
      (result.map (·, some p)) := by
  rw [Config.loadOrDefault, ExceptT.run_bind]
  refine h.gives.bind ?_
  cases result <;> rfl

theorem exists_chooses (machine : Machine) (found : Option Path) :
    ∃ chosen, machine.Chooses found chosen := by
  cases found with
  | none => exact ⟨_, .default⟩
  | some p =>
      obtain ⟨result, hloads⟩ := machine.exists_loads p
      cases result with
      | error e => exact ⟨_, .reported hloads⟩
      | ok config => exact ⟨_, .found hloads⟩

theorem Chooses.run_loadOrDefault {found : Option Path}
    {chosen : (Config × Option Path) × Machine} (h : machine.Chooses found chosen)
    (hfind : Gives machine Config.findFile? found) :
    (Config.loadOrDefault (m := StateM Machine) none).run.run machine =
      (.ok chosen.1, chosen.2) := by
  refine (hfind.run_bind_lift _).trans ?_
  cases h with
  | default => rfl
  | found h => exact h.gives.run_bind_lift _
  | reported h => exact h.gives.run_bind_lift _

end

/-! ### Below the root of a repository -/

/-- A machine in a directory of a repository that has a configuration file at its root, and a broken
one beside it. The user has another one. -/
def repositoryMachine : Machine where
  files := {
    entries := [(["work"], .directory), (["work", "appsettings-gen"], .directory),
      (["work", "appsettings-gen", "appsettings-gen.yaml"], .text "host_key: Work\n"),
      (["work", "shop"], .directory), (["work", "shop", ".git"], .directory),
      (["work", "shop", "appsettings-gen.yaml"], .text "host_key: 'Shop'\nindent_width: 2\n"),
      (["work", "shop", "broken.yaml"], .text "host_key: 'Shop'\nindent_width\n"),
      (["work", "shop", "src"], .directory)]
    nodup := by decide }
  directory := ["work", "shop", "src"]
  configDirectory := some ⟨"/work"⟩

theorem entered_repositoryMachine :
    repositoryMachine.files.Entered repositoryMachine.directory := by
  refine ⟨by decide, fun above habove => ?_⟩
  have hall : ∀ above ∈ repositoryMachine.directory.inits,
      repositoryMachine.files.get? above = some .directory := by
    decide
  exact hall above ((List.mem_inits _ _).2 habove)

theorem eq_of_nearest_repositoryMachine {root : Option Location}
    (h : repositoryMachine.files.Nearest Config.repositoryMark repositoryMachine.directory root) :
    root = some ["work", "shop"] := by
  have hshop : ["work", "shop"] <+: repositoryMachine.directory := by decide
  cases root with
  | none => cases h _ hshop
  | some root =>
      have hall : ∀ root ∈ repositoryMachine.directory.inits,
          (repositoryMachine.files.get? (root ++ [Config.repositoryMark])).isSome →
          root = ["work", "shop"] := by
        decide
      rw [hall root ((List.mem_inits _ _).2 h.1) h.2.1]

def shopLines : List Yaml.Line :=
  [{ name := "host_key".toList
     value := .quoted "Shop".toList (by simp [Yaml.IsShown])
     isWord_name := by decide +kernel
     length_name := by decide },
    { name := "indent_width".toList
      value := .word "2".toList (by decide +kernel)
      isWord_name := by decide +kernel
      length_name := by decide }]

end SettingsBinding.Machine
