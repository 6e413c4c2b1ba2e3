import SettingsBinding.Proofs.Commands.Pass
import SettingsBinding.Proofs.Files.TwoRuns
import SettingsBinding.Proofs.Settings.Discovery

/-!
Settings files that are found in a directory. They are the regular files there with the given name,
sorted by name, unless the listing breaks off. A directory may list its entries in any order: it
makes no difference to what is found, and so none to what a pass works on or to what a command
answers.
-/

namespace SettingsBinding

theorem Steps.mapM_eq_ok_iff {ε α β : Type} {f : α → Except ε β} {items : List α}
    {results : List β} :
    items.mapM f = .ok results ↔ List.Forall₂ (fun a b => f a = .ok b) items results := by
  induction items generalizing results with
  | nil => cases results <;> simp [pure, Except.pure]
  | cons item items ih =>
      rw [List.mapM_cons, bind_eq_ok_iff, List.forall₂_cons_left_iff]
      refine exists_congr fun b => ?_
      rw [bind_eq_ok_iff]
      constructor
      · rintro ⟨hb, bs, hbs, hresults⟩
        exact ⟨bs, hb, ih.1 hbs, (Except.ok.inj hresults).symm⟩
      · rintro ⟨bs, hb, hbs, rfl⟩
        exact ⟨hb, bs, ih.2 hbs, rfl⟩

namespace FileTree

variable {t : FileTree} {directory l : Location} {folder p : Path} {fileName name : String}

/-- The entry of a directory is a regular file, and its name is the given one up to the case of the
letters from A to Z. -/
structure IsSettingsFile (t : FileTree) (l : Location) (fileName name : String) : Prop where
  regular : ∃ e, t.get? (l ++ [name]) = some e ∧ e.isFile = true
  named : List.Forall₂ Text.SameLetter name.toList fileName.toList

def LeadsToDirectory (t : FileTree) (directory : Location) (p : Path) (l : Location) : Prop :=
  t.resolve directory p = .ok l ∧ t.get? l = some .directory

/-- No entry of the directory breaks its listing off. -/
def ListsAll (t : FileTree) (l : Location) : Prop := ∀ name, t.get? (l ++ [name]) ≠ some .faulty

theorem isFile_join_iff (h : t.LeadsToDirectory directory folder l) (hname : Path.IsName name) :
    t.isFile directory (folder.join name) ↔
      ∃ e, t.get? (l ++ [name]) = some e ∧ e.isFile = true := by
  rw [isFile, find?_join h.1 h.2 hname]
  cases t.get? (l ++ [name]) with
  | none => simp
  | some e => cases e <;> simp [Machine.kindOf, FileEntry.isFile]

theorem canList_iff : t.canList l = true ↔ t.ListsAll l := by
  rw [canList, List.all_eq_true]
  constructor
  · intro h name hfaulty
    have hname := h name (mem_names_iff.2 (by rw [hfaulty]; rfl))
    rw [hfaulty] at hname
    cases hname
  · intro h name _
    exact bne_iff_ne.2 (h name)

theorem list_eq_ok_iff {names : List String} :
    t.list directory p = .ok names ↔
      ∃ l, (t.LeadsToDirectory directory p l ∧ t.ListsAll l) ∧ names = t.names l := by
  rw [list, Steps.bind_eq_ok_iff]
  refine exists_congr fun l => ?_
  rw [LeadsToDirectory, ← isDirectory_eq_true_iff, ← canList_iff, and_assoc, and_assoc]
  refine and_congr_right fun _ => ?_
  cases t.isDirectory l <;> cases t.canList l <;> simp [eq_comm]

theorem exists_settingsFiles_iff :
    (∃ paths, t.settingsFiles directory fileName folder = .ok paths) ↔
      ∃ l, t.LeadsToDirectory directory folder l ∧ t.ListsAll l := by
  simp only [settingsFiles, Steps.bind_eq_ok_iff, Steps.mapError_eq_ok_iff, list_eq_ok_iff]
  constructor
  · rintro ⟨paths, names, ⟨l, hl, -⟩, -⟩
    exact ⟨l, hl⟩
  · rintro ⟨l, hl⟩
    exact ⟨_, _, ⟨l, hl, rfl⟩, rfl⟩

def settingsFileNames (t : FileTree) (directory : Location) (fileName : String) (folder : Path)
    (l : Location) : List String :=
  (SettingsDocument.settingsNames folder fileName (t.names l)).filter fun name =>
    t.isFile directory (folder.join name)

theorem settingsFiles_eq_ok (h : t.LeadsToDirectory directory folder l) (hlists : t.ListsAll l)
    (fileName : String) :
    t.settingsFiles directory fileName folder =
      .ok ((t.settingsFileNames directory fileName folder l).map folder.join) := by
  have hlist : t.list directory folder = .ok (t.names l) :=
    list_eq_ok_iff.2 ⟨l, ⟨h, hlists⟩, rfl⟩
  rw [settingsFiles, hlist]
  exact congrArg Except.ok List.filter_map

theorem mem_settingsFileNames_iff (hnames : t.HasNames)
    (h : t.LeadsToDirectory directory folder l) :
    name ∈ t.settingsFileNames directory fileName folder l ↔ t.IsSettingsFile l fileName name := by
  rw [settingsFileNames, List.mem_filter, SettingsDocument.mem_settingsNames_iff]
  constructor
  · rintro ⟨⟨hmem, hpath⟩, hfile⟩
    have hname := hnames.isName hmem
    rw [SettingsDocument.isSettingsPath_join folder hname] at hpath
    exact ⟨(isFile_join_iff h hname).1 hfile, Text.equalIgnoringCase_iff.1 hpath⟩
  · intro hsettings
    obtain ⟨e, he, -⟩ := hsettings.regular
    have hmem : name ∈ t.names l := mem_names_iff.2 (by rw [he]; rfl)
    have hname := hnames.isName hmem
    rw [SettingsDocument.isSettingsPath_join folder hname]
    exact ⟨⟨hmem, Text.equalIgnoringCase_iff.2 hsettings.named⟩,
      (isFile_join_iff h hname).2 hsettings.regular⟩

/-- The regular files with the given name are found, each once, in the order of their paths. -/
theorem exists_settingsFiles (hnames : t.HasNames) (h : t.LeadsToDirectory directory folder l)
    (hlists : t.ListsAll l) (fileName : String) :
    ∃ paths, t.settingsFiles directory fileName folder = .ok paths ∧
      paths.Pairwise (fun p q => p.text < q.text) ∧
      ∀ p, p ∈ paths ↔ ∃ name, p = folder.join name ∧ t.IsSettingsFile l fileName name := by
  refine ⟨_, settingsFiles_eq_ok h hlists fileName, ?_, fun p => ?_⟩
  · have hsorted := SettingsDocument.pairwise_lt_settingsNames folder fileName (t.nodup_names l)
    exact List.pairwise_map.2 ((hsorted.filter _).imp folder.text_join_lt)
  · rw [List.mem_map]
    simp only [mem_settingsFileNames_iff hnames h, and_comm, eq_comm]

theorem settingsDocument_eq_ok_iff {d : SettingsDocument} :
    t.settingsDocument directory p = .ok d ↔
      d.name = p.text ∧ t.readText directory p = .ok d.text := by
  rw [settingsDocument, Steps.bind_eq_ok_iff]
  simp only [Steps.mapError_eq_ok_iff]
  constructor
  · rintro ⟨text, htext, hd⟩
    cases hd
    exact ⟨rfl, htext⟩
  · rintro ⟨hname, htext⟩
    exact ⟨d.text, htext, by rw [← hname]; rfl⟩

theorem documents_eq_ok_iff {settings : SettingsSelection} {documents : List SettingsDocument} :
    t.documents directory fileName settings = .ok documents ↔
      ∃ paths, t.found directory fileName settings = .ok paths ∧
        List.Forall₂ (fun p d => d.name = p.text ∧ t.readText directory p = .ok d.text)
          (settings.files ++ paths) documents := by
  rw [FileTree.documents, Steps.bind_eq_ok_iff]
  simp only [Steps.mapM_eq_ok_iff, Steps.mapError_eq_ok_iff, settingsDocument_eq_ok_iff]

end FileTree

namespace Machine

variable {config : Config} {quiet : Bool} {model p : Path} {settings : SettingsSelection}
  {form : CheckReport.Form} {output : Option Path} {fileName : String}

/-! ### Commands in two runs -/

theorem ignoresListing_discoverSettings (folder : Path) (fileName : String) :
    IgnoresListing (discoverSettings folder fileName : ExceptT Failure (StateM Machine) _).run := by
  refine (relates_list folder).lift_step ?_ fun result => ?_
  · rintro names others (⟨e, rfl, rfl⟩ | ⟨ns, ms, rfl, rfl, hperm⟩)
    · rfl
    · dsimp only
      rw [SettingsDocument.settingsNames_eq_of_perm hperm]
  · cases result with
    | error e => exact ignoresListing_pure _
    | ok names =>
        have hkept := ignoresListing.filterM ignoresListing.isFile
          ((SettingsDocument.settingsNames folder fileName names).map folder.join)
        exact ignoresListing.lift_step hkept fun _ =>
          ignoresListing.lift_step (ignoresListing_say _) fun _ =>
            ignoresListing_pure _

theorem ignoresListing_loadDocuments (settings : SettingsSelection) (fileName : String) :
    IgnoresListing (settings.load fileName : ExceptT ErrorTrail (StateM Machine) _).run :=
  ignoresListing.loadDocuments (ignoresListing_discoverSettings · fileName) settings

theorem ignoresListing_loadInput (config : Config) (model : Path) (settings : SettingsSelection) :
    IgnoresListing
      (PassInput.load config model settings : ExceptT ErrorTrail (StateM Machine) _).run :=
  ignoresListing.step (ignoresListing.adapt (ignoresListing.loadModel model) _) fun _ =>
    ignoresListing.step (ignoresListing_loadDocuments settings _) fun _ =>
      ignoresListing.step (ignoresListing.checkConfig config) fun _ => ignoresListing_pure _

theorem ignoresListing_writeOutput (output : Option Path) (quiet : Bool) (content : String) :
    IgnoresListing
      (SettingsBinding.writeOutput output quiet content :
        ExceptT ErrorTrail (StateM Machine) _).run := by
  cases output with
  | none => exact ignoresListing.lift (ignoresListing_say _)
  | some p =>
      apply ignoresListing.step (ignoresListing.writeFile p content)
      intro _
      cases quiet with
      | true => exact ignoresListing_pure _
      | false => exact ignoresListing.lift (ignoresListing_say _)

theorem ignoresListing_runGenerate : IgnoresListing
    (runGenerate config quiet model settings output :
      ExceptT ErrorTrail (StateM Machine) _).run := by
  refine ignoresListing.step (ignoresListing_loadInput config model settings) fun input => ?_
  refine ignoresListing.lift_step (ignoresListing.logAll input.runEvents) fun _ => ?_
  rcases input.run with failure | ⟨name, text⟩ | ⟨diagnostic, mismatches⟩ | _
  · exact ignoresListing_pure _
  · exact ignoresListing.step (ignoresListing_writeOutput output quiet text) fun _ =>
      ignoresListing_pure _
  · refine ignoresListing.lift_step (ignoresListing_say _) fun _ => ?_
    cases quiet with
    | true => exact ignoresListing_pure _
    | false =>
        have hlines := ignoresListing.forM
          (fun mismatch => ignoresListing_say (.errorLine ("  - " ++ mismatch.message))) mismatches
        exact ignoresListing.lift_step hlines fun _ => ignoresListing_pure _
  · exact ignoresListing_pure _

theorem ignoresListing_runCheck : IgnoresListing
    (runCheck config quiet model settings form output :
      ExceptT ErrorTrail (StateM Machine) _).run := by
  refine ignoresListing.step (ignoresListing_loadInput config model settings) fun input => ?_
  refine ignoresListing.lift_step (ignoresListing.logAll input.checkEvents) fun _ => ?_
  rcases input.check with failure | report
  · exact ignoresListing_pure _
  · exact ignoresListing.step (ignoresListing_writeOutput output quiet _) fun _ =>
      ignoresListing_pure _

theorem ignoresListing_runMerge : IgnoresListing
    (runMerge config quiet settings output : ExceptT ErrorTrail (StateM Machine) _).run := by
  refine ignoresListing.step (ignoresListing_loadDocuments settings _) fun documents => ?_
  refine ignoresListing.step (ignoresListing.checkConfig config) fun _ => ?_
  refine ignoresListing.lift_step (ignoresListing.logAll _) fun _ => ?_
  rcases PassInput.merge _ with failure | merged
  · exact ignoresListing_pure _
  · exact ignoresListing.step (ignoresListing_writeOutput output quiet _) fun _ =>
      ignoresListing_pure _

/-! ### What is found -/

def discovered (machine : Machine) (folder : Path) (fileName : String) :
    Except Failure (List Path) :=
  ((discoverSettings folder fileName : ExceptT Failure (StateM Machine) _).run.run machine).1

theorem discovered_eq (machine : Machine) (folder : Path) (fileName : String) :
    machine.discovered folder fileName =
      machine.files.settingsFiles machine.directory fileName folder :=
  (ends_discoverSettings machine.directory machine.files fileName folder).run.1

/-- What a selection adds to its files: nothing, or what is found in its directory. -/
def Finds (machine : Machine) (settings : SettingsSelection) (fileName : String)
    (paths : List Path) : Prop :=
  match settings.directory with
  | none => paths = []
  | some folder => machine.discovered folder fileName = .ok paths

variable {machine other : Machine}

/-- The documents are those of the named files, in their order, and then those of the files that
are found. -/
theorem load_eq_ok_iff {documents : List SettingsDocument} :
    (machine.execute (settings.load fileName)).1 = .ok documents ↔
      ∃ paths, machine.Finds settings fileName paths ∧
        List.Forall₂
          (fun p d => d.name = p.text ∧ machine.files.readText machine.directory p = .ok d.text)
          (settings.files ++ paths) documents := by
  have hrun := (ends_loadDocuments machine.directory machine.files "" settings fileName).run.1
  rw [execute, hrun, Steps.mapError_eq_ok_iff, FileTree.documents_eq_ok_iff]
  refine exists_congr fun paths => and_congr_left fun _ => ?_
  rw [FileTree.found, Finds]
  cases settings.directory with
  | none => exact ⟨fun h => (Except.ok.inj h).symm, fun h => congrArg Except.ok h.symm⟩
  | some folder =>
      dsimp only
      rw [Steps.mapError_eq_ok_iff, discovered_eq]

/-- Discovery finds the regular files in a directory that have the given name up to the case of the
letters from A to Z, each once and sorted by path, and fails if the path leads to no directory or
its listing breaks off. What it finds comes behind the files that are named. The order in which
directories list their entries makes no difference: two machines that differ in nothing else find
the same files, load the same inputs for a pass, and answer commands in the same way. -/
theorem discovery_ignores_listing (h : machine.Relisted other) :
    (∀ folder fileName, machine.discovered folder fileName = other.discovered folder fileName) ∧
    (∀ folder fileName, (∃ paths, machine.discovered folder fileName = .ok paths) ↔
      ∃ l, machine.files.LeadsToDirectory machine.directory folder l ∧
        machine.files.ListsAll l) ∧
    (machine.files.HasNames → ∀ folder fileName l,
      machine.files.LeadsToDirectory machine.directory folder l → machine.files.ListsAll l →
      ∃ paths, machine.discovered folder fileName = .ok paths ∧
        paths.Pairwise (fun p q => p.text < q.text) ∧
        ∀ p, p ∈ paths ↔
          ∃ name, p = folder.join name ∧ machine.files.IsSettingsFile l fileName name) ∧
    (∀ (settings : SettingsSelection) fileName documents,
      (machine.execute (settings.load fileName)).1 = .ok documents ↔
        ∃ paths, machine.Finds settings fileName paths ∧
          List.Forall₂
            (fun p d => d.name = p.text ∧ machine.files.readText machine.directory p = .ok d.text)
            (settings.files ++ paths) documents) ∧
    (∀ config model settings, (machine.execute (PassInput.load config model settings)).1 =
      (other.execute (PassInput.load config model settings)).1) ∧
    (∀ config quiet model settings form output, ∀ command ∈
        [runGenerate config quiet model settings output,
          runCheck config quiet model settings form output, runMerge config quiet settings output],
      (machine.execute command).1 = (other.execute command).1 ∧
        (machine.execute command).2.Relisted (other.execute command).2) := by
  refine ⟨fun folder fileName => ?_, fun folder fileName => ?_,
    fun hnames folder fileName l hl hlists => ?_, fun settings fileName documents => load_eq_ok_iff,
    fun config model settings => (ignoresListing_loadInput config model settings _ _ h).1, ?_⟩
  · exact (ignoresListing_discoverSettings folder fileName _ _ h).1
  · rw [discovered_eq]
    exact FileTree.exists_settingsFiles_iff
  · rw [discovered_eq]
    exact FileTree.exists_settingsFiles hnames hl hlists fileName
  · intro config quiet model settings form output command hcommand
    have hruns : IgnoresListing command.run := by
      simp only [List.mem_cons, List.not_mem_nil, or_false] at hcommand
      rcases hcommand with rfl | rfl | rfl
      · exact ignoresListing_runGenerate
      · exact ignoresListing_runCheck
      · exact ignoresListing_runMerge
    exact hruns machine other h

/-! ### A directory with two settings files -/

/-- The entries of a directory with two settings files that differ in case and another file. There
are a socket and a directory with names of settings files too, and in the directory a further file
and an entry at which its listing breaks off. -/
def shopEntries : List (Location × FileEntry) :=
  [(["shop"], .directory),
    (["shop", "appsettings.JSON"], .text "\x7b\"Mode\": 1\x7d"),
    (["shop", "other.json"], .text "\x7b\x7d"),
    (["shop", "APPSETTINGS.json"], .directory),
    (["shop", "APPSETTINGS.json", "appsettings.json"], .text "\x7b\x7d"),
    (["shop", "APPSETTINGS.json", "other.json"], .faulty),
    (["shop", "AppSettings.JSON"], .special),
    (["shop", "AppSettings.json"], .text "\x7b\"Mode\": 2\x7d")]

def shopMachine : Machine := { files := { entries := shopEntries, nodup := by decide } }

/-- The same machine, where everything is listed the other way round. -/
def turnedMachine : Machine := { files := { entries := shopEntries.reverse, nodup := by decide } }

theorem relisted_shopMachine : shopMachine.Relisted turnedMachine :=
  ⟨(List.reverse_perm shopEntries).symm, rfl, rfl, rfl⟩

theorem hasNames_shopMachine : shopMachine.files.HasNames := by
  intro entry hentry name hname
  have hall : ∀ entry ∈ shopEntries, ∀ name ∈ entry.1, Path.IsName name := by
    decide +kernel
  exact hall entry hentry name hname

/-- On both machines the two files are found in the order of their paths, and the directory and the
socket with names of that kind are not. In that directory nothing is found. -/
theorem discovery_ignores_listing_shop :
    shopMachine.Relisted turnedMachine ∧ shopMachine.files.HasNames ∧
      shopMachine.files.LeadsToDirectory [] ⟨"shop"⟩ ["shop"] ∧
      shopMachine.files.ListsAll ["shop"] ∧
      (∃ paths, shopMachine.discovered ⟨"shop"⟩ "appsettings.json" = .ok paths ∧
        turnedMachine.discovered ⟨"shop"⟩ "appsettings.json" = .ok paths ∧
        paths.Pairwise (fun p q => p.text < q.text) ∧
        ⟨"shop/AppSettings.json"⟩ ∈ paths ∧ ⟨"shop/appsettings.JSON"⟩ ∈ paths ∧
        ⟨"shop/APPSETTINGS.json"⟩ ∉ paths ∧ ⟨"shop/AppSettings.JSON"⟩ ∉ paths) ∧
      ¬∃ paths, shopMachine.discovered ⟨"shop/APPSETTINGS.json"⟩ "appsettings.json" =
        .ok paths := by
  have hleads : shopMachine.files.LeadsToDirectory [] ⟨"shop"⟩ ["shop"] := ⟨rfl, rfl⟩
  have hlists : shopMachine.files.ListsAll ["shop"] := FileTree.canList_iff.1 (by decide +kernel)
  have hnamed {name : String} (h : Text.equalIgnoringCase name "appsettings.json" = true) :
      List.Forall₂ Text.SameLetter name.toList "appsettings.json".toList :=
    Text.equalIgnoringCase_iff.1 h
  obtain ⟨hsame, hfinds, hcontent, -⟩ := discovery_ignores_listing relisted_shopMachine
  obtain ⟨paths, hpaths, hsorted, hmem⟩ :=
    hcontent hasNames_shopMachine ⟨"shop"⟩ "appsettings.json" ["shop"] hleads hlists
  have hnot : ∀ name e, shopMachine.files.get? ["shop", name] = some e → e.isFile = false →
      Path.join ⟨"shop"⟩ name ∉ paths := by
    intro name e he hfile hfound
    obtain ⟨other, hother, hsettings⟩ := (hmem _).1 hfound
    obtain rfl := Path.join_injective _ hother
    obtain ⟨e', he', hfile'⟩ := hsettings.regular
    cases he.symm.trans he'
    cases hfile.symm.trans hfile'
  refine ⟨relisted_shopMachine, hasNames_shopMachine, hleads, hlists, ⟨paths, hpaths,
    (hsame _ _).symm.trans hpaths, hsorted, ?_, ?_, hnot "APPSETTINGS.json" _ rfl rfl,
    hnot "AppSettings.JSON" _ rfl rfl⟩, ?_⟩
  · exact (hmem _).2 ⟨"AppSettings.json", by decide, ⟨_, rfl, rfl⟩, hnamed (by decide)⟩
  · exact (hmem _).2 ⟨"appsettings.JSON", by decide, ⟨_, rfl, rfl⟩, hnamed (by decide)⟩
  · rw [hfinds]
    rintro ⟨l, ⟨hl, -⟩, hall⟩
    cases hl
    exact hall "other.json" rfl

end Machine

end SettingsBinding
