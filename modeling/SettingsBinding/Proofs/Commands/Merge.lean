import SettingsBinding.Commands.Pass
import SettingsBinding.Proofs.Commands.Inputs
import SettingsBinding.Proofs.Commands.Output
import SettingsBinding.Proofs.Files.Printing
import SettingsBinding.Proofs.Pass.Printed

/-!
The command that merges settings. It only reads before it has merged the documents, and then puts
out the text of the merged tree, to the console or to a file, and nothing else; and that text stands
in for the documents.
-/

namespace SettingsBinding

open MergedSettings (ofDocuments)

/-- The text that is put out for merged settings: that of the tree, which has a line break behind it
where it is printed. -/
def MergedSettings.textFor (merged : MergedSettings) : Option Path → String
  | none => endLine merged.tree.toJson.pretty
  | some _ => merged.tree.toJson.pretty

namespace Machine

variable {directory : Location} {t u : FileTree} {machine : Machine} {config : Config}
  {settings : SettingsSelection} {output : Option Path} {documents : List SettingsDocument}
  {merged : MergedSettings}

/-- A text was put out between two states of a machine. Either it was printed, behind what had been
printed, and the files are the same; or the file holds it, and nothing was printed. -/
def Puts (machine after : Machine) : Option Path → String → Prop
  | none, text => after.files = machine.files ∧ after.output = machine.output ++ text
  | some p, text =>
    machine.files.Holds after.files machine.directory p text ∧ after.output = machine.output

theorem silent_discoverSettings (folder : Path) (fileName : String) :
    Silent (discoverSettings folder fileName : ExceptT Failure (StateM Machine) _).run := by
  apply silent.lift_step (silent_list folder)
  intro result
  cases result with
  | error e => exact silent_pure _
  | ok names =>
      apply silent.lift_step (silent.filterM silent.isFile _)
      intro paths
      exact silent.lift_step (silent_log _) fun _ => silent_pure _

/-- The documents are loaded, and nothing is printed. -/
theorem prints_loadDocuments {fileName : String}
    (h : t.documents directory fileName settings = .ok documents) :
    Prints directory t (settings.load fileName).run (.ok documents) t "" := by
  have hload := ends_loadDocuments directory t "" settings fileName
  rw [h] at hload
  exact hload.prints (silent.loadDocuments (silent_discoverSettings · fileName) settings)

theorem prints_checkConfig (directory : Location) (t : FileTree) (h : config.isValid) :
    Prints directory t (checkConfig config).run (.ok ()) t "" := by
  have hcheck := ends_checkConfig directory t "" config
  rw [Config.checked_eq_ok_iff.2 h] at hcheck
  exact hcheck.prints (silent.checkConfig config)

def printedFor (content : String) : Option Path → String
  | none => endLine content
  | some _ => ""

theorem prints_writeOutput (houtput : ∀ p ∈ output, machine.CanWrite p) (quiet : Bool)
    (content : String) :
    ∃ u, Prints machine.directory machine.files (writeOutput output quiet content).run (.ok ()) u
        (printedFor content output) ∧
      machine.files.Delivers u machine.directory output content := by
  cases output with
  | none => exact ⟨_, (prints_print _ _ (endLine content)).lift, rfl⟩
  | some p =>
      obtain ⟨u, hend, hdelivers⟩ := ends_writeOutput houtput quiet content
      refine ⟨u, hend.prints ?_, hdelivers⟩
      apply silent.step (silent.writeFile p content)
      intro _
      cases quiet with
      | true => exact silent_pure _
      | false => exact silent.lift (silent_log _)

theorem prints_runMerge (hvalid : config.isValid)
    (hdocuments : machine.files.documents machine.directory config.settingsFileName settings =
      .ok documents)
    (hmerge : ofDocuments (fun _ => false) documents = .ok merged)
    (houtput : ∀ p ∈ output, machine.CanWrite p) (quiet : Bool) :
    ∃ u, Prints machine.directory machine.files
        (runMerge config quiet settings output).run (.ok .success) u
        (printedFor merged.tree.toJson.pretty output) ∧
      machine.files.Delivers u machine.directory output merged.tree.toJson.pretty := by
  obtain ⟨u, hwrite, hdelivers⟩ :=
    prints_writeOutput houtput quiet merged.tree.toJson.pretty
  refine ⟨u, ?_, hdelivers⟩
  have hlogged (events : List LogEvent) :=
    (ends_logAll machine.directory machine.files events).prints (silent.logAll events)
  have hend := (ends_pure machine.directory u (.ok .success : Except ErrorTrail ExitCode)).prints
    (silent_pure _)
  have hrun : Prints machine.directory machine.files (runMerge config quiet settings output).run
      (.ok .success) u ("" ++ ("" ++ ("" ++
        (printedFor merged.tree.toJson.pretty output ++ "")))) := by
    apply (prints_loadDocuments hdocuments).bind_ok
    apply (prints_checkConfig _ _ hvalid).bind_ok
    apply (hlogged _).lift.bind_ok
    rw [PassInput.merge, hmerge]
    exact hwrite.bind_ok hend
  simpa only [String.empty_append, String.append_empty] using hrun

theorem puts_runMerge (hvalid : config.isValid)
    (hdocuments : machine.files.documents machine.directory config.settingsFileName settings =
      .ok documents)
    (hmerge : ofDocuments (fun _ => false) documents = .ok merged)
    (houtput : ∀ p ∈ output, machine.CanWrite p) (quiet : Bool) :
    ∃ after, machine.execute (runMerge config quiet settings output) = (.ok .success, after) ∧
      machine.Puts after output (merged.textFor output) := by
  obtain ⟨u, hprints, hdelivers⟩ := prints_runMerge hvalid hdocuments hmerge houtput quiet
  obtain ⟨after, hrun, rfl, -, hprinted⟩ := hprints machine rfl rfl
  refine ⟨after, hrun, ?_⟩
  cases output with
  | none => exact ⟨hdelivers, hprinted⟩
  | some p => exact ⟨hdelivers, hprinted.trans String.append_empty⟩

end Machine

namespace PassInput

variable {documents : List SettingsDocument} {merged : MergedSettings}

/-- Where documents are merged whose numbers are all integers of 64 bits, the text that the command
puts out for them stands in for them: merged alone it gives the same tree, and every pass ends with
it as it ends with them. The command puts out that text for all files that hold the documents, under
every accepted configuration, on the console or in any file that can be written. -/
theorem printed_merge_stands_in (hmerge : ofDocuments (fun _ => false) documents = .ok merged)
    (hnumbers : ∀ d ∈ documents, ∀ written, Json.parse d.text = .ok written →
      ∀ n ∈ written.numbers, n.IsWord) :
    (∀ (machine : Machine) (config : Config) (quiet : Bool) (settings : SettingsSelection)
        (output : Option Path), config.isValid →
      machine.files.documents machine.directory config.settingsFileName settings = .ok documents →
      (∀ p ∈ output, machine.CanWrite p) →
      ∃ after, machine.execute (runMerge config quiet settings output) = (.ok .success, after) ∧
        machine.Puts after output (merged.textFor output)) ∧
    ∀ output, StandsIn (merged.textFor output) documents merged := by
  refine ⟨fun machine config quiet settings output hvalid hdocuments houtput =>
    Machine.puts_runMerge hvalid hdocuments hmerge houtput quiet, fun output => ?_⟩
  cases output with
  | none =>
      obtain ⟨blanks, hprinted, hblanks⟩ := exists_endLine_eq merged.tree.toJson.pretty
      rw [MergedSettings.textFor, hprinted]
      exact standsIn_pretty hmerge hnumbers hblanks
  | some p =>
      have hnone : ∀ c ∈ ([] : List Char), Json.isBlank c = true := nofun
      have hwritten := standsIn_pretty hmerge hnumbers hnone
      rwa [List.append_nil, String.ofList_toList] at hwritten

/-! ### Two documents with a port each -/

def portDocuments : List SettingsDocument :=
  [.ofTree "appsettings.json" portTree,
    .ofTree "appsettings.Local.json"
      [("Db", .tree [("Host", .string "a"), ("Port", .number (.integer (-1)))])]]

theorem map_parse_portDocuments :
    portDocuments.map (fun d => Json.parse d.text) =
      [.ok (.object [("Db", .object [("Port", .number (.integer 5432))])]),
        .ok (.object [("Db", .object
          [("Host", .string "a"), ("Port", .number (.integer (-1)))])])] := by
  decide +kernel

theorem isWord_of_portDocuments : ∀ d ∈ portDocuments, ∀ written,
    Json.parse d.text = .ok written → ∀ n ∈ written.numbers, n.IsWord := by
  intro d hd written hparse n hn
  have hmem : Json.parse d.text ∈ portDocuments.map fun d => Json.parse d.text :=
    List.mem_map_of_mem hd
  rw [map_parse_portDocuments, hparse] at hmem
  simp only [List.mem_cons, Except.ok.injEq, List.not_mem_nil, or_false] at hmem
  rcases hmem with rfl | rfl
  · obtain rfl := List.mem_singleton.1 hn
    exact ⟨by decide, by decide⟩
  · obtain rfl := List.mem_singleton.1 hn
    exact ⟨by decide, by decide⟩

def portMachine : Machine where
  files := {
    entries := portDocuments.map fun d => ([d.name], .text d.text)
    nodup := by decide }

def portSettings : SettingsSelection := { files := portDocuments.map fun d => ⟨d.name⟩ }

def mergedPortText : String :=
  "\x7b\n  \"Db\": \x7b\n    \"Host\": \"a\",\n    \"Port\": -1\n  \x7d\n\x7d"

/-- The merged settings are printed with a line break behind them, or written to a file in a
directory that is made for it. Both texts stand in for the two documents. -/
theorem printed_ports_stand_in : ∃ merged,
    ofDocuments (fun _ => false) portDocuments = .ok merged ∧
      (∀ d ∈ portDocuments, ∀ written, Json.parse d.text = .ok written →
        ∀ n ∈ written.numbers, n.IsWord) ∧
      (∃ after, portMachine.execute (runMerge {} false portSettings none) = (.ok .success, after) ∧
        after.files = portMachine.files ∧ after.output = mergedPortText ++ "\n") ∧
      (∃ after, portMachine.execute
          (runMerge {} false portSettings (some ⟨"obj/merged.json"⟩)) = (.ok .success, after) ∧
        portMachine.files.Holds after.files [] ⟨"obj/merged.json"⟩ mergedPortText ∧
        after.output = "") ∧
      StandsIn (mergedPortText ++ "\n") portDocuments merged ∧
      StandsIn mergedPortText portDocuments merged := by
  have hread : portDocuments.map SettingsDocument.tree? =
      [portTree, [("Db", .tree [("Host", .string "a"), ("Port", .number (.integer (-1)))])]].map
        fun t => .ok (some t) := by
    decide +kernel
  have hmerge := MergedSettings.ofDocuments_of_map_tree? hread
  have hprinted : (MergedSettings.ofRead portDocuments).textFor none = mergedPortText ++ "\n" := by
    decide +kernel
  have hwritten (p : Path) :
      (MergedSettings.ofRead portDocuments).textFor (some p) = mergedPortText := by
    change (MergedSettings.ofRead portDocuments).tree.toJson.pretty = mergedPortText
    decide +kernel
  have hdocuments : portMachine.files.documents [] "appsettings.json" portSettings =
      .ok portDocuments := by
    rfl
  obtain ⟨hputs, hstands⟩ := printed_merge_stands_in hmerge isWord_of_portDocuments
  obtain ⟨after, hrun, hfiles, houtput⟩ :=
    hputs portMachine {} false portSettings none (by decide) hdocuments nofun
  obtain ⟨after', hrun', hholds, houtput'⟩ :=
    hputs portMachine {} false portSettings (some ⟨"obj/merged.json"⟩) (by decide) hdocuments
      fun p hp => by cases hp; exact ⟨"", rfl⟩
  refine ⟨_, hmerge, isWord_of_portDocuments, ⟨after, hrun, hfiles, ?_⟩, ⟨after', hrun', ?_, ?_⟩,
    ?_, ?_⟩
  · rw [houtput, hprinted]
    rfl
  · rwa [hwritten] at hholds
  · exact houtput'
  · rw [← hprinted]
    exact hstands none
  · rw [← hwritten ⟨""⟩]
    exact hstands (some ⟨""⟩)

end PassInput

end SettingsBinding
