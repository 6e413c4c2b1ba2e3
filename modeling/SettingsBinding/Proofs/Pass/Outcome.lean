import SettingsBinding.Pass
import SettingsBinding.Proofs.Classes.Validation
import SettingsBinding.Proofs.Config
import SettingsBinding.Proofs.Equality
import SettingsBinding.Proofs.Merge.Fold
import SettingsBinding.Proofs.Settings.Documents

/-!
How a pass ends, told from the merged tree and the types of the program alone: it fails if a class
other than the host is not satisfied by the tree; else it generates the source of the host class if
there is one, and is skipped if there is none.
-/

namespace SettingsBinding

namespace PassInput

variable {input : PassInput} {merged : MergedSettings}

/-- Every class of the program but the host is satisfied by the tree. -/
def AllSatisfied (config : Config) (types : List TypeSymbol) (settings : SettingsTree) : Prop :=
  ∀ key symbol, TypeSymbol.classOf? types config.markerSuffix key = some symbol →
    key ≠ config.hostKey → symbol.SatisfiedBy settings key

theorem isValid_report_iff :
    (input.report merged).isValid ↔ AllSatisfied input.config input.types merged.tree := by
  rw [CheckReport.isValid, report, List.isEmpty_iff]
  exact ClassMap.mismatches_ofTypes_eq_nil_iff

/-- The program has a host class if a type has its name, the key of the host being an identifier. -/
theorem isSome_hostSource?_iff (h : input.config.isValid) :
    input.hostSource?.isSome ↔ ∃ type ∈ input.types, type.name = input.config.hostClassName := by
  have hblank := Config.isBlank_of_isIdentifier (Config.isValid_iff.1 h).2.1
  rw [hostSource?, HostSource.ofClasses?, Option.isSome_map, classes, ClassMap.get?_ofTypes,
    Option.isSome_map, TypeSymbol.classOf?, hblank]
  simp [Config.hostClassName]

/-- A pass ends in one of three ways, each with what has led to it. -/
theorem outcome_report_cases (input : PassInput) (h : input.config.isValid)
    (merged : MergedSettings) :
    (¬AllSatisfied input.config input.types merged.tree ∧
        ∃ diagnostic mismatches,
          input.outcome (input.report merged) = .failed diagnostic mismatches) ∨
      (AllSatisfied input.config input.types merged.tree ∧
        (∃ type ∈ input.types, type.name = input.config.hostClassName) ∧
        ∃ text, input.outcome (input.report merged) =
          .generated input.config.sourceName text) ∨
      (AllSatisfied input.config input.types merged.tree ∧
        (∀ type ∈ input.types, type.name ≠ input.config.hostClassName) ∧
        input.outcome (input.report merged) = .skipped) := by
  have hhost := isSome_hostSource?_iff h
  rw [← isValid_report_iff, outcome]
  by_cases hvalid : (input.report merged).isValid
  · rw [if_pos hvalid]
    cases hsource : input.hostSource? with
    | none =>
        rw [hsource] at hhost
        have hnone : ∀ type ∈ input.types, type.name ≠ input.config.hostClassName := by
          simpa using hhost
        exact .inr (.inr ⟨hvalid, hnone, rfl⟩)
    | some source =>
        rw [hsource] at hhost
        exact .inr (.inl ⟨hvalid, hhost.1 rfl, _, rfl⟩)
  · rw [if_neg hvalid]
    exact .inl ⟨hvalid, _, _, rfl⟩

theorem generate_of_merge (haccepted : input.config.checked = .ok input.config)
    (hmerge : input.merge = .ok merged) :
    input.generate = .ok (input.outcome (input.report merged)) := by
  rw [generate, haccepted, run, check, hmerge]
  rfl

/-- How a pass ends whose configuration is accepted and whose documents can be merged: it fails if a
class other than the host is not satisfied, generates the source under its name if all are satisfied
and the program has a host class, and is skipped otherwise. -/
theorem generate_outcome {config : Config} {raised : Nat → Bool}
    {documents : List SettingsDocument} {model : ProgramModel} {merged : MergedSettings}
    (haccepted : config.checked = .ok config)
    (hmerge : merge ⟨config, raised, documents, model.types⟩ = .ok merged) :
    ∃ outcome, generate ⟨config, raised, documents, model.types⟩ = .ok outcome ∧
      ((∃ diagnostic mismatches, outcome = .failed diagnostic mismatches) ↔
        ∃ key symbol, TypeSymbol.classOf? model.types config.markerSuffix key = some symbol ∧
          key ≠ config.hostKey ∧ ¬symbol.SatisfiedBy merged.tree key) ∧
      ((∃ text, outcome = .generated config.sourceName text) ↔
        AllSatisfied config model.types merged.tree ∧
          ∃ type ∈ model.types, type.name = config.hostKey ++ config.markerSuffix) ∧
      (outcome = .skipped ↔
        AllSatisfied config model.types merged.tree ∧
          ∀ type ∈ model.types, type.name ≠ config.hostKey ++ config.markerSuffix) := by
  have hcases := outcome_report_cases ⟨config, raised, documents, model.types⟩
    (Config.checked_eq_ok_iff.1 haccepted) merged
  have hfails : ¬AllSatisfied config model.types merged.tree ↔
      ∃ key symbol, TypeSymbol.classOf? model.types config.markerSuffix key = some symbol ∧
        key ≠ config.hostKey ∧ ¬symbol.SatisfiedBy merged.tree key := by
    simp [AllSatisfied]
  refine ⟨_, generate_of_merge haccepted hmerge, ?_⟩
  rw [← hfails]
  rcases hcases with ⟨hnot, diagnostic, mismatches, hend⟩ | ⟨hall, hhost, text, hend⟩ |
    ⟨hall, hnone, hend⟩
  · refine ⟨iff_of_true ⟨diagnostic, mismatches, hend⟩ hnot, ?_, ?_⟩
    · simp [hend, hnot]
    · simp [hend, hnot]
  · refine ⟨?_, iff_of_true ⟨text, hend⟩ ⟨hall, hhost⟩, ?_⟩
    · simp [hend, hall]
    · obtain ⟨type, htype, hname⟩ := hhost
      exact iff_of_false (by simp [hend]) fun h => h.2 type htype hname
  · refine ⟨?_, ?_, iff_of_true hend ⟨hall, hnone⟩⟩
    · simp [hend, hall]
    · exact iff_of_false (by simp [hend]) fun ⟨_, type, htype, hname⟩ => hnone type htype hname

/-! ### A program with a host class and a class of one property -/

def portModel : ProgramModel :=
  .ofTypes [⟨"HostConfiguration", "App", []⟩,
    TypeSymbol.withProperty ⟨"DbConfiguration", "App", []⟩ "Port" .int32]

def portTree : SettingsTree := [("Db", .tree [("Port", .number (.integer 5432))])]

theorem tree?_portTree : (SettingsDocument.ofTree "appsettings.json" portTree).tree? =
    .ok (some portTree) := by
  decide +kernel

theorem allSatisfied_portTree : AllSatisfied {} portModel.types portTree := by
  intro key symbol hsymbol hkey
  obtain ⟨hmem, hname⟩ := TypeSymbol.classOf?_eq_some hsymbol
  simp only [portModel, ProgramModel.types_ofTypes, List.mem_cons, List.not_mem_nil,
    or_false] at hmem
  rcases hmem with rfl | rfl
  · exact absurd ((String.append_left_inj "Configuration").1 hname.symm) hkey
  · have hdb : key = "Db" := (String.append_left_inj "Configuration").1 hname.symm
    subst hdb
    refine ⟨_, rfl, fun property type htype => ?_⟩
    -- The only property is the one that the section sets.
    simp only [TypeSymbol.propertyType?, TypeSymbol.getters, TypeSymbol.withProperty,
      List.nil_append, List.filterMap_cons, List.filterMap_nil, List.findSome?_cons,
      List.findSome?_nil] at htype
    by_cases hproperty : "Port" = property
    · subst hproperty
      cases htype
      exact .inl rfl
    · rw [if_neg hproperty] at htype
      cases htype

/-- The section sets the property, so the source of the host class is generated. -/
theorem generate_of_port : ∃ text,
    generate ⟨{}, fun _ => false, [.ofTree "appsettings.json" portTree], portModel.types⟩ =
      .ok (.generated "Host.cs" text) := by
  have haccepted : Config.checked {} = .ok {} := by decide +kernel
  have hread : ∀ d ∈ [SettingsDocument.ofTree "appsettings.json" portTree],
      ∃ found, d.tree? = .ok found := by
    simp [tree?_portTree]
  have hmerge : merge ⟨{}, fun _ => false, [.ofTree "appsettings.json" portTree],
      portModel.types⟩ = .ok (.ofRead [.ofTree "appsettings.json" portTree]) :=
    MergedSettings.ofDocuments_eq_ok_iff.2 ⟨⟨fun _ _ => rfl, hread⟩, rfl⟩
  have htree : (MergedSettings.ofRead [.ofTree "appsettings.json" portTree]).tree = portTree := by
    rw [MergedSettings.ofRead, SettingsDocument.trees_cons_of_tree tree?_portTree]
    exact SettingsTree.mergeAll_singleton portTree
  obtain ⟨outcome, hgenerate, -, hgenerated, -⟩ := generate_outcome haccepted hmerge
  rw [htree] at hgenerated
  obtain ⟨text, rfl⟩ := hgenerated.2 ⟨allSatisfied_portTree, _, List.mem_cons_self, rfl⟩
  exact ⟨text, hgenerate⟩

end PassInput

end SettingsBinding
