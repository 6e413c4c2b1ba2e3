import SettingsBinding.Pass
import SettingsBinding.Proofs.Classes.Mismatches
import SettingsBinding.Proofs.Equality
import SettingsBinding.Proofs.Merge.Sections
import SettingsBinding.Proofs.Settings.Documents

/-!
What a check reports as missing, told from the documents instead of the merged tree. The first
document that holds the key of a class decides whether there is a section; if there is, a property
is missing where no document has it in a section under the key.
-/

namespace SettingsBinding.PassInput

open SettingsDocument (trees)
open SettingsTree (MergedFrom firstValue?)

variable {config : Config} {raised : Nat → Bool} {documents : List SettingsDocument}
  {model : ProgramModel} {merged : MergedSettings}

theorem check_eq_ok {input : PassInput} (h : input.merge = .ok merged) :
    input.check = .ok (input.report merged) := by
  rw [check, h]
  rfl

theorem mergedFrom_trees (h : MergedSettings.ofDocuments raised documents = .ok merged) :
    MergedFrom merged.tree (trees documents) := by
  obtain ⟨-, rfl⟩ := MergedSettings.ofDocuments_eq_ok_iff.1 h
  exact SettingsTree.mergedFrom_mergeAll fun t => SettingsDocument.nodup_keys_of_mem_trees

/-- The merged tree is made of the trees of the documents key by key. So a section is reported as
not found if no document holds its key, or the first one that does has no object there; and a
property is reported as missing if the first document that holds the key has an object there, the
property has to be set, and no document with an object under the key sets it. -/
theorem check_reports_missing
    (hmerge : merge ⟨config, raised, documents, model.types⟩ = .ok merged) :
    MergedFrom merged.tree (trees documents) ∧
    ∃ report, check ⟨config, raised, documents, model.types⟩ = .ok report ∧
      (∀ key, ⟨key, none, .sectionNotFound⟩ ∈ report.mismatches ↔
        (∃ symbol, TypeSymbol.classOf? model.types config.markerSuffix key = some symbol) ∧
          key ≠ config.hostKey ∧
          ((∀ t ∈ trees documents, key ∉ t.keys) ∨
            ∃ value, firstValue? (trees documents) key = some value ∧ value.isTree = false)) ∧
      ∀ key property, ⟨key, some property, .missingField⟩ ∈ report.mismatches ↔
        ∃ symbol, TypeSymbol.classOf? model.types config.markerSuffix key = some symbol ∧
          key ≠ config.hostKey ∧
          (∃ type, symbol.propertyType? property = some type ∧ type.isValueType ∧
            type.isNullable = false) ∧
          (∃ first, firstValue? (trees documents) key = some (.tree first)) ∧
          ∀ t ∈ trees documents, ∀ s : SettingsTree, t.get? key = some (.tree s) →
            property ∉ s.keys := by
  have hfrom := mergedFrom_trees hmerge
  refine ⟨hfrom, _, check_eq_ok hmerge, fun key => ?_, fun key property => ?_⟩
  · rw [← hfrom.section?_eq_none_iff]
    exact ClassMap.sectionNotFound_mem_mismatches_iff
  · simp only [← hfrom.exists_section_lacking_iff]
    exact ClassMap.missingField_mem_mismatches_iff

/-! ### A section that comes too late, and one that two documents share -/

def cacheModel : ProgramModel :=
  .ofTypes [⟨"HostConfiguration", "App", []⟩,
    (TypeSymbol.withProperty ⟨"DbConfiguration", "App", []⟩ "Port" .int32).withProperty
      "Timeout" .int32,
    TypeSymbol.withProperty ⟨"CacheConfiguration", "App", []⟩ "Size" .int32,
    ⟨"LogConfiguration", "App", []⟩]

/-- The cache is a number first and an object afterwards, and no document sets the timeout. -/
def cacheTrees : List SettingsTree :=
  [[("Db", .tree [("Host", .string "a")]), ("Cache", .number (.integer 5))],
    [("Cache", .tree [("Size", .number (.integer 1))]),
      ("Db", .tree [("Port", .number (.integer 1))])]]

def cacheDocuments : List SettingsDocument := cacheTrees.map (.ofTree "appsettings.json")

theorem map_tree?_cacheDocuments :
    cacheDocuments.map SettingsDocument.tree? = cacheTrees.map fun t => .ok (some t) := by
  decide +kernel

theorem check_reports_missing_cache :
    ∃ report, check ⟨{}, fun _ => false, cacheDocuments, cacheModel.types⟩ = .ok report ∧
      ⟨"Cache", none, .sectionNotFound⟩ ∈ report.mismatches ∧
      ⟨"Log", none, .sectionNotFound⟩ ∈ report.mismatches ∧
      ⟨"Db", some "Timeout", .missingField⟩ ∈ report.mismatches ∧
      ⟨"Db", some "Port", .missingField⟩ ∉ report.mismatches := by
  have hmerge : merge ⟨{}, fun _ => false, cacheDocuments, cacheModel.types⟩ =
      .ok (.ofRead cacheDocuments) :=
    MergedSettings.ofDocuments_of_map_tree? map_tree?_cacheDocuments
  obtain ⟨-, report, hcheck, hsections, hfields⟩ := check_reports_missing hmerge
  rw [SettingsDocument.trees_of_map_tree? map_tree?_cacheDocuments] at hsections hfields
  refine ⟨report, hcheck, (hsections "Cache").2 ⟨⟨_, rfl⟩, by decide, .inr ⟨_, rfl, rfl⟩⟩,
    (hsections "Log").2 ⟨⟨_, rfl⟩, by decide, .inl (by decide)⟩, ?_, fun hport => ?_⟩
  · have hlacking : ∀ t ∈ cacheTrees, ∀ s : SettingsTree, t.get? "Db" = some (.tree s) →
        "Timeout" ∉ s.keys := by
      simp [cacheTrees, SettingsTree.get?, List.lookup_cons, SettingsTree.keys, Json.keys]
    exact (hfields "Db" "Timeout").2
      ⟨_, rfl, by decide, ⟨_, rfl, rfl, rfl⟩, ⟨_, rfl⟩, hlacking⟩
  · obtain ⟨-, -, -, -, -, hlacking⟩ := (hfields "Db" "Port").1 hport
    exact hlacking _ (List.mem_cons_of_mem _ List.mem_cons_self) _ rfl (by decide)

end SettingsBinding.PassInput
