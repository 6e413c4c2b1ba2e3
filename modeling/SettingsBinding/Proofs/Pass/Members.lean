import SettingsBinding.Proofs.Classes.Growth
import SettingsBinding.Proofs.HostSource.Contents
import SettingsBinding.Proofs.Pass.Outcome

/-!
The members that a pass adds to the host class. There is one for each other section key of the
program, so no two of them have the same name. Neither the name of the class nor what the host
declares itself keeps a key away, though: a member repeats one of these names exactly if the program
has a type of that name with the marker behind it.
-/

namespace SettingsBinding

def HostSource.propertyNames (source : HostSource) : List String := source.sections.map Prod.snd

namespace PassInput

variable {input : PassInput} {source : HostSource} {name text key : String}

theorem exists_hostSource_of_generate (h : input.generate = .ok (.generated name text)) :
    input.config.isValid ∧ ∃ source, input.hostSource? = some source ∧
      text = source.text input.config.indentWidth := by
  rw [generate, Steps.bind_eq_ok_iff] at h
  obtain ⟨accepted, haccepted, hrun⟩ := h
  obtain rfl := Config.eq_of_checked haccepted
  refine ⟨Config.checked_eq_ok_iff.1 haccepted, ?_⟩
  rw [run] at hrun
  cases hcheck : input.check with
  | error e =>
      rw [hcheck] at hrun
      cases hrun
  | ok report =>
      rw [hcheck] at hrun
      have hend : input.outcome report = .generated name text := Except.ok.inj hrun
      rw [outcome] at hend
      split at hend
      · split at hend
        · cases hend
        · next source hsource =>
            injection hend with _ htext
            exact ⟨source, hsource, htext.symm⟩
      · cases hend

/-- A section is told by a type: its key stands in front of the marker in the name. -/
theorem mem_keys_classes_iff : key ∈ input.classes.keys ↔ Text.isBlank key = false ∧
    ∃ type ∈ input.types, type.name = key ++ input.config.markerSuffix := by
  rw [classes, ClassMap.keys_ofTypes, List.mem_eraseDups, List.mem_filterMap]
  simp only [sectionKey?_eq_some_iff]
  constructor
  · rintro ⟨type, htype, hblank, hname⟩
    exact ⟨hblank, type, htype, hname⟩
  · rintro ⟨hblank, type, htype, hname⟩
    exact ⟨type, htype, hblank, hname⟩

/-- The properties are named by the keys of the classes other than the host. -/
theorem mem_propertyNames_iff (h : input.hostSource? = some source) :
    key ∈ source.propertyNames ↔ key ≠ input.config.hostKey ∧ Text.isBlank key = false ∧
      ∃ type ∈ input.types, type.name = key ++ input.config.markerSuffix := by
  obtain ⟨host, -, hdescribes⟩ :=
    HostSource.describes_of_ofClasses? (Entries.nodup_keys_firstEntries _) h
  rw [← mem_keys_classes_iff, HostSource.propertyNames, hdescribes.sections_eq, List.map_map,
    ClassMap.keys]
  simp only [List.mem_map, List.mem_filter, decide_eq_true_eq, Function.comp_apply]
  constructor
  · rintro ⟨e, ⟨he, hother⟩, rfl⟩
    exact ⟨hother, e, he, rfl⟩
  · rintro ⟨hother, e, he, rfl⟩
    exact ⟨e, ⟨he, hother⟩, rfl⟩

/-- The class has the name of the host, which is the first type of that name. -/
theorem exists_host_of_hostSource? (h : input.hostSource? = some source) :
    source.className = input.config.hostClassName ∧
      ∃ host, TypeSymbol.classOf? input.types input.config.markerSuffix input.config.hostKey =
        some host := by
  obtain ⟨c, hc, hdescribes⟩ :=
    HostSource.describes_of_ofClasses? (Entries.nodup_keys_firstEntries _) h
  have hmem := Entries.mem_of_lookup_eq_some hc
  obtain ⟨host, hhost, -⟩ := ClassMap.mem_ofTypes_iff.1 hmem
  refine ⟨?_, host, hhost⟩
  rw [hdescribes.className_eq, (ClassMap.describes_of_mem_ofTypes hmem).1, Config.hostClassName]

/-- No key is that of the host with the marker behind it, unless a type has the marker twice. -/
theorem className_mem_propertyNames_iff (hvalid : input.config.isValid)
    (h : input.hostSource? = some source) :
    source.className ∈ source.propertyNames ↔ ∃ type ∈ input.types,
      type.name = input.config.hostKey ++ input.config.markerSuffix ++
        input.config.markerSuffix := by
  obtain ⟨hmarker, hkey, -⟩ := Config.isValid_iff.1 hvalid
  have hlonger : input.config.hostKey ++ input.config.markerSuffix ≠ input.config.hostKey := by
    intro hsame
    have hempty : input.config.markerSuffix = "" := by
      simpa using congrArg String.toList hsame
    rw [hempty] at hmarker
    cases hmarker
  have hblank : Text.isBlank (input.config.hostKey ++ input.config.markerSuffix) = false := by
    have hfront := Config.isBlank_of_isIdentifier hkey
    rw [Text.isBlank] at hfront
    rw [Text.isBlank, String.toList_append, List.all_append, hfront, Bool.false_and]
  rw [mem_propertyNames_iff h, (exists_host_of_hostSource? h).1, Config.hostClassName]
  exact ⟨fun h => h.2.2, fun htype => ⟨hlonger, hblank, htype⟩⟩

/-- The properties that are added to the host class have different names. One has the name of the
class exactly if the program has a type of that name with the marker behind it, and one has the name
of a getter of the host exactly if the program has such a type for that name, the key of the host
and blank names apart. -/
theorem generated_members_repeat_iff {config : Config} {raised : Nat → Bool}
    {documents : List SettingsDocument} {model : ProgramModel} {name text : String}
    (h : generate ⟨config, raised, documents, model.types⟩ = .ok (.generated name text)) :
    ∃ host source,
      TypeSymbol.classOf? model.types config.markerSuffix config.hostKey = some host ∧
      hostSource? ⟨config, raised, documents, model.types⟩ = some source ∧
      text = source.text config.indentWidth ∧
      source.propertyNames.Nodup ∧
      (source.className ∈ source.propertyNames ↔ ∃ type ∈ model.types,
        type.name = config.hostKey ++ config.markerSuffix ++ config.markerSuffix) ∧
      ∀ property ∈ host.getters.map Prod.fst,
        property ∈ source.propertyNames ↔ property ≠ config.hostKey ∧
          Text.isBlank property = false ∧
          ∃ type ∈ model.types, type.name = property ++ config.markerSuffix := by
  obtain ⟨hvalid, source, hsource, htext⟩ := exists_hostSource_of_generate h
  obtain ⟨-, host, hhost⟩ := exists_host_of_hostSource? hsource
  obtain ⟨c, -, hdescribes⟩ :=
    HostSource.describes_of_ofClasses? (Entries.nodup_keys_firstEntries _) hsource
  exact ⟨host, source, hhost, hsource, htext, hdescribes.distinct,
    className_mem_propertyNames_iff hvalid hsource, fun _ _ => mem_propertyNames_iff hsource⟩

/-! ### A host that meets its own names -/

def repeatingHost : TypeSymbol :=
  (TypeSymbol.withProperty ⟨"HostConfiguration", "App", []⟩ "Db"
    (.reference "DbConfiguration" "App.DbConfiguration")).withProperty "Name" .string

/-- The host, a class for the section `Db`, and one for a section with the name of the host. -/
def repeatingModel : ProgramModel :=
  .ofTypes [repeatingHost, ⟨"DbConfiguration", "App", []⟩,
    ⟨"HostConfigurationConfiguration", "App", []⟩]

def repeatingDocuments : List SettingsDocument :=
  [⟨"appsettings.json", "\x7b\"Db\":\x7b\x7d,\"HostConfiguration\":\x7b\x7d\x7d"⟩]

def repeatingSource : HostSource :=
  ⟨"HostConfiguration", "App", [], [("DbConfiguration", "Db"),
    ("HostConfigurationConfiguration", "HostConfiguration")]⟩

theorem generate_repeatingModel :
    generate ⟨{}, fun _ => false, repeatingDocuments, repeatingModel.types⟩ =
      .ok (.generated "Host.cs" (repeatingSource.text 4)) := by
  decide +kernel

theorem hostSource?_repeatingModel :
    hostSource? ⟨{}, fun _ => false, repeatingDocuments, repeatingModel.types⟩ =
      some repeatingSource := by
  decide +kernel

theorem classOf?_repeatingModel :
    TypeSymbol.classOf? repeatingModel.types "Configuration" "Host" = some repeatingHost := by
  rfl

/-- The getter `Db` of the host is repeated, and `Name` is not. -/
theorem generated_members_repeat_iff_db :
    generate ⟨{}, fun _ => false, repeatingDocuments, repeatingModel.types⟩ =
        .ok (.generated "Host.cs" (repeatingSource.text 4)) ∧
      repeatingSource.propertyNames.Nodup ∧
      repeatingSource.className ∈ repeatingSource.propertyNames ∧
      "Db" ∈ repeatingSource.propertyNames ∧ "Name" ∉ repeatingSource.propertyNames := by
  obtain ⟨host, source, hhost, hsource, -, hdistinct, hclass, hgetters⟩ :=
    generated_members_repeat_iff generate_repeatingModel
  cases classOf?_repeatingModel.symm.trans hhost
  cases hostSource?_repeatingModel.symm.trans hsource
  refine ⟨generate_repeatingModel, hdistinct, hclass.2 ?_, (hgetters "Db" ?_).2 ?_,
    fun hname => ?_⟩
  · exact ⟨⟨"HostConfigurationConfiguration", "App", []⟩, by simp [repeatingModel], rfl⟩
  · decide
  · exact ⟨by decide, by decide, ⟨"DbConfiguration", "App", []⟩, by simp [repeatingModel], rfl⟩
  · obtain ⟨-, -, type, htype, hmarked⟩ := (hgetters "Name" (by decide)).1 hname
    have hnone : ∀ typeName ∈ repeatingModel.types.map TypeSymbol.name,
        typeName ≠ "NameConfiguration" := by
      decide
    exact hnone type.name (List.mem_map_of_mem htype) hmarked

/-- The members of a class that is generated need not be distinct: one can have the name of the
class, and one can be declared by the host already. -/
theorem generated_members_not_distinct :
    generate ⟨{}, fun _ => false, repeatingDocuments, repeatingModel.types⟩ =
        .ok (.generated "Host.cs" (repeatingSource.text 4)) ∧
      hostSource? ⟨{}, fun _ => false, repeatingDocuments, repeatingModel.types⟩ =
        some repeatingSource ∧
      repeatingSource.className ∈ repeatingSource.propertyNames ∧
      TypeSymbol.classOf? repeatingModel.types "Configuration" "Host" = some repeatingHost ∧
      ∃ property ∈ repeatingHost.getters.map Prod.fst,
        property ∈ repeatingSource.propertyNames := by
  refine ⟨generate_repeatingModel, hostSource?_repeatingModel, ?_, classOf?_repeatingModel,
    "Db", ?_, ?_⟩
  · decide
  · decide
  · decide

end PassInput

end SettingsBinding
