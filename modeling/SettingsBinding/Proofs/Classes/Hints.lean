import Mathlib.Data.List.Basic
import SettingsBinding.Proofs.Classes.Closest
import SettingsBinding.Proofs.Settings.Correspondence

/-!
Hints and mismatches. A hint names the section with the most similar name. A validation goes through
the classes once and notes a mismatch for each section that is not found, and a hint behind it if
there is one; so the hints come in the order of those mismatches, at most one for each, and whatever
they suggest, the mismatches stay the same.
-/

namespace SettingsBinding

namespace SettingsTree

variable {settings : SettingsTree} {key : String}

/-- A key that is no name of a section leads to no section. -/
theorem section?_eq_none_of_notMem (h : key ∉ settings.sectionNames) :
    settings.section? key = none := by
  rw [Option.eq_none_iff_forall_ne_some]
  intro entries hentries
  have hmem := Entries.mem_of_lookup_eq_some (section?_eq_some_iff.1 hentries)
  exact h (List.mem_map.2 ⟨_, mem_sections_iff.2 hmem, rfl⟩)

end SettingsTree

namespace PropertyType

theorem mismatch?_ne_sectionNotFound (type : PropertyType) (value : Option Setting) :
    type.mismatch? value ≠ some .sectionNotFound := by
  cases value with
  | none => cases h : type.isOptional <;> simp [mismatch?, h]
  | some value => cases h : type.accepts value.kind <;> simp [mismatch?, h]

end PropertyType

namespace ConfigurationClass

theorem kind_ne_sectionNotFound {c : ConfigurationClass} {key : String} {entries : SettingsTree}
    {m : Mismatch} (h : m ∈ c.mismatches key entries) : m.kind ≠ .sectionNotFound := by
  rw [mismatches, List.mem_filterMap] at h
  obtain ⟨⟨property, type⟩, -, hm⟩ := h
  obtain ⟨kind, hkind, rfl⟩ := Option.map_eq_some_iff.1 hm
  rintro rfl
  exact type.mismatch?_ne_sectionNotFound _ hkind

def hintEvent (c : ConfigurationClass) (key candidate : String) : LogEvent :=
  warn s!"No section '{key}' for {c.className}; did you mean '{candidate}'?"

end ConfigurationClass

namespace ClassMap

variable {settings : SettingsTree} {key : String} {c : ConfigurationClass}

theorem hint?_of_notMem (h : key ∉ settings.sectionNames) :
    hint? settings key c = (settings.closestSection? key).map (c.hintEvent key) := by
  rw [hint?, SettingsTree.section?_eq_none_of_notMem h]
  rfl

theorem isSome_hint?_iff (h : key ∉ settings.sectionNames) :
    (hint? settings key c).isSome ↔ ∃ name ∈ settings.sectionNames, 3 / 4 ≤ score key name := by
  rw [hint?_of_notMem h, Option.isSome_map, Option.isSome_iff_ne_none, ne_eq,
    SettingsTree.closestSection?_eq_none_iff]
  simp

/-! ### Going through the classes -/

structure Findings where
  hints : List LogEvent
  mismatches : List Mismatch

/-- One more class is checked. Where its section is not found, a rule may suggest another one. -/
def visit (suggest : SettingsTree → String → Option String) (hostKey : String)
    (settings : SettingsTree) (found : Findings) (e : String × ConfigurationClass) : Findings :=
  if e.1 = hostKey then found
  else
    match settings.section? e.1 with
    | some entries => { found with mismatches := found.mismatches ++ e.2.mismatches e.1 entries }
    | none =>
      ⟨found.hints ++ ((suggest settings e.1).map (e.2.hintEvent e.1)).toList,
        found.mismatches ++ [⟨e.1, none, .sectionNotFound⟩]⟩

def validate (suggest : SettingsTree → String → Option String) (classes : ClassMap)
    (hostKey : String) (settings : SettingsTree) : Findings :=
  classes.foldl (visit suggest hostKey settings) ⟨[], []⟩

/-- The classes other than the host whose sections are not found. -/
def lost (classes : ClassMap) (hostKey : String) (settings : SettingsTree) : ClassMap :=
  (classes.bound hostKey).filter fun e => (settings.section? e.1).isNone

variable {suggest : SettingsTree → String → Option String} {hostKey : String}
  {classes : ClassMap} {e : String × ConfigurationClass}

theorem mem_lost_iff : e ∈ classes.lost hostKey settings ↔
    e ∈ classes ∧ e.1 ≠ hostKey ∧ settings.section? e.1 = none := by
  simp [lost, bound, and_comm]

/-- The findings after one more class are those for it behind those before. -/
theorem visit_eq (found : Findings) :
    visit suggest hostKey settings found e =
      ⟨found.hints ++ (lost [e] hostKey settings).filterMap fun e =>
          (suggest settings e.1).map (e.2.hintEvent e.1),
        found.mismatches ++ mismatches [e] hostKey settings⟩ := by
  rw [visit, lost, mismatches, bound]
  by_cases hhost : e.1 = hostKey
  · simp [hhost]
  · cases hsection : settings.section? e.1 with
    | some entries => simp [hhost, hsection]
    | none => cases hsuggest : suggest settings e.1 <;> simp [hhost, hsection, hsuggest]

theorem lost_append (classes others : ClassMap) :
    lost (classes ++ others) hostKey settings =
      classes.lost hostKey settings ++ others.lost hostKey settings := by
  simp [lost, bound]

theorem mismatches_append (classes others : ClassMap) :
    mismatches (classes ++ others) hostKey settings =
      classes.mismatches hostKey settings ++ others.mismatches hostKey settings := by
  simp [mismatches, bound]

/-- A validation notes the mismatches of all classes, and what is suggested for the lost ones. -/
theorem validate_eq (suggest : SettingsTree → String → Option String) (classes : ClassMap)
    (hostKey : String) (settings : SettingsTree) :
    validate suggest classes hostKey settings =
      ⟨(classes.lost hostKey settings).filterMap fun e =>
          (suggest settings e.1).map (e.2.hintEvent e.1),
        classes.mismatches hostKey settings⟩ := by
  induction classes using List.reverseRecOn with
  | nil => rfl
  | append_singleton classes e ih =>
      rw [validate, List.foldl_append, ← validate, List.foldl_cons, List.foldl_nil, visit_eq, ih,
        lost_append, mismatches_append, List.filterMap_append]

theorem hints_eq (classes : ClassMap) (hostKey : String) (settings : SettingsTree) :
    classes.hints hostKey settings =
      (classes.lost hostKey settings).filterMap fun e => hint? settings e.1 e.2 := by
  rw [hints, lost, List.filterMap_filter]
  refine List.filterMap_congr fun e _ => ?_
  cases hsection : settings.section? e.1 with
  | none => simp
  | some entries => simp [hint?, hsection]

/-- A validation that suggests the closest section gives the hints. -/
theorem validate_closestSection? (classes : ClassMap) (hostKey : String)
    (settings : SettingsTree) :
    validate SettingsTree.closestSection? classes hostKey settings =
      ⟨classes.hints hostKey settings, classes.mismatches hostKey settings⟩ := by
  rw [validate_eq, hints_eq, Findings.mk.injEq]
  refine ⟨List.filterMap_congr fun e he => ?_, rfl⟩
  rw [hint?, (mem_lost_iff.1 he).2.2]
  rfl

/-- The sections that are not found are those of the lost classes. -/
theorem filter_mismatches_eq (classes : ClassMap) (hostKey : String) (settings : SettingsTree) :
    (classes.mismatches hostKey settings).filter (fun m => m.kind = .sectionNotFound) =
      (classes.lost hostKey settings).map fun e => ⟨e.1, none, .sectionNotFound⟩ := by
  rw [mismatches, lost]
  induction classes.bound hostKey with
  | nil => rfl
  | cons e rest ih =>
      rw [List.flatMap_cons, List.filter_append, ih]
      cases hsection : settings.section? e.1 with
      | none => simp [hsection]
      | some entries =>
          have hnone : (e.2.mismatches e.1 entries).filter
              (fun m => m.kind = .sectionNotFound) = [] := by
            rw [List.filter_eq_nil_iff]
            intro m hm
            simpa using ConfigurationClass.kind_ne_sectionNotFound hm
          simp [hsection, hnone]

open SettingsTree in
/-- For a key that is no name of a section there is a hint exactly where the name of some section is
similar enough, and it names the last of the most similar ones; where names are equal to the key up
to case, it is the last of those. How similar names are depends on the least number of edits. The
events of a validation are the hints for the classes whose sections are not found, the host left
out, in the order of the mismatches that say so; and no mismatch depends on what is suggested. -/
theorem hints_name_closest_sections (settings : SettingsTree) :
    (∀ (key : String) (c : ConfigurationClass), key ∉ settings.sectionNames →
      ((hint? settings key c).isSome ↔ ∃ name ∈ settings.sectionNames, 3 / 4 ≤ score key name) ∧
      (∀ event, hint? settings key c = some event →
        ∃ before name after, settings.sectionNames = before ++ name :: after ∧
          event = c.hintEvent key name ∧ name ≠ key ∧
          (∀ other ∈ settings.sectionNames, score key other ≤ score key name) ∧
          ∀ other ∈ after, score key other < score key name) ∧
      ∀ before name after, settings.sectionNames = before ++ name :: after →
        Text.equalIgnoringCase name key = true →
        (∀ other ∈ after, Text.equalIgnoringCase other key = false) →
        hint? settings key c = some (c.hintEvent key name)) ∧
    (∀ a b, IsLeast {n | Text.Edits n a b} (Text.editDistance a b)) ∧
    ∀ (classes : ClassMap) (hostKey : String),
      (classes.mismatches hostKey settings).filter (fun m => m.kind = .sectionNotFound) =
        (classes.lost hostKey settings).map (fun e => ⟨e.1, none, .sectionNotFound⟩) ∧
      classes.validationEvents hostKey settings =
        (classes.lost hostKey settings).filterMap (fun e => hint? settings e.1 e.2) ++
          [debug (s!"Validation finished with " ++
            s!"{(classes.mismatches hostKey settings).length} error(s)")] ∧
      (∀ e ∈ classes.lost hostKey settings, e.1 ≠ hostKey) ∧
      validate closestSection? classes hostKey settings =
        ⟨classes.hints hostKey settings, classes.mismatches hostKey settings⟩ ∧
      ∀ suggest, (validate suggest classes hostKey settings).mismatches =
        classes.mismatches hostKey settings := by
  refine ⟨fun key c hkey => ⟨isSome_hint?_iff hkey, fun event hevent => ?_, ?_⟩,
    Text.isLeast_editDistance, fun classes hostKey => ⟨filter_mismatches_eq .., ?_,
      fun e he => (mem_lost_iff.1 he).2.1, validate_closestSection? .., fun suggest => ?_⟩⟩
  · rw [hint?_of_notMem hkey, Option.map_eq_some_iff] at hevent
    obtain ⟨name, hname, rfl⟩ := hevent
    obtain ⟨before, after, hnames, hbest, hafter⟩ := (isLastBest_of_closestSection? hname).2
    refine ⟨before, name, after, hnames, rfl, ?_, hbest, hafter⟩
    rintro rfl
    exact hkey (hnames ▸ by simp)
  · intro before name after hnames hname hafter
    have hbest := isLastBest_of_equalIgnoringCase (hnames ▸ hkey) hname hafter
    have hone : score key name = 1 := if_pos hname
    rw [hint?_of_notMem hkey, closestSection?_of_isLastBest (by norm_num [hone]) (hnames ▸ hbest)]
    rfl
  · rw [validationEvents, hints_eq]
    rfl
  · rw [validate_eq]

/-- Three names that are close to one key, and one that is close to another key. -/
def nearTree : SettingsTree :=
  [("redis", .tree []), ("Rediss", .tree []), ("REDIS", .tree []), ("Redi", .tree []),
    ("Redis", .bool true), ("Database", .tree [])]

def redisClass : ConfigurationClass := ⟨"RedisConfiguration", "App", []⟩

def databaseClass : ConfigurationClass := ⟨"DatabseConfiguration", "App", []⟩

theorem hints_name_closest_sections_of_redis :
    hint? nearTree "Redis" redisClass = some (redisClass.hintEvent "Redis" "REDIS") ∧
      (∃ name, hint? nearTree "Databse" databaseClass =
        some (databaseClass.hintEvent "Databse" name) ∧ 7 / 8 ≤ score "Databse" name) ∧
      hint? nearTree "Queue" redisClass = none := by
  obtain ⟨hclose, -, -⟩ := hints_name_closest_sections nearTree
  obtain ⟨-, -, hredis⟩ := hclose "Redis" redisClass (by decide)
  obtain ⟨hdatabase, hnamed, -⟩ := hclose "Databse" databaseClass (by decide)
  obtain ⟨hqueue, -, -⟩ := hclose "Queue" redisClass (by decide)
  have hscore : score "Databse" "Database" = 7 / 8 := by
    rw [← Similarity.value_ofNames]
    norm_num [Similarity.value, show Similarity.ofNames "Database" "Databse" = ⟨7, 8⟩ by decide]
  have hlow : ∀ name ∈ nearTree.sectionNames,
      Similarity.threshold.atMost (.ofNames name "Queue") = false := by decide
  refine ⟨hredis ["redis", "Rediss"] "REDIS" ["Redi", "Database"] rfl (by decide) (by decide),
    ?_, ?_⟩
  · obtain ⟨event, hevent⟩ := Option.isSome_iff_exists.1
      (hdatabase.2 ⟨"Database", by decide, by norm_num [hscore]⟩)
    obtain ⟨before, name, after, -, rfl, -, hbest, -⟩ := hnamed event hevent
    exact ⟨name, hevent, hscore ▸ hbest "Database" (by decide)⟩
  · rw [← Option.not_isSome_iff_eq_none, hqueue]
    rintro ⟨name, hname, henough⟩
    rw [← Similarity.threshold_atMost_iff, hlow name hname] at henough
    cases henough

end ClassMap

end SettingsBinding
