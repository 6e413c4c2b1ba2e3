import Mathlib.Data.List.Nodup
import SettingsBinding.Proofs.Classes.Mismatches

/-!
The list of mismatches as a whole. A place is a class, or a property of a class, and a class map has
its places in an order. Mismatches are found by going through the places in that order with at most
one at each, which gives the order of the list and that nothing stands in it twice. What is found at
a place is said by rules that mention the class map and the settings tree only.
-/

namespace SettingsBinding

namespace PropertyType

def Fits (type : PropertyType) : JsonKind → Prop
  | .boolean => type.name = "Boolean" ∨ type.isNullable ∧ type.argumentName = some "Boolean"
  | .number => type.name = "Int32" ∨ type.isNullable ∧ type.argumentName = some "Int32"
  | .string => type.name = "String"
  | .null | .array | .object => True

theorem accepts_iff_fits {type : PropertyType} {kind : JsonKind} :
    type.accepts kind ↔ type.Fits kind := by
  cases kind <;> simp [accepts, isNullableOf, Fits]

theorem mismatch?_none_eq_some_iff {type : PropertyType} {kind : MismatchKind} :
    type.mismatch? none = some kind ↔
      (type.isValueType ∧ type.isNullable = false) ∧ kind = .missingField := by
  have hoptional : type.isOptional = false ↔ type.isValueType ∧ type.isNullable = false := by
    rw [isOptional, Bool.or_eq_false_iff, Bool.not_eq_false']
  rw [mismatch?, ← hoptional]
  cases type.isOptional <;> simp [eq_comm]

theorem mismatch?_some_eq_some_iff {type : PropertyType} {value : Setting} {kind : MismatchKind} :
    type.mismatch? (some value) = some kind ↔
      ¬type.Fits value.kind ∧ kind = .typeMismatch type.fullName value.kind := by
  rw [mismatch?, ← accepts_iff_fits]
  cases type.accepts value.kind <;> simp [eq_comm]

end PropertyType

namespace Mismatch

/-- Where a mismatch is: at a class, or at a property of it. -/
def place (m : Mismatch) : String × Option String := (m.classKey, m.property)

end Mismatch

namespace ConfigurationClass

/-- The places of a class, which stands in front of its properties. -/
def places (c : ConfigurationClass) (key : String) : List (String × Option String) :=
  (key, none) :: c.properties.map fun p => (key, some p.1)

theorem fst_of_mem_places {c : ConfigurationClass} {key : String}
    {place : String × Option String} (h : place ∈ c.places key) : place.1 = key := by
  rcases List.mem_cons.1 h with rfl | hproperty
  · rfl
  · obtain ⟨p, -, rfl⟩ := List.mem_map.1 hproperty
    rfl

theorem map_place_mismatches_sublist (c : ConfigurationClass) (key : String)
    (entries : SettingsTree) :
    ((c.mismatches key entries).map Mismatch.place).Sublist (c.places key) := by
  rw [mismatches, places]
  refine List.Sublist.cons _ ?_
  induction c.properties with
  | nil => exact .slnil
  | cons p rest ih =>
      rcases p with ⟨property, type⟩
      rw [List.filterMap_cons]
      cases h : type.mismatch? (entries.get? property) with
      | none =>
          simp only [h, Option.map_none]
          exact ih.cons _
      | some kind =>
          simp only [h, Option.map_some, List.map_cons]
          exact ih.cons_cons _

end ConfigurationClass

namespace ClassMap

variable {classes : ClassMap} {hostKey key : String} {settings : SettingsTree}

/-- Each class stands under a key of its own, and so does each property of a class. -/
structure UniqueKeys (classes : ClassMap) : Prop where
  distinct : classes.keys.Nodup
  properties (key : String) (c : ConfigurationClass) (h : (key, c) ∈ classes) :
    (Json.keys c.properties).Nodup

theorem uniqueKeys_ofTypes (marker : String) (types : List TypeSymbol) :
    (ofTypes marker types).UniqueKeys where
  distinct := Entries.nodup_keys_firstEntries _
  properties key c h := by
    obtain ⟨symbol, -, rfl⟩ := mem_ofTypes_iff.1 h
    exact Entries.nodup_keys_firstEntries _

/-- The mismatches that there are between a class map and a settings tree. -/
inductive IsMismatch (classes : ClassMap) (hostKey : String) (settings : SettingsTree) :
    Mismatch → Prop
  | sectionNotFound {key : String} {c : ConfigurationClass} (hclass : (key, c) ∈ classes)
      (hkey : key ≠ hostKey) (hsection : ∀ entries, settings.get? key ≠ some (.tree entries)) :
      IsMismatch classes hostKey settings ⟨key, none, .sectionNotFound⟩
  | missingField {key property : String} {c : ConfigurationClass} {type : PropertyType}
      {entries : SettingsTree} (hclass : (key, c) ∈ classes) (hkey : key ≠ hostKey)
      (hsection : settings.get? key = some (.tree entries))
      (hproperty : (property, type) ∈ c.properties) (hlacking : property ∉ entries.keys)
      (hrequired : type.isValueType ∧ type.isNullable = false) :
      IsMismatch classes hostKey settings ⟨key, some property, .missingField⟩
  | typeMismatch {key property : String} {c : ConfigurationClass} {type : PropertyType}
      {entries : SettingsTree} {value : Setting} (hclass : (key, c) ∈ classes)
      (hkey : key ≠ hostKey) (hsection : settings.get? key = some (.tree entries))
      (hproperty : (property, type) ∈ c.properties) (hvalue : entries.get? property = some value)
      (hkind : ¬type.Fits value.kind) :
      IsMismatch classes hostKey settings
        ⟨key, some property, .typeMismatch type.fullName value.kind⟩

theorem mem_mismatches_iff_isMismatch {m : Mismatch} :
    m ∈ classes.mismatches hostKey settings ↔ classes.IsMismatch hostKey settings m := by
  rw [mem_mismatches_iff]
  constructor
  · rintro ⟨key, c, hclass, hkey, ⟨hnone, rfl⟩ | ⟨entries, hentries, hmem⟩⟩
    · refine .sectionNotFound hclass hkey fun entries hentries => ?_
      rw [SettingsTree.section?_eq_some_iff.2 hentries] at hnone
      cases hnone
    · obtain ⟨property, type, kind, hproperty, hkind, rfl⟩ :=
        ConfigurationClass.mem_mismatches_iff.1 hmem
      have hsection := SettingsTree.section?_eq_some_iff.1 hentries
      cases hvalue : entries.get? property with
      | none =>
          rw [hvalue] at hkind
          obtain ⟨hrequired, rfl⟩ := PropertyType.mismatch?_none_eq_some_iff.1 hkind
          exact .missingField hclass hkey hsection hproperty
            (SettingsTree.get?_eq_none_iff.1 hvalue) hrequired
      | some value =>
          rw [hvalue] at hkind
          obtain ⟨hmisfit, rfl⟩ := PropertyType.mismatch?_some_eq_some_iff.1 hkind
          exact .typeMismatch hclass hkey hsection hproperty hvalue hmisfit
  · intro h
    cases h with
    | sectionNotFound hclass hkey hsection =>
        have hnone : settings.section? _ = none := Option.eq_none_iff_forall_ne_some.2
          fun entries hentries => hsection entries (SettingsTree.section?_eq_some_iff.1 hentries)
        exact ⟨_, _, hclass, hkey, .inl ⟨hnone, rfl⟩⟩
    | missingField hclass hkey hsection hproperty hlacking hrequired =>
        refine ⟨_, _, hclass, hkey, .inr ⟨_, SettingsTree.section?_eq_some_iff.2 hsection,
          ConfigurationClass.mem_mismatches_iff.2 ⟨_, _, _, hproperty, ?_, rfl⟩⟩⟩
        rw [SettingsTree.get?_eq_none_iff.2 hlacking]
        exact PropertyType.mismatch?_none_eq_some_iff.2 ⟨hrequired, rfl⟩
    | typeMismatch hclass hkey hsection hproperty hvalue hkind =>
        refine ⟨_, _, hclass, hkey, .inr ⟨_, SettingsTree.section?_eq_some_iff.2 hsection,
          ConfigurationClass.mem_mismatches_iff.2 ⟨_, _, _, hproperty, ?_, rfl⟩⟩⟩
        rw [hvalue]
        exact PropertyType.mismatch?_some_eq_some_iff.2 ⟨hkind, rfl⟩

/-! ### The order of the places -/

def places (classes : ClassMap) : List (String × Option String) :=
  classes.flatMap fun (key, c) => c.places key

theorem map_place_mismatches_sublist (classes : ClassMap) (hostKey : String)
    (settings : SettingsTree) :
    ((classes.mismatches hostKey settings).map Mismatch.place).Sublist classes.places := by
  rw [mismatches, places, bound, List.map_flatMap]
  induction classes with
  | nil => exact .slnil
  | cons e rest ih =>
      rcases e with ⟨key, c⟩
      rw [List.flatMap_cons]
      by_cases hkey : key = hostKey
      · rw [List.filter_cons_of_neg (by simp [hkey])]
        exact ih.trans (List.sublist_append_right _ _)
      · rw [List.filter_cons_of_pos (by simp [hkey]), List.flatMap_cons]
        refine List.Sublist.append ?_ ih
        dsimp only
        cases settings.section? key with
        | none => exact List.Sublist.cons_cons _ (List.nil_sublist _)
        | some entries => exact c.map_place_mismatches_sublist key entries

/-- The position of the class of a place, and that of the property in the class. -/
def position (classes : ClassMap) (place : String × Option String) : Nat × Option Nat :=
  (classes.keys.idxOf place.1, place.2.map fun property =>
    (((classes.get? place.1).map fun c => Json.keys c.properties).getD []).idxOf property)

/-- One place stands in front of another one: its class does, or it is in the same class and it is
the class itself or its property stands in front. -/
def Precedes (classes : ClassMap) (first second : String × Option String) : Prop :=
  Prod.Lex (· < ·) (· < ·) (classes.position first) (classes.position second)

theorem not_precedes_self (place : String × Option String) : ¬classes.Precedes place place := by
  intro h
  rcases place with ⟨key, property⟩
  rcases Prod.lex_def.1 h with hclass | ⟨-, hproperty⟩
  · exact Nat.lt_irrefl _ hclass
  · cases property with
    | none => cases hproperty
    | some property => exact Nat.lt_irrefl _ hproperty

theorem pairwise_idxOf_of_nodup {l : List String} (distinct : l.Nodup) :
    l.Pairwise fun a b => l.idxOf a < l.idxOf b := by
  refine List.pairwise_iff_getElem.2 fun i j hi hj hij => ?_
  rwa [distinct.idxOf_getElem i hi, distinct.idxOf_getElem j hj]

theorem position_property (unique : classes.UniqueKeys) {c : ConfigurationClass}
    (h : (key, c) ∈ classes) (property : String) :
    classes.position (key, some property) =
      (classes.keys.idxOf key, some ((Json.keys c.properties).idxOf property)) := by
  have hget : classes.get? key = some c := (Entries.lookup_eq_some_iff_mem unique.distinct).2 h
  rw [position, hget]
  rfl

theorem pairwise_precedes_places (unique : classes.UniqueKeys) :
    classes.places.Pairwise classes.Precedes := by
  rw [places, List.pairwise_flatMap]
  constructor
  · rintro ⟨key, c⟩ hclass
    refine List.pairwise_cons.2 ⟨?_, ?_⟩
    · intro place hplace
      obtain ⟨p, -, rfl⟩ := List.mem_map.1 hplace
      exact Prod.Lex.right _ (by simp)
    · have hproperties := pairwise_idxOf_of_nodup (unique.properties key c hclass)
      rw [Json.keys, List.pairwise_map] at hproperties
      refine List.pairwise_map.2 (hproperties.imp fun {p q} h => ?_)
      rw [Precedes, position_property unique hclass, position_property unique hclass]
      exact Prod.Lex.right _ (by simpa [Json.keys] using h)
  · have hclasses := pairwise_idxOf_of_nodup unique.distinct
    rw [keys, List.pairwise_map] at hclasses
    refine hclasses.imp ?_
    rintro ⟨key, c⟩ ⟨key', c'⟩ h first hfirst second hsecond
    refine Prod.Lex.left _ _ ?_
    rw [ConfigurationClass.fst_of_mem_places hfirst, ConfigurationClass.fst_of_mem_places hsecond]
    exact h

theorem pairwise_precedes_mismatches (unique : classes.UniqueKeys) :
    (classes.mismatches hostKey settings).Pairwise fun m m' =>
      classes.Precedes m.place m'.place := by
  rw [← List.pairwise_map (R := classes.Precedes)]
  exact (pairwise_precedes_places unique).sublist (classes.map_place_mismatches_sublist _ _)

theorem nodup_map_place_mismatches (unique : classes.UniqueKeys) :
    ((classes.mismatches hostKey settings).map Mismatch.place).Nodup := by
  refine List.pairwise_map.2 ((pairwise_precedes_mismatches unique).imp fun {m m'} h heq => ?_)
  rw [heq] at h
  exact not_precedes_self _ h

/-- The mismatches are found from the sections of the classes. -/
theorem mismatches_congr {others : SettingsTree}
    (h : ∀ key ∈ classes.keys, key ≠ hostKey → settings.section? key = others.section? key) :
    classes.mismatches hostKey settings = classes.mismatches hostKey others := by
  refine List.flatMap_congr ?_
  rintro ⟨key, c⟩ he
  obtain ⟨hclass, hkey⟩ := List.mem_filter.1 he
  dsimp only
  rw [h key (List.mem_map_of_mem hclass) (bne_iff_ne.1 hkey)]

/-- The mismatches between a class map and a settings tree are listed with no two at one place, in
the order of their places, and nothing of the tree counts but the sections of the classes. -/
theorem mismatches_exactly_once (classes : ClassMap) (hostKey : String) (settings : SettingsTree)
    (unique : classes.UniqueKeys) :
    (∀ m, m ∈ classes.mismatches hostKey settings ↔ classes.IsMismatch hostKey settings m) ∧
    ((classes.mismatches hostKey settings).map Mismatch.place).Nodup ∧
    ((classes.mismatches hostKey settings).Pairwise fun m m' =>
      classes.Precedes m.place m'.place) ∧
    ∀ others : SettingsTree,
      (∀ key ∈ classes.keys, key ≠ hostKey → settings.section? key = others.section? key) →
      classes.mismatches hostKey settings = classes.mismatches hostKey others :=
  ⟨fun _ => mem_mismatches_iff_isMismatch, nodup_map_place_mismatches unique,
    pairwise_precedes_mismatches unique, fun _ => mismatches_congr⟩

/-! ### Classes with a mismatch of each kind -/

def serviceClasses : ClassMap :=
  ofTypes "Configuration" [⟨"HostConfiguration", "App", []⟩,
    (TypeSymbol.withProperty ⟨"CacheConfiguration", "App", []⟩ "Size" .int32).withProperty
      "Name" .string,
    ⟨"QueueConfiguration", "App", []⟩,
    (TypeSymbol.withProperty ⟨"DbConfiguration", "App", []⟩ "Port" (.nullable .int32)).withProperty
      "Name" .string]

/-- The cache lacks its size and has a number for a name, the queue is no object, and the database
has a text for a port. -/
def serviceSettings : SettingsTree :=
  [("Db", .tree [("Port", .string "x"), ("Name", .null)]), ("Queue", .array []),
    ("Cache", .tree [("Name", .number (.integer 5))])]

theorem mismatches_exactly_once_services :
    serviceClasses.UniqueKeys ∧
      serviceClasses.IsMismatch "Host" serviceSettings ⟨"Cache", some "Size", .missingField⟩ ∧
      serviceClasses.IsMismatch "Host" serviceSettings
        ⟨"Cache", some "Name", .typeMismatch "string" .number⟩ ∧
      serviceClasses.IsMismatch "Host" serviceSettings ⟨"Queue", none, .sectionNotFound⟩ ∧
      serviceClasses.IsMismatch "Host" serviceSettings
        ⟨"Db", some "Port", .typeMismatch "int?" .string⟩ ∧
      [("Cache", some "Size"), ("Cache", some "Name"), ("Queue", none),
        ("Db", some "Port")].Pairwise serviceClasses.Precedes ∧
      serviceClasses.mismatches "Host" serviceSettings =
        serviceClasses.mismatches "Host" (serviceSettings ++ [("Other", .tree [])]) := by
  have unique : serviceClasses.UniqueKeys := uniqueKeys_ofTypes _ _
  obtain ⟨hmem, -, hordered, hsections⟩ :=
    mismatches_exactly_once serviceClasses "Host" serviceSettings unique
  have hplaces : (serviceClasses.mismatches "Host" serviceSettings).map Mismatch.place =
      [("Cache", some "Size"), ("Cache", some "Name"), ("Queue", none), ("Db", some "Port")] := by
    decide +kernel
  refine ⟨unique, (hmem _).1 (by decide +kernel), (hmem _).1 (by decide +kernel),
    (hmem _).1 (by decide +kernel), (hmem _).1 (by decide +kernel), ?_, hsections _ ?_⟩
  · rw [← hplaces, List.pairwise_map]
    exact hordered
  · have hkeys : serviceClasses.keys = ["Host", "Cache", "Queue", "Db"] := by
      decide +kernel
    rw [hkeys]
    intro key hkey _
    simp only [List.mem_cons, List.not_mem_nil, or_false] at hkey
    rcases hkey with rfl | rfl | rfl | rfl <;> rfl

end ClassMap

end SettingsBinding
