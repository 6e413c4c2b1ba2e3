import SettingsBinding.Proofs.Classes.Validation

/-!
Which mismatches are found. A class without a section is one, and so is a property that has to be
set and is not; both are told from the symbols of the program and the settings tree.
-/

namespace SettingsBinding

namespace PropertyType

theorem mismatch?_ofTypeRef_eq_missingField_iff {type : TypeRef} {value : Option Setting} :
    (ofTypeRef type).mismatch? value = some .missingField ↔
      value = none ∧ type.isValueType ∧ type.isNullable = false := by
  cases value with
  | none => simp [mismatch?, isOptional, ofTypeRef]
  | some value =>
      rw [mismatch?]
      split
      · simp
      · simp

end PropertyType

namespace ConfigurationClass

theorem mem_mismatches_iff {c : ConfigurationClass} {key : String} {entries : SettingsTree}
    {m : Mismatch} :
    m ∈ c.mismatches key entries ↔ ∃ property type kind, (property, type) ∈ c.properties ∧
      type.mismatch? (entries.get? property) = some kind ∧ m = ⟨key, some property, kind⟩ := by
  rw [mismatches, List.mem_filterMap]
  constructor
  · rintro ⟨⟨property, type⟩, hmem, hm⟩
    obtain ⟨kind, hkind, rfl⟩ := Option.map_eq_some_iff.1 hm
    exact ⟨property, type, kind, hmem, hkind, rfl⟩
  · rintro ⟨property, type, kind, hmem, hkind, rfl⟩
    exact ⟨(property, type), hmem, by simp [hkind]⟩

end ConfigurationClass

namespace ClassMap

variable {hostKey marker key : String} {settings : SettingsTree} {types : List TypeSymbol}

theorem mem_mismatches_iff {classes : ClassMap} {m : Mismatch} :
    m ∈ classes.mismatches hostKey settings ↔ ∃ key c, (key, c) ∈ classes ∧ key ≠ hostKey ∧
      (settings.section? key = none ∧ m = ⟨key, none, .sectionNotFound⟩ ∨
        ∃ entries, settings.section? key = some entries ∧ m ∈ c.mismatches key entries) := by
  simp only [mismatches, bound, List.mem_flatMap, List.mem_filter, bne_iff_ne, Prod.exists,
    and_assoc]
  refine exists₂_congr fun key c => and_congr_right fun _ => and_congr_right fun _ => ?_
  cases settings.section? key with
  | none => simp
  | some entries => simp

/-- A section is reported as not found for the classes other than the host that have none. -/
theorem sectionNotFound_mem_mismatches_iff :
    ⟨key, none, .sectionNotFound⟩ ∈ (ofTypes marker types).mismatches hostKey settings ↔
      (∃ symbol, TypeSymbol.classOf? types marker key = some symbol) ∧ key ≠ hostKey ∧
        settings.section? key = none := by
  rw [mem_mismatches_iff]
  constructor
  · rintro ⟨other, c, hc, hkey, ⟨hnone, heq⟩ | ⟨entries, -, hmem⟩⟩
    · cases heq
      obtain ⟨symbol, hsymbol, -⟩ := mem_ofTypes_iff.1 hc
      exact ⟨⟨symbol, hsymbol⟩, hkey, hnone⟩
    · obtain ⟨property, type, kind, -, -, heq⟩ := ConfigurationClass.mem_mismatches_iff.1 hmem
      cases heq
  · rintro ⟨⟨symbol, hsymbol⟩, hkey, hnone⟩
    exact ⟨key, _, mem_ofTypes_iff.2 ⟨symbol, hsymbol, rfl⟩, hkey, .inl ⟨hnone, rfl⟩⟩

/-- A property is reported as missing for the classes other than the host that have a section
without it, if its type has no value for nothing. -/
theorem missingField_mem_mismatches_iff {property : String} :
    ⟨key, some property, .missingField⟩ ∈ (ofTypes marker types).mismatches hostKey settings ↔
      ∃ symbol, TypeSymbol.classOf? types marker key = some symbol ∧ key ≠ hostKey ∧
        (∃ type, symbol.propertyType? property = some type ∧ type.isValueType ∧
          type.isNullable = false) ∧
        ∃ entries : SettingsTree, settings.get? key = some (.tree entries) ∧
          property ∉ entries.keys := by
  rw [mem_mismatches_iff]
  constructor
  · rintro ⟨other, c, hc, hkey, ⟨-, heq⟩ | ⟨entries, hentries, hmem⟩⟩
    · cases heq
    · obtain ⟨name, type, kind, htype, hkind, heq⟩ := ConfigurationClass.mem_mismatches_iff.1 hmem
      cases heq
      obtain ⟨symbol, hsymbol, rfl⟩ := mem_ofTypes_iff.1 hc
      obtain ⟨ref, href, rfl⟩ := ConfigurationClass.mem_properties_ofSymbol_iff.1 htype
      obtain ⟨hnone, hrequired⟩ := PropertyType.mismatch?_ofTypeRef_eq_missingField_iff.1 hkind
      exact ⟨symbol, hsymbol, hkey, ⟨ref, href, hrequired⟩, entries,
        SettingsTree.section?_eq_some_iff.1 hentries, SettingsTree.get?_eq_none_iff.1 hnone⟩
  · rintro ⟨symbol, hsymbol, hkey, ⟨ref, href, hrequired⟩, entries, hentries, hlacking⟩
    refine ⟨key, _, mem_ofTypes_iff.2 ⟨symbol, hsymbol, rfl⟩, hkey, .inr ⟨entries, ?_, ?_⟩⟩
    · exact SettingsTree.section?_eq_some_iff.2 hentries
    · refine ConfigurationClass.mem_mismatches_iff.2
        ⟨property, PropertyType.ofTypeRef ref, .missingField, ?_, ?_, rfl⟩
      · exact ConfigurationClass.mem_properties_ofSymbol_iff.2 ⟨ref, href, rfl⟩
      · refine PropertyType.mismatch?_ofTypeRef_eq_missingField_iff.2 ⟨?_, hrequired⟩
        exact SettingsTree.get?_eq_none_iff.2 hlacking

end ClassMap

end SettingsBinding
