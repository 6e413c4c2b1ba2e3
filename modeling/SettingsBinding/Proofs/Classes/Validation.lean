import SettingsBinding.Proofs.Classes.Extraction
import SettingsBinding.Proofs.Merge.Lookup
import SettingsBinding.Validation

/-!
When a class fits its section. What a type admits, and when a symbol is satisfied, is said of the
symbols themselves; the mismatches of the classes that are found vanish exactly then.
-/

namespace SettingsBinding

namespace TypeRef

/-- The wrapper of optional values around a type of the given name. -/
def IsNullableOf (type : TypeRef) (inner : String) : Prop :=
  type.isNullable ∧ type.typeArguments.head?.map (·.name) = some inner

/-- Whether a property of the type fits what a section holds for it, if anything. -/
def Admits (type : TypeRef) : Option Setting → Prop
  | none => type.isValueType = false ∨ type.isNullable
  | some (.bool _) => type.name = "Boolean" ∨ type.IsNullableOf "Boolean"
  | some (.number _) => type.name = "Int32" ∨ type.IsNullableOf "Int32"
  | some (.string _) => type.name = "String"
  | some .null | some (.array _) | some (.tree _) => True

end TypeRef

namespace TypeSymbol

/-- The tree holds a section under the key, and every property of the symbol fits what stands
there. -/
def SatisfiedBy (symbol : TypeSymbol) (settings : SettingsTree) (key : String) : Prop :=
  ∃ entries, settings.get? key = some (.tree entries) ∧
    ∀ property type, symbol.propertyType? property = some type →
      type.Admits (SettingsTree.get? entries property)

end TypeSymbol

namespace PropertyType

theorem isNullableOf_ofTypeRef_iff {type : TypeRef} {inner : String} :
    (ofTypeRef type).isNullableOf inner ↔ type.IsNullableOf inner := by
  simp [isNullableOf, ofTypeRef, TypeRef.IsNullableOf]

theorem isOptional_ofTypeRef_iff {type : TypeRef} :
    (ofTypeRef type).isOptional ↔ type.Admits none := by
  simp [isOptional, ofTypeRef, TypeRef.Admits]

theorem accepts_ofTypeRef_iff {type : TypeRef} {value : Setting} :
    (ofTypeRef type).accepts value.kind ↔ type.Admits (some value) := by
  have hname : (ofTypeRef type).name = type.name := rfl
  cases value <;>
    simp [Setting.kind, accepts, isNullableOf_ofTypeRef_iff, hname, TypeRef.Admits]

theorem mismatch?_ofTypeRef_eq_none_iff {type : TypeRef} {value : Option Setting} :
    (ofTypeRef type).mismatch? value = none ↔ type.Admits value := by
  cases value with
  | none =>
      rw [← isOptional_ofTypeRef_iff, mismatch?]
      split <;> simp_all
  | some s =>
      rw [← accepts_ofTypeRef_iff, mismatch?]
      split <;> simp_all

end PropertyType

namespace ConfigurationClass

theorem mismatches_eq_nil_iff {c : ConfigurationClass} {key : String} {entries : SettingsTree} :
    c.mismatches key entries = [] ↔ ∀ property type, (property, type) ∈ c.properties →
      type.mismatch? (SettingsTree.get? entries property) = none := by
  simp [mismatches, List.filterMap_eq_nil_iff]

theorem mismatches_ofSymbol_eq_nil_iff {symbol : TypeSymbol} {key : String}
    {entries : SettingsTree} :
    (ofSymbol symbol).mismatches key entries = [] ↔
      ∀ property type, symbol.propertyType? property = some type →
        type.Admits (SettingsTree.get? entries property) := by
  rw [mismatches_eq_nil_iff]
  constructor
  · intro h property type htype
    apply PropertyType.mismatch?_ofTypeRef_eq_none_iff.1
    exact h property _ (mem_properties_ofSymbol_iff.2 ⟨type, htype, rfl⟩)
  · intro h property type hmem
    obtain ⟨ref, href, rfl⟩ := mem_properties_ofSymbol_iff.1 hmem
    exact PropertyType.mismatch?_ofTypeRef_eq_none_iff.2 (h property ref href)

end ConfigurationClass

namespace ClassMap

variable {hostKey marker : String} {settings : SettingsTree}

/-- No class has a mismatch if each one but the host has a section, and none in it. -/
theorem mismatches_eq_nil_iff {classes : ClassMap} :
    classes.mismatches hostKey settings = [] ↔
      ∀ key c, (key, c) ∈ classes → key ≠ hostKey →
        ∃ entries, settings.get? key = some (.tree entries) ∧ c.mismatches key entries = [] := by
  simp only [mismatches, bound, List.flatMap_eq_nil_iff, List.mem_filter, bne_iff_ne, and_imp,
    Prod.forall]
  refine forall_congr' fun key => forall_congr' fun c => imp_congr_right fun _ =>
    imp_congr_right fun _ => ?_
  simp only [← SettingsTree.section?_eq_some_iff]
  cases settings.section? key with
  | none => simp
  | some entries => simp

theorem mismatches_ofTypes_eq_nil_iff {types : List TypeSymbol} :
    (ofTypes marker types).mismatches hostKey settings = [] ↔
      ∀ key symbol, TypeSymbol.classOf? types marker key = some symbol → key ≠ hostKey →
        symbol.SatisfiedBy settings key := by
  rw [mismatches_eq_nil_iff]
  constructor
  · intro h key symbol hsymbol hkey
    obtain ⟨entries, hentries, hnone⟩ := h key _ (mem_ofTypes_iff.2 ⟨symbol, hsymbol, rfl⟩) hkey
    exact ⟨entries, hentries, ConfigurationClass.mismatches_ofSymbol_eq_nil_iff.1 hnone⟩
  · intro h key c hmem hkey
    obtain ⟨symbol, hsymbol, rfl⟩ := mem_ofTypes_iff.1 hmem
    obtain ⟨entries, hentries, hfits⟩ := h key symbol hsymbol hkey
    exact ⟨entries, hentries, ConfigurationClass.mismatches_ofSymbol_eq_nil_iff.2 hfits⟩

end ClassMap

end SettingsBinding
