import Mathlib.Data.List.Basic
import SettingsBinding.Proofs.Entries
import SettingsBinding.Proofs.Text.Pieces

/-!
Configuration classes, read off the types of a program. The class of a key is the first type whose
name is the key with the marker behind it, and the type of a property is that of the first getter
which has a named type that is not void. The classes that are found agree with both readings.
-/

namespace SettingsBinding

namespace Entries

variable {α β : Type}

theorem lookup_firstEntries (entries : List (String × α)) (key : String) :
    (firstEntries entries).lookup key = entries.lookup key := by
  induction entries with
  | nil => rfl
  | cons e rest ih =>
      rcases e with ⟨k, value⟩
      by_cases h : key = k
      · subst h
        simp [firstEntries]
      · rw [firstEntries, lookup_cons_of_ne h, lookup_cons_of_ne h,
          lookup_filter_keys fun other => other != k]
        simp [h, ih]

theorem nodup_keys_firstEntries (entries : List (String × α)) :
    (Json.keys (firstEntries entries)).Nodup := by
  induction entries with
  | nil => exact List.nodup_nil
  | cons e rest ih =>
      refine List.nodup_cons.2 ⟨?_, ?_⟩
      · simp
      · exact ih.sublist (List.filter_sublist.map Prod.fst)

theorem lookup_filterMap (f : α → Option (String × β)) (l : List α) (key : String) :
    (l.filterMap f).lookup key =
      l.findSome? fun a => (f a).bind fun e => if key = e.1 then some e.2 else none := by
  induction l with
  | nil => rfl
  | cons a rest ih =>
      cases h : f a with
      | none => simp [h, ih]
      | some e =>
          rcases e with ⟨k, value⟩
          by_cases hk : key = k
          · subst hk
            simp [h]
          · simp [h, hk, lookup_cons_of_ne, ih]

end Entries

/-! ### The properties of a class -/

namespace TypeSymbol

/-- The type of the first getter of a property that has a named type other than void. -/
def propertyType? (symbol : TypeSymbol) (property : String) : Option TypeRef :=
  symbol.getters.findSome? fun (name, returnType) =>
    if name = property then
      returnType.filter fun type => type.kind = .named ∧ type.name ≠ "Void"
    else none

/-- The getters that have a named type other than void, with their types. -/
def usableGetters (symbol : TypeSymbol) : List (String × TypeRef) :=
  symbol.members.filterMap fun
    | .getter property (some type) =>
      if type.kind = .named ∧ type.name ≠ "Void" then some (property, type) else none
    | _ => none

theorem usableGetters_eq_filterMap (symbol : TypeSymbol) :
    symbol.usableGetters = symbol.getters.filterMap fun (property, returnType) =>
      (returnType.filter fun type => type.kind = .named ∧ type.name ≠ "Void").map
        (property, ·) := by
  rw [usableGetters, getters, List.filterMap_filterMap]
  refine List.filterMap_congr fun member _ => ?_
  cases member with
  | getter property returnType =>
      cases returnType with
      | none => rfl
      | some type =>
          dsimp only [Option.bind_some]
          rw [Option.filter_some]
          by_cases h : type.kind = .named ∧ type.name ≠ "Void"
          · rw [if_pos h, if_pos (decide_eq_true h), Option.map_some]
          · rw [if_neg h, if_neg (mt of_decide_eq_true h), Option.map_none]
  | setter property => rfl
  | method name returnType => rfl
  | field name fieldType => rfl

theorem lookup_usableGetters (symbol : TypeSymbol) (property : String) :
    symbol.usableGetters.lookup property = symbol.propertyType? property := by
  rw [usableGetters_eq_filterMap, Entries.lookup_filterMap, propertyType?]
  congr 1
  funext ⟨name, returnType⟩
  dsimp only
  by_cases h : name = property
  · subst h
    rw [if_pos rfl]
    cases returnType.filter _ <;> simp
  · rw [if_neg h]
    cases returnType.filter _ <;> simp [Ne.symm h]

end TypeSymbol

theorem propertyType?_eq_map_filter (returnType : Option TypeRef) :
    propertyType? returnType =
      (returnType.filter fun type => type.kind = .named ∧ type.name ≠ "Void").map
        PropertyType.ofTypeRef := by
  have husable : (fun type : TypeRef => type.isNamed && !type.isVoid) =
      fun type => decide (type.kind = .named ∧ type.name ≠ "Void") := by
    funext type
    rw [Bool.eq_iff_iff]
    simp [TypeRef.isNamed, TypeRef.isVoid]
  rw [propertyType?, husable]

namespace ConfigurationClass

theorem properties_ofSymbol (symbol : TypeSymbol) :
    (ofSymbol symbol).properties =
      firstEntries (symbol.usableGetters.map fun e => (e.1, PropertyType.ofTypeRef e.2)) := by
  refine congrArg firstEntries ?_
  rw [TypeSymbol.usableGetters_eq_filterMap, List.map_filterMap]
  refine List.filterMap_congr fun getter _ => ?_
  dsimp only
  rw [propertyType?_eq_map_filter, Option.map_map, Option.map_map]
  rfl

theorem lookup_properties_ofSymbol (symbol : TypeSymbol) (property : String) :
    (ofSymbol symbol).properties.lookup property =
      (symbol.propertyType? property).map PropertyType.ofTypeRef := by
  rw [properties_ofSymbol, Entries.lookup_firstEntries,
    Entries.lookup_map_values fun _ => PropertyType.ofTypeRef, TypeSymbol.lookup_usableGetters]

theorem mem_properties_ofSymbol_iff {symbol : TypeSymbol} {property : String}
    {type : PropertyType} :
    (property, type) ∈ (ofSymbol symbol).properties ↔
      ∃ ref, symbol.propertyType? property = some ref ∧ PropertyType.ofTypeRef ref = type := by
  rw [← Option.map_eq_some_iff, ← lookup_properties_ofSymbol]
  exact (Entries.lookup_eq_some_iff_mem (Entries.nodup_keys_firstEntries _)).symm

end ConfigurationClass

/-! ### The classes of a program -/

theorem sectionKey?_eq_some_iff {marker typeName key : String} :
    sectionKey? marker typeName = some key ↔
      Text.isBlank key = false ∧ typeName = key ++ marker := by
  rw [sectionKey?, Option.bind_eq_some_iff]
  constructor
  · rintro ⟨front, hfront, hkey⟩
    cases hblank : front.all Text.isWhiteSpace with
    | true => simp [hblank] at hkey
    | false =>
        rw [hblank] at hkey
        cases hkey
        refine ⟨by rw [Text.isBlank_ofList, hblank], String.toList_injective ?_⟩
        rw [dropEnding?_eq_some_iff.1 hfront, String.toList_append, String.toList_ofList]
  · rintro ⟨hblank, rfl⟩
    refine ⟨key.toList, dropEnding?_eq_some_iff.2 String.toList_append, ?_⟩
    rw [Text.isBlank] at hblank
    simp [hblank]

namespace TypeSymbol

/-- The first of the types that is named by a key and the marker behind it. No type is if the key is
blank. -/
def classOf? (types : List TypeSymbol) (marker key : String) : Option TypeSymbol :=
  if Text.isBlank key then none else types.find? fun symbol => symbol.name = key ++ marker

theorem classOf?_eq_some {types : List TypeSymbol} {marker key : String} {symbol : TypeSymbol}
    (h : classOf? types marker key = some symbol) :
    symbol ∈ types ∧ symbol.name = key ++ marker := by
  rw [classOf?] at h
  split at h
  · cases h
  · exact ⟨List.mem_of_find?_eq_some h, by simpa using List.find?_some h⟩

end TypeSymbol

namespace ClassMap

variable {marker : String} {types : List TypeSymbol} {key : String}

theorem get?_ofTypes (marker : String) (types : List TypeSymbol) (key : String) :
    (ofTypes marker types).get? key =
      (TypeSymbol.classOf? types marker key).map ConfigurationClass.ofSymbol := by
  have hstep (symbol : TypeSymbol) :
      (((sectionKey? marker symbol.name).map (·, ConfigurationClass.ofSymbol symbol)).bind
        fun e => if key = e.1 then some e.2 else none) =
      if Text.isBlank key = false ∧ symbol.name = key ++ marker then
        some (ConfigurationClass.ofSymbol symbol)
      else none := by
    simp only [← sectionKey?_eq_some_iff]
    cases sectionKey? marker symbol.name with
    | none => simp
    | some k => simp [eq_comm]
  rw [get?, ofTypes, Entries.lookup_firstEntries, Entries.lookup_filterMap, TypeSymbol.classOf?]
  simp only [hstep]
  cases hblank : Text.isBlank key with
  | true => simp
  | false => simp [← List.findSome?_guard, List.map_findSome?, Option.guard, Function.comp_def]

theorem mem_ofTypes_iff {c : ConfigurationClass} :
    (key, c) ∈ ofTypes marker types ↔
      ∃ symbol, TypeSymbol.classOf? types marker key = some symbol ∧
        ConfigurationClass.ofSymbol symbol = c := by
  rw [← Option.map_eq_some_iff, ← get?_ofTypes]
  exact (Entries.lookup_eq_some_iff_mem (Entries.nodup_keys_firstEntries _)).symm

end ClassMap

end SettingsBinding
