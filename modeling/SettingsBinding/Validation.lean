import SettingsBinding.Classes
import SettingsBinding.Settings.Tree

/-!
Checking configuration classes against a settings tree. Every class but the host has to have a
section under its key; a property of it that has no value for nothing has to be set; and a
boolean, a number or a string has to fit the type of its property. All mismatches are listed, in
the order of the classes and of their properties.
-/

namespace SettingsBinding

inductive MismatchKind where
  | sectionNotFound
  | missingField
  | typeMismatch (expected : String) (found : JsonKind)
  deriving DecidableEq, Repr

structure Mismatch where
  classKey : String
  property : Option String
  kind : MismatchKind
  deriving DecidableEq, Repr

namespace Mismatch

def message (m : Mismatch) : String :=
  let property := m.property.getD ""
  let place := s!"Class {m.classKey}, Property: {property}. "
  match m.kind with
  | .sectionNotFound => s!"Configuration for class {m.classKey} not found in json file."
  | .missingField => place ++ "The field must be present in the configuration file."
  | .typeMismatch expected _ => place ++ s!"The field must be of type {expected}."

end Mismatch

namespace PropertyType

/-- Whether a value of a kind can be bound to a property. Nothing, arrays and objects can be bound
to any. -/
def accepts (type : PropertyType) : JsonKind → Bool
  | .boolean => type.name == "Boolean" || type.isNullableOf "Boolean"
  | .number => type.name == "Int32" || type.isNullableOf "Int32"
  | .string => type.name == "String"
  | .null | .array | .object => true

def mismatch? (type : PropertyType) : Option Setting → Option MismatchKind
  | none => if type.isOptional then none else some .missingField
  | some value =>
    if type.accepts value.kind then none
    else some (.typeMismatch type.fullName value.kind)

end PropertyType

namespace ConfigurationClass

def mismatches (c : ConfigurationClass) (key : String) (settings : SettingsTree) :
    List Mismatch :=
  c.properties.filterMap fun (property, type) =>
    (type.mismatch? (settings.get? property)).map fun kind => ⟨key, some property, kind⟩

end ConfigurationClass

namespace ClassMap

/-- The classes other than the host, which are bound to sections. -/
def bound (classes : ClassMap) (hostKey : String) : ClassMap :=
  classes.filter fun e => e.1 != hostKey

def mismatches (classes : ClassMap) (hostKey : String) (settings : SettingsTree) :
    List Mismatch :=
  (classes.bound hostKey).flatMap fun (key, c) =>
    match settings.section? key with
    | none => [⟨key, none, .sectionNotFound⟩]
    | some entries => c.mismatches key entries

end ClassMap

end SettingsBinding
