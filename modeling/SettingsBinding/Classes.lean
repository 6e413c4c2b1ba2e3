import SettingsBinding.Log
import SettingsBinding.Model.Symbol
import SettingsBinding.Text.Blank

/-!
Configuration classes: the types of a program whose names end in a marker. What stands in front of
the marker is the key of the section that the class binds to, and the getters with a named type
that is not void are its properties. Where a name is met twice, the first one counts.
-/

namespace SettingsBinding

structure PropertyType where
  isValueType : Bool
  isGeneric : Bool
  isNullable : Bool
  fullName : String
  name : String
  /-- The name of the first type argument of a generic type. -/
  argumentName : Option String
  deriving DecidableEq, Repr

namespace PropertyType

def ofTypeRef (type : TypeRef) : PropertyType where
  isValueType := type.isValueType
  isGeneric := type.isGeneric
  isNullable := type.isNullable
  fullName := type.fullName
  name := type.name
  argumentName := type.typeArguments.head?.map (·.name)

/-- Whether the settings may lack a property of this type: it has a value for nothing. -/
def isOptional (type : PropertyType) : Bool := !type.isValueType || type.isNullable

/-- Whether the type holds optional values of the type called `inner`. -/
def isNullableOf (type : PropertyType) (inner : String) : Bool :=
  type.isNullable && type.argumentName == some inner

end PropertyType

structure ConfigurationClass where
  /-- The unqualified name, with the marker. -/
  className : String
  nameSpace : String
  properties : List (String × PropertyType)
  deriving DecidableEq, Repr

/-- Configuration classes under the keys of their sections, in the order in which they were met. -/
abbrev ClassMap := List (String × ConfigurationClass)

/-- The entries without those whose key stands further ahead. -/
def firstEntries {α : Type} : List (String × α) → List (String × α)
  | [] => []
  | (key, value) :: rest => (key, value) :: (firstEntries rest).filter fun e => e.1 != key

def propertyType? (returnType : Option TypeRef) : Option PropertyType :=
  (returnType.filter fun type => type.isNamed && !type.isVoid).map PropertyType.ofTypeRef

namespace ConfigurationClass

def ofSymbol (symbol : TypeSymbol) : ConfigurationClass where
  className := symbol.name
  nameSpace := symbol.nameSpace
  properties := firstEntries <| symbol.getters.filterMap fun (property, returnType) =>
    (propertyType? returnType).map (property, ·)

def qualifiedName (c : ConfigurationClass) : String :=
  TypeSymbol.qualifiedName ⟨c.className, c.nameSpace, []⟩

end ConfigurationClass

def dropEnding? (ending cs : List Char) : Option (List Char) :=
  if ending.isSuffixOf cs then some (cs.take (cs.length - ending.length)) else none

/-- The key of the section that a type binds to: what stands in front of the marker in its name. A
key is not blank. -/
def sectionKey? (marker typeName : String) : Option String :=
  (dropEnding? marker.toList typeName.toList).bind fun key =>
    if key.all Text.isWhiteSpace then none else some (String.ofList key)

namespace ClassMap

/-- The configuration classes among the types of a program. -/
def ofTypes (marker : String) (types : List TypeSymbol) : ClassMap :=
  firstEntries <| types.filterMap fun symbol =>
    (sectionKey? marker symbol.name).map (·, ConfigurationClass.ofSymbol symbol)

def get? (classes : ClassMap) (key : String) : Option ConfigurationClass := classes.lookup key

def keys (classes : ClassMap) : List String := classes.map Prod.fst

def events (classes : ClassMap) : List LogEvent :=
  (classes.map fun (key, c) =>
    debug (s!"Found configuration class {c.qualifiedName} for section {key} " ++
      s!"({c.properties.length} properties)")) ++
  [info s!"Discovered {classes.length} configuration class(es)"]

end ClassMap

end SettingsBinding
