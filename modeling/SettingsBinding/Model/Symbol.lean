/-!
Symbols of a compiled program: references to types, the members of a type, and the types that its
source files name.
-/

namespace SettingsBinding

inductive TypeKind where
  | named
  | array
  | pointer
  | typeParameter
  | dynamic
  deriving DecidableEq, Repr, Inhabited

structure TypeRef where
  /-- The unqualified name, such as `Int32`. -/
  name : String
  /-- The full form, such as `System.Guid` or `bool?`. -/
  fullName : String
  kind : TypeKind
  isValueType : Bool
  typeArguments : List TypeRef
  deriving Repr, Inhabited

/-- A member of a type. A getter without a return type is one that returns nothing. -/
inductive Member where
  | getter (property : String) (returnType : Option TypeRef)
  | setter (property : String)
  | method (name : String) (returnType : Option TypeRef)
  | field (name : String) (fieldType : TypeRef)
  deriving Repr

structure TypeSymbol where
  name : String
  /-- The containing namespace, empty for the global one. -/
  nameSpace : String
  members : List Member
  deriving Repr

/-- The types that one source file refers to. -/
structure SyntaxTree where
  path : String
  types : List TypeSymbol
  deriving Repr

/-- The types of a program, as its compiler exports them. -/
structure ProgramModel where
  syntaxTrees : List SyntaxTree
  deriving Repr

namespace TypeRef

def nullableName : String := "Nullable"

def reference (name fullName : String) : TypeRef := ⟨name, fullName, .named, false, []⟩

def value (name fullName : String) : TypeRef := ⟨name, fullName, .named, true, []⟩

def boolean : TypeRef := value "Boolean" "bool"

def int32 : TypeRef := value "Int32" "int"

def string : TypeRef := reference "String" "string"

def nullable (inner : TypeRef) : TypeRef :=
  ⟨nullableName, inner.fullName ++ "?", .named, true, [inner]⟩

def generic (type : TypeRef) (arguments : List TypeRef) : TypeRef :=
  { type with typeArguments := arguments }

def isNamed (type : TypeRef) : Bool := type.kind == .named

def isGeneric (type : TypeRef) : Bool := !type.typeArguments.isEmpty

def isVoid (type : TypeRef) : Bool := type.name == "Void"

def isNullable (type : TypeRef) : Bool := type.isNamed && type.name == nullableName

end TypeRef

namespace TypeSymbol

def withProperty (symbol : TypeSymbol) (property : String) (type : TypeRef) : TypeSymbol :=
  { symbol with
    members := symbol.members ++ [.getter property (some type), .setter property] }

def qualifiedName (symbol : TypeSymbol) : String :=
  if symbol.nameSpace = "" then symbol.name else symbol.nameSpace ++ "." ++ symbol.name

/-- The properties that can be read, with the types of their getters. -/
def getters (symbol : TypeSymbol) : List (String × Option TypeRef) :=
  symbol.members.filterMap fun
    | .getter property returnType => some (property, returnType)
    | _ => none

end TypeSymbol

namespace ProgramModel

def ofTypes (types : List TypeSymbol) : ProgramModel := ⟨[⟨"", types⟩]⟩

/-- All types, in the order of the files. A type may stand in several of them. -/
def types (model : ProgramModel) : List TypeSymbol := model.syntaxTrees.flatMap (·.types)

@[simp] theorem types_ofTypes (types : List TypeSymbol) : (ofTypes types).types = types := by
  simp [ofTypes, ProgramModel.types]

end ProgramModel

end SettingsBinding
