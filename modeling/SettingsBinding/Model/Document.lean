import SettingsBinding.Json.Printer
import SettingsBinding.Model.Symbol

/-!
Model documents: the JSON form of a program. A member is an object tagged by its kind, and a type
reference leaves out its arguments where it has none.
-/

namespace SettingsBinding

namespace TypeKind

def names : List (String × TypeKind) :=
  [("named", .named), ("array", .array), ("pointer", .pointer), ("type_parameter", .typeParameter),
    ("dynamic", .dynamic)]

def name : TypeKind → String
  | named => "named"
  | array => "array"
  | pointer => "pointer"
  | typeParameter => "type_parameter"
  | dynamic => "dynamic"

theorem lookup_name (kind : TypeKind) : names.lookup kind.name = some kind := by
  cases kind <;> decide

end TypeKind

namespace TypeRef

mutual

def toJson : TypeRef → Json
  | ⟨name, fullName, kind, isValueType, arguments⟩ =>
    .object ([("name", .string name), ("full_name", .string fullName),
      ("kind", .string kind.name), ("is_value_type", .bool isValueType)] ++
      match arguments with
      | [] => []
      | first :: rest => [("type_arguments", .array (toJson first :: allToJson rest))])

def allToJson : List TypeRef → List Json
  | [] => []
  | first :: rest => toJson first :: allToJson rest

end

def optionToJson : Option TypeRef → Json
  | none => .null
  | some type => type.toJson

end TypeRef

def Member.toJson : Member → Json
  | getter property returnType =>
    .object [("kind", .string "property_getter"), ("property", .string property),
      ("return_type", TypeRef.optionToJson returnType)]
  | setter property =>
    .object [("kind", .string "property_setter"), ("property", .string property)]
  | method name returnType =>
    .object [("kind", .string "method"), ("name", .string name),
      ("return_type", TypeRef.optionToJson returnType)]
  | field name fieldType =>
    .object [("kind", .string "field"), ("name", .string name), ("field_type", fieldType.toJson)]

def TypeSymbol.toJson (symbol : TypeSymbol) : Json :=
  .object [("name", .string symbol.name), ("namespace", .string symbol.nameSpace),
    ("members", .array (symbol.members.map Member.toJson))]

def SyntaxTree.toJson (tree : SyntaxTree) : Json :=
  .object [("path", .string tree.path), ("types", .array (tree.types.map TypeSymbol.toJson))]

def ProgramModel.toJson (model : ProgramModel) : Json :=
  .object [("syntax_trees", .array (model.syntaxTrees.map SyntaxTree.toJson))]

def ProgramModel.text (model : ProgramModel) : String := model.toJson.compact

end SettingsBinding
