import SettingsBinding.Model.Document
import SettingsBinding.Schema.Basic

/-!
The schema of model documents.
-/

namespace SettingsBinding.Schema

def optionalType : Json :=
  .object [("anyOf", .array [reference "TypeRef", .object [type "null"]])]

def text : Json := .object [type "string"]

/-- A form of a member: its tag, what has to be there, and its fields. The tag stands among the
fields in the order of their names. -/
def memberForm (about : Option String) (tag : String) (names : List String)
    (before after : List Member) : Json :=
  .object ((about.map description).toList ++
    [type "object", required names,
      properties (before ++ [("kind", .object (oneOfTexts [tag]))] ++ after)])

def memberSymbol : Json :=
  .object [description "A member of a [`TypeSymbol`].",
    ("oneOf", .array [
      memberForm (some "The `get` half of a property; `None` return means `void`")
        "property_getter" ["kind", "property"] []
        [("property", text), ("return_type", optionalType)],
      memberForm (some "The `set` half of a property") "property_setter"
        ["kind", "property"] [] [("property", text)],
      memberForm none "method" ["kind", "name"] [] [("name", text), ("return_type", optionalType)],
      memberForm none "field" ["field_type", "kind", "name"]
        [("field_type", reference "TypeRef")] [("name", text)]])]

def syntaxTree : Json :=
  .object [description "The types referenced from one source file.", type "object",
    properties [
      ("path", .object [description "Source path as reported by the host",
        defaultValue (.string ""), type "string"]),
      ("types", .object (defaultValue (.array []) :: arrayOf "TypeSymbol"))]]

def typeKind : Json :=
  .object [description "What sort of type a [`TypeRef`] denotes.",
    ("oneOf", .array [
      .object (oneOfTexts
        [TypeKind.array.name, TypeKind.pointer.name, TypeKind.typeParameter.name,
          TypeKind.dynamic.name]),
      .object (description "Class, struct, enum, interface or delegate with a name" ::
        oneOfTexts [TypeKind.named.name])])]

def typeRef : Json :=
  .object [description "A reference to a type as written in a declaration.", type "object",
    required ["full_name", "name"],
    properties [
      ("full_name", .object [
        description
          "Fully qualified rendering, e.g. `int` or `System.Guid` or `bool?`",
        type "string"]),
      ("is_value_type", .object [defaultValue (.bool false), type "boolean"]),
      ("kind", .object [defaultValue (.string TypeKind.named.name),
        ("allOf", .array [reference "TypeKind"])]),
      ("name", .object [
        description "Unqualified metadata name, e.g. `Int32` or `Nullable`",
        type "string"]),
      ("type_arguments", .object (arrayOf "TypeRef"))]]

def typeSymbol : Json :=
  .object [description "A named type referenced somewhere in the program.", type "object",
    required ["name"],
    properties [
      ("members", .object (defaultValue (.array []) :: arrayOf "MemberSymbol")),
      ("name", .object [description "Simple name, e.g. `RedisConfiguration`", type "string"]),
      ("namespace", .object [description "Containing namespace, empty for the global namespace",
        defaultValue (.string ""), type "string"])]]

def model : Json :=
  .object (head "ProgramModel" "A semantic model exported by the host as a JSON document." ++
    [properties [
      ("syntax_trees", .object (defaultValue (.array []) :: arrayOf "SyntaxTreeModel"))],
    ("definitions", .object [("MemberSymbol", memberSymbol), ("SyntaxTreeModel", syntaxTree),
      ("TypeKind", typeKind), ("TypeRef", typeRef), ("TypeSymbol", typeSymbol)])])

end SettingsBinding.Schema
