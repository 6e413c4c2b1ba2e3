import SettingsBinding.Model.Document
import SettingsBinding.Model.Problem

/-!
The members of a type from their JSON values. A record is written as an object, in which unknown
fields are skipped, or as an array of its fields in their order.
-/

namespace SettingsBinding.Model

def decodeText : Json → Except Problem String
  | .string s => .ok s
  | other => .error (.wrongType (.ofJson other) "a string")

def decodeBool : Json → Except Problem Bool
  | .bool b => .ok b
  | other => .error (.wrongType (.ofJson other) "a boolean")

/-- A kind of types: its name, or an object with its name as the only key, over nothing. -/
def decodeKind : Json → Except Problem TypeKind
  | .string s => named s
  | .object [(key, value)] => do
    let kind ← named key
    match value with
    | .null => pure kind
    | .object [] => pure kind
    | other => .error (.wrongType (.ofJson other) "unit")
  | .object _ => .error .notASingleEntry
  | other => .error (.wrongType (.ofJson other) "string or map")
where
  named (s : String) : Except Problem TypeKind :=
    match TypeKind.names.lookup s with
    | some kind => .ok kind
    | none => .error (.unknownName s (Json.keys TypeKind.names))

def setOnce {α : Type} (name : String) (old : Option α) (value : Except Problem α) :
    Except Problem (Option α) :=
  match old with
  | some _ => .error (.duplicateField name)
  | none => some <$> value

def requireField {α : Type} (name : String) : Option α → Except Problem α
  | some a => .ok a
  | none => .error (.missingField name)

/-- The fields of a type reference that were met so far. -/
structure TypeRefFields where
  name : Option String := none
  fullName : Option String := none
  kind : Option TypeKind := none
  isValueType : Option Bool := none
  typeArguments : Option (List TypeRef) := none

/-- The type reference of its fields; the last three have defaults. -/
def TypeRefFields.finish (fields : TypeRefFields) : Except Problem TypeRef := do
  let name ← requireField "name" fields.name
  let fullName ← requireField "full_name" fields.fullName
  pure ⟨name, fullName, fields.kind.getD .named, fields.isValueType.getD false,
    fields.typeArguments.getD []⟩

def typeRefElements : String := withElements "struct TypeRef" 5

mutual

def decodeTypeRef : Json → Except Problem TypeRef
  | .object members => decodeTypeRefFields {} members
  | .array [] => .error (.wrongLength 0 typeRefElements)
  | .array [name] => do
    let _ ← decodeText name
    .error (.wrongLength 1 typeRefElements)
  | .array [name, fullName] => do
    TypeRefFields.finish { name := ← decodeText name, fullName := ← decodeText fullName }
  | .array [name, fullName, kind] => do
    TypeRefFields.finish {
      name := ← decodeText name, fullName := ← decodeText fullName,
      kind := ← decodeKind kind }
  | .array [name, fullName, kind, isValueType] => do
    TypeRefFields.finish {
      name := ← decodeText name, fullName := ← decodeText fullName, kind := ← decodeKind kind,
      isValueType := ← decodeBool isValueType }
  | .array (name :: fullName :: kind :: isValueType :: typeArguments :: more) => do
    let type ← TypeRefFields.finish {
      name := ← decodeText name, fullName := ← decodeText fullName, kind := ← decodeKind kind,
      isValueType := ← decodeBool isValueType,
      typeArguments := ← decodeTypeArguments typeArguments }
    if more.isEmpty then pure type else .error (tooLong (5 + more.length) 5)
  | other => .error (.wrongType (.ofJson other) "struct TypeRef")

/-- A type reference from the fields met so far and the members that are left. -/
def decodeTypeRefFields (fields : TypeRefFields) : List (String × Json) → Except Problem TypeRef
  | [] => fields.finish
  | (key, value) :: rest => do
    match key with
    | "name" =>
      let name ← setOnce key fields.name (decodeText value)
      decodeTypeRefFields { fields with name } rest
    | "full_name" =>
      let fullName ← setOnce key fields.fullName (decodeText value)
      decodeTypeRefFields { fields with fullName } rest
    | "kind" =>
      let kind ← setOnce key fields.kind (decodeKind value)
      decodeTypeRefFields { fields with kind } rest
    | "is_value_type" =>
      let isValueType ← setOnce key fields.isValueType (decodeBool value)
      decodeTypeRefFields { fields with isValueType } rest
    | "type_arguments" =>
      let typeArguments ← setOnce key fields.typeArguments (decodeTypeArguments value)
      decodeTypeRefFields { fields with typeArguments } rest
    | _ => decodeTypeRefFields fields rest

def decodeTypeArguments : Json → Except Problem (List TypeRef)
  | .array items => decodeTypeRefs items
  | other => .error (.wrongType (.ofJson other) "a sequence")

def decodeTypeRefs : List Json → Except Problem (List TypeRef)
  | [] => .ok []
  | item :: rest => do
    let type ← decodeTypeRef item
    let types ← decodeTypeRefs rest
    pure (type :: types)

end

def decodeReturnType : Json → Except Problem (Option TypeRef)
  | .null => .ok none
  | value => some <$> decodeTypeRef value

inductive MemberKind where
  | getter
  | setter
  | method
  | field
  deriving DecidableEq, Repr

namespace MemberKind

def names : List (String × MemberKind) :=
  [("property_getter", getter), ("property_setter", setter), ("method", method), ("field", field)]

end MemberKind

/-- What a member holds besides its tag: named fields, or fields in their order. -/
inductive MemberContent where
  | fields (members : List (String × Json))
  | items (items : List Json)

structure MemberFields (α : Type) where
  name : Option String := none
  type : Option α := none

/-- Reads the fields of a member: a text and, where `typeField` names one, a type. -/
def decodeMemberFields {α : Type} (nameField : String) (typeField : Option String)
    (decodeType : Json → Except Problem α) (fields : MemberFields α) :
    List (String × Json) → Except Problem (MemberFields α)
  | [] => .ok fields
  | (key, value) :: rest => do
    if key = nameField then
      let name ← setOnce key fields.name (decodeText value)
      decodeMemberFields nameField typeField decodeType { fields with name } rest
    else if some key = typeField then
      let type ← setOnce key fields.type (decodeType value)
      decodeMemberFields nameField typeField decodeType { fields with type } rest
    else decodeMemberFields nameField typeField decodeType fields rest

/-- Reads a member of a text and a type. Where the type is optional, `missing` stands for an absent
field; an array has both in any case. -/
def decodeNameAndType {α : Type} (variant nameField typeField : String)
    (decodeType : Json → Except Problem α) (missing : Option α) :
    MemberContent → Except Problem (String × α)
  | .fields members => do
    let fields ← decodeMemberFields nameField (some typeField) decodeType {} members
    let name ← requireField nameField fields.name
    let type ← requireField typeField (fields.type <|> missing)
    pure (name, type)
  | .items [] => .error (.wrongLength 0 (withElements variant 2))
  | .items [name] => do
    let _ ← decodeText name
    .error (.wrongLength 1 (withElements variant 2))
  | .items (name :: type :: more) => do
    let name ← decodeText name
    let type ← decodeType type
    if more.isEmpty then pure (name, type) else .error (tooLong (2 + more.length) 2)

def decodeName (variant nameField : String) : MemberContent → Except Problem String
  | .fields members => do
    let fields ← decodeMemberFields (α := Unit) nameField none (fun _ => .ok ()) {} members
    requireField nameField fields.name
  | .items [] => .error (.wrongLength 0 (withElements variant 1))
  | .items (name :: more) => do
    let name ← decodeText name
    if more.isEmpty then pure name else .error (tooLong (1 + more.length) 1)

def decodeMember (kind : MemberKind) (content : MemberContent) : Except Problem Member :=
  match kind with
  | .getter => do
    let (property, type) ← decodeNameAndType "struct variant MemberSymbol::PropertyGetter"
      "property" "return_type" decodeReturnType (some none) content
    pure (.getter property type)
  | .setter => do
    let property ← decodeName "struct variant MemberSymbol::PropertySetter" "property" content
    pure (.setter property)
  | .method => do
    let (name, type) ← decodeNameAndType "struct variant MemberSymbol::Method"
      "name" "return_type" decodeReturnType (some none) content
    pure (.method name type)
  | .field => do
    let (name, type) ← decodeNameAndType "struct variant MemberSymbol::Field"
      "name" "field_type" decodeTypeRef none content
    pure (.field name type)

end SettingsBinding.Model
