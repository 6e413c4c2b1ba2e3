import SettingsBinding.Model.Member
import SettingsBinding.Proofs.Json.Depth

/-!
Members of types from the JSON values that are written for them. A type reference may hold others as
its arguments, so its round trip is by recursion over the reference and the list of its arguments.
-/

namespace SettingsBinding

namespace TypeRef

theorem exists_toJson_eq_object : (type : TypeRef) → ∃ members, type.toJson = .object members
  | ⟨_, _, _, _, []⟩ => ⟨_, rfl⟩
  | ⟨_, _, _, _, _ :: _⟩ => ⟨_, rfl⟩

mutual

/-- No numbers are written for a type. -/
theorem numbers_toJson : (type : TypeRef) → type.toJson.numbers = []
  | ⟨name, fullName, kind, isValueType, []⟩ => by
      rw [toJson]
      rfl
  | ⟨name, fullName, kind, isValueType, first :: rest⟩ => by
      have hfirst := numbers_toJson first
      have hrest := itemsNumbers_allToJson rest
      simp only [toJson, List.cons_append, List.nil_append, Json.numbers, Json.membersNumbers,
        Json.itemsNumbers, hfirst, hrest, List.append_nil]

theorem itemsNumbers_allToJson : (types : List TypeRef) → Json.itemsNumbers (allToJson types) = []
  | [] => rfl
  | first :: rest => by
      rw [allToJson, Json.itemsNumbers, numbers_toJson first, itemsNumbers_allToJson rest]
      rfl

end

theorem numbers_optionToJson (type : Option TypeRef) : (optionToJson type).numbers = [] := by
  cases type with
  | none => rfl
  | some type => exact numbers_toJson type

end TypeRef

namespace Model

open TypeRef (optionToJson allToJson)

/-! ### Type references -/

theorem decodeKind_name (kind : TypeKind) : decodeKind (.string kind.name) = .ok kind := by
  rw [decodeKind, decodeKind.named, TypeKind.lookup_name]

theorem decodeTypeRefFields_toJson (name fullName : String) (kind : TypeKind) (isValueType : Bool)
    (rest : List (String × Json)) :
    decodeTypeRefFields {} (("name", .string name) :: ("full_name", .string fullName) ::
        ("kind", .string kind.name) :: ("is_value_type", .bool isValueType) :: rest) =
      decodeTypeRefFields ⟨name, fullName, kind, isValueType, none⟩ rest := by
  simp [decodeTypeRefFields, setOnce, decodeText, decodeKind_name, decodeBool]

theorem decodeTypeRefFields_arguments {fields : TypeRefFields} {value : Json}
    {types : List TypeRef} (hfresh : fields.typeArguments = none)
    (hvalue : decodeTypeArguments value = .ok types) :
    decodeTypeRefFields fields [("type_arguments", value)] =
      { fields with typeArguments := some types }.finish := by
  simp only [decodeTypeRefFields, hfresh, setOnce, hvalue]
  rfl

mutual

theorem decodeTypeRef_toJson : (type : TypeRef) → decodeTypeRef type.toJson = .ok type
  | ⟨name, fullName, kind, isValueType, []⟩ => by
      rw [TypeRef.toJson, decodeTypeRef]
      exact decodeTypeRefFields_toJson name fullName kind isValueType []
  | ⟨name, fullName, kind, isValueType, first :: rest⟩ => by
      have harguments : decodeTypeArguments (.array (first.toJson :: allToJson rest)) =
          .ok (first :: rest) := by
        rw [decodeTypeArguments, decodeTypeRefs, decodeTypeRef_toJson first,
          decodeTypeRefs_allToJson rest]
        rfl
      rw [TypeRef.toJson, decodeTypeRef]
      exact (decodeTypeRefFields_toJson name fullName kind isValueType _).trans
        (decodeTypeRefFields_arguments rfl harguments)

theorem decodeTypeRefs_allToJson :
    (types : List TypeRef) → decodeTypeRefs (allToJson types) = .ok types
  | [] => rfl
  | first :: rest => by
      rw [allToJson, decodeTypeRefs, decodeTypeRef_toJson first, decodeTypeRefs_allToJson rest]
      rfl

end

theorem decodeReturnType_optionToJson (type : Option TypeRef) :
    decodeReturnType (optionToJson type) = .ok type := by
  cases type with
  | none => rfl
  | some type =>
      -- What is written is an object, so it is not taken for nothing.
      obtain ⟨members, hmembers⟩ := type.exists_toJson_eq_object
      have htype := decodeTypeRef_toJson type
      rw [hmembers] at htype
      rw [optionToJson, hmembers, decodeReturnType, htype]
      · rfl
      · nofun

end Model

/-! ### Members -/

namespace Member

def kind : Member → Model.MemberKind
  | getter _ _ => .getter
  | setter _ => .setter
  | method _ _ => .method
  | field _ _ => .field

def tag : Member → String
  | getter _ _ => "property_getter"
  | setter _ => "property_setter"
  | method _ _ => "method"
  | field _ _ => "field"

def fields : Member → List (String × Json)
  | getter property returnType =>
    [("property", .string property), ("return_type", TypeRef.optionToJson returnType)]
  | setter property => [("property", .string property)]
  | method name returnType =>
    [("name", .string name), ("return_type", TypeRef.optionToJson returnType)]
  | field name fieldType => [("name", .string name), ("field_type", fieldType.toJson)]

theorem toJson_eq (member : Member) :
    member.toJson = .object (("kind", .string member.tag) :: member.fields) := by
  cases member <;> rfl

theorem lookup_tag (member : Member) :
    Model.MemberKind.names.lookup member.tag = some member.kind := by
  cases member <;> rfl

theorem kind_notMem_keys_fields (member : Member) : "kind" ∉ Json.keys member.fields := by
  cases member <;> simp [fields, Json.keys]

theorem membersNumbers_fields (member : Member) : Json.membersNumbers member.fields = [] := by
  cases member with
  | getter property returnType =>
      simp [fields, Json.numbers, TypeRef.numbers_optionToJson]
  | setter property => rfl
  | method name returnType =>
      simp [fields, Json.numbers, TypeRef.numbers_optionToJson]
  | field name fieldType => simp [fields, Json.numbers, TypeRef.numbers_toJson]

end Member

namespace Model

theorem decodeNameAndType_fields {α : Type} {variant nameField typeField name : String}
    {decodeType : Json → Except Problem α} {missing : Option α} {value : Json} {type : α}
    (hdistinct : typeField ≠ nameField) (htype : decodeType value = .ok type) :
    decodeNameAndType variant nameField typeField decodeType missing
      (.fields [(nameField, .string name), (typeField, value)]) = .ok (name, type) := by
  simp [decodeNameAndType, decodeMemberFields, hdistinct, setOnce, decodeText, htype,
    requireField, Functor.map, Except.map]

theorem decodeName_fields (variant nameField name : String) :
    decodeName variant nameField (.fields [(nameField, .string name)]) = .ok name := by
  simp [decodeName, decodeMemberFields, setOnce, decodeText, requireField]

/-- A member is decoded from its tag and what is written behind it. -/
theorem decodeMember_fields (member : Member) :
    decodeMember member.kind (.fields member.fields) = .ok member := by
  cases member with
  | getter property returnType =>
      rw [Member.kind, Member.fields, decodeMember, decodeNameAndType_fields (by decide)
        (decodeReturnType_optionToJson returnType)]
      rfl
  | setter property =>
      rw [Member.kind, Member.fields, decodeMember, decodeName_fields]
      rfl
  | method name returnType =>
      rw [Member.kind, Member.fields, decodeMember, decodeNameAndType_fields (by decide)
        (decodeReturnType_optionToJson returnType)]
      rfl
  | field name fieldType =>
      rw [Member.kind, Member.fields, decodeMember, decodeNameAndType_fields (by decide)
        (decodeTypeRef_toJson fieldType)]
      rfl

end Model

end SettingsBinding
