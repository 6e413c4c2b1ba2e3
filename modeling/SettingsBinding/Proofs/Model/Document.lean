import SettingsBinding.Proofs.Model.Reading

/-!
Model documents read back. Reader and writer agree on every record, from the members of a type up to
the whole program: the document of a program is read as the program if it nests within the limit of
the reader. What is checked behind the reading is that every type has a name.
-/

namespace SettingsBinding

namespace Json

/-- An array in an object leaves two brackets less to what it holds. -/
theorem one_lt_of_array_mem {members : List (String × Json)} {key : String} {items : List Json}
    {limit : Nat} (hmem : (key, array items) ∈ members) (h : (object members).depth ≤ limit) :
    1 < limit ∧ ∀ item ∈ items, item.depth ≤ limit - 2 := by
  obtain ⟨limit, rfl⟩ : ∃ left, limit = left + 1 :=
    ⟨limit - 1, (Nat.succ_pred_eq_of_pos (Nat.zero_lt_of_lt h)).symm⟩
  have harray : (array items).depth ≤ limit := depth_object_le_iff.1 h _ hmem
  obtain ⟨limit, rfl⟩ : ∃ left, limit = left + 1 :=
    ⟨limit - 1, (Nat.succ_pred_eq_of_pos (Nat.zero_lt_of_lt harray)).symm⟩
  exact ⟨Nat.succ_lt_succ (Nat.succ_pos limit), depth_array_le_iff.1 harray⟩

end Json

namespace Model

open Json (Fault print stringTail membersText)

variable {α ε σ : Type} {room depth : Nat} {value : Json} {a : α}

/-! ### Members -/

theorem readTaggedMembers_fields (member : Member)
    (hdepth : Json.membersDepth member.fields ≤ depth) (level : Nat) (rest : List Char)
    (hroom : (membersText true level (("kind", .string member.tag) :: member.fields)).length <
      room) :
    readTaggedMembers room depth room none true
      (membersText true level (("kind", .string member.tag) :: member.fields) ++
        '\x7d' :: rest) = .ok ((member.kind, member.fields), '\x7d' :: rest) := by
  simp only [membersText, List.length_append, List.length_cons] at hroom
  obtain ⟨room, rfl⟩ : ∃ left, room = left + 1 := ⟨room - 1, by omega⟩
  have hkey (behind : List Char) :
      Json.readString (room + 1) (stringTail "kind" ++ behind) = .ok ("kind", behind) :=
    Json.readString_stringTail "kind" behind (by omega)
  have htag := reads_tag (room + 1) member level
    (membersText false level member.fields ++ '\x7d' :: rest) (by omega)
  have hnumbers : ∀ n ∈ Json.membersNumbers member.fields, n.IsWord := by
    rw [member.membersNumbers_fields]
    exact List.forall_mem_nil _
  have hfields := readTaggedMembers_membersText member.kind member.fields
    member.kind_notMem_keys_fields hnumbers hdepth false level room (by omega)
    (Nat.le_succ room) rest
  simp only [membersText, List.append_assoc, List.cons_append, readTaggedMembers,
    Json.nextKey?_lead, insideJson_ok, Steps.ok_bind, hkey, if_pos, Json.readColon_cons, htag,
    inside_ok, hfields]

theorem reads_member (member : Member) (hdepth : member.toJson.depth ≤ depth) :
    Reads room (readMember room depth) member.toJson member := by
  rw [member.toJson_eq] at hdepth ⊢
  obtain ⟨depth, rfl⟩ : ∃ left, depth = left + 1 :=
    ⟨depth - 1, (Nat.succ_pred_eq_of_pos (Nat.zero_lt_of_lt hdepth)).symm⟩
  have hfields : Json.membersDepth member.fields ≤ depth :=
    (Nat.max_le.1 (Nat.le_of_succ_le_succ hdepth)).2
  intro level rest hroom
  refine Steps.bind_eq_ok_iff.2 ⟨((member.kind, .fields member.fields), rest), congrArg inside
    (reads_record (Nat.succ_pos depth) (fun level rest hroom => ?_) level rest hroom), ?_⟩
  · exact Steps.bind_eq_ok_iff.2
      ⟨_, readTaggedMembers_fields member hfields level rest hroom, rfl⟩
  · simp only [decodeMember_fields]
    rfl

/-! ### Types, source files and programs -/

theorem Reads.map {read : List Char → Except ε (α × List Char)} (h : Reads room read value a)
    (f : α → σ) : Reads room (fun cs => read cs >>= fun found => pure (f found.1, found.2)) value
      (f a) := fun level rest hroom =>
  Steps.bind_eq_ok_iff.2 ⟨(a, rest), h level rest hroom, rfl⟩

theorem reads_typeSymbol (symbol : TypeSymbol) (hdepth : symbol.toJson.depth ≤ depth) :
    Reads room (readTypeSymbol room depth) symbol.toJson symbol := by
  obtain ⟨hpositive, hitems⟩ := Json.one_lt_of_array_mem
    (.tail _ (.tail _ (.head _))) hdepth
  have hmembers : Reads room (readArray room (depth - 1) (readMember room (depth - 2)))
      (.array (symbol.members.map Member.toJson)) symbol.members :=
    reads_array (fun member => ⟨_, member.toJson_eq⟩) (Nat.sub_pos_of_lt hpositive) symbol.members
      fun member hmember => reads_member member (hitems _ (List.mem_map_of_mem hmember))
  refine reads_record (Nat.zero_lt_of_lt hpositive) fun level rest hroom => ?_
  refine Steps.bind_eq_ok_iff.2 ⟨(⟨some symbol.name, symbol.nameSpace, symbol.members⟩, _),
    readFields_membersText ?_ true level hroom (Nat.le_refl room) rest, rfl⟩
  have hname := reads_text room "a string" symbol.name
  have hnameSpace := reads_text room "a string" symbol.nameSpace
  refine .cons rfl (by simp) (hname.map fun name => TypeSymbolFields.mk (some name) "" []) ?_
  refine .cons rfl (by simp)
    (hnameSpace.map fun nameSpace => TypeSymbolFields.mk (some symbol.name) nameSpace []) ?_
  refine .cons rfl (by simp)
    (hmembers.map fun members =>
      TypeSymbolFields.mk (some symbol.name) symbol.nameSpace members) ?_
  exact .nil _ _

theorem reads_syntaxTree (tree : SyntaxTree) (hdepth : tree.toJson.depth ≤ depth) :
    Reads room (readSyntaxTree room depth) tree.toJson tree := by
  obtain ⟨hpositive, hitems⟩ := Json.one_lt_of_array_mem (.tail _ (.head _)) hdepth
  have htypes : Reads room (readArray room (depth - 1) fun cs =>
      inside (readTypeSymbol room (depth - 2) cs))
      (.array (tree.types.map TypeSymbol.toJson)) tree.types :=
    reads_array (fun symbol => ⟨_, rfl⟩) (Nat.sub_pos_of_lt hpositive) tree.types
      fun symbol hsymbol =>
        (reads_typeSymbol symbol (hitems _ (List.mem_map_of_mem hsymbol))).inside
  refine reads_record (Nat.zero_lt_of_lt hpositive) fun level rest hroom => ?_
  refine readFields_membersText ?_ true level hroom (Nat.le_refl room) rest
  have hpath := reads_text room "a string" tree.path
  refine .cons rfl (by simp) (hpath.map fun path => SyntaxTree.mk path []) ?_
  refine .cons rfl (by simp) (htypes.map fun types => SyntaxTree.mk tree.path types) ?_
  exact .nil _ _

theorem reads_program (model : ProgramModel) (hdepth : model.toJson.depth ≤ depth) :
    Reads room (readProgram room depth) model.toJson model := by
  obtain ⟨hpositive, hitems⟩ := Json.one_lt_of_array_mem (.head _) hdepth
  have htrees : Reads room (readArray room (depth - 1) fun cs =>
      inside (readSyntaxTree room (depth - 2) cs))
      (.array (model.syntaxTrees.map SyntaxTree.toJson)) model.syntaxTrees :=
    reads_array (fun tree => ⟨_, rfl⟩) (Nat.sub_pos_of_lt hpositive) model.syntaxTrees
      fun tree htree => (reads_syntaxTree tree (hitems _ (List.mem_map_of_mem htree))).inside
  refine reads_record (Nat.zero_lt_of_lt hpositive) fun level rest hroom => ?_
  refine readFields_membersText ?_ true level hroom (Nat.le_refl room) rest
  exact .cons rfl (by simp) (htrees.map ProgramModel.mk) (.nil _ _)

/-- The document of a program is read as the program. -/
theorem readDocument_text (model : ProgramModel) (hdepth : model.toJson.depth ≤ Json.depthLimit) :
    readDocument model.text.toList = .ok model := by
  have htext : model.text.toList = print .compact 0 model.toJson := String.toList_ofList
  rw [htext]
  have hread := reads_program model hdepth 0 [] (Nat.le_succ (print .compact 0 model.toJson).length)
  rw [List.append_nil] at hread
  exact Steps.bind_eq_ok_iff.2 ⟨(model, []), hread, rfl⟩

end Model

namespace ProgramModel

variable {model : ProgramModel}

/-- Every type has a character in its name that is no white space. -/
def AllNamed (types : List TypeSymbol) : Prop :=
  ∀ symbol ∈ types, ∃ c ∈ symbol.name.toList, Text.isWhiteSpace c = false

theorem exists_not_isWhiteSpace_iff {s : String} :
    (∃ c ∈ s.toList, Text.isWhiteSpace c = false) ↔ Text.isBlank s = false := by
  rw [Text.isBlank, List.all_eq_false]
  simp only [Bool.not_eq_true]

theorem allNamed_iff {types : List TypeSymbol} :
    AllNamed types ↔ (types.any fun symbol => Text.isBlank symbol.name) = false := by
  rw [List.any_eq_false]
  simp only [AllNamed, exists_not_isWhiteSpace_iff, Bool.not_eq_true]

theorem unnamed?_eq_none_iff : model.unnamed? = none ↔ AllNamed model.types := by
  rw [unnamed?, List.find?_eq_none]
  simp only [Bool.not_eq_true, ← allNamed_iff]
  simp only [AllNamed, types, List.forall_mem_flatMap]

theorem unnamed?_eq_some_iff {tree : SyntaxTree} :
    model.unnamed? = some tree ↔
      ¬AllNamed tree.types ∧ ∃ before after, model.syntaxTrees = before ++ tree :: after ∧
        ∀ other ∈ before, AllNamed other.types := by
  rw [unnamed?, List.find?_eq_some_iff_append]
  simp only [allNamed_iff, Bool.not_eq_false, Bool.not_eq_true']

theorem parse_of_unnamed {text : String} {tree : SyntaxTree}
    (hread : Model.readDocument text.toList = .ok model) (htree : model.unnamed? = some tree) :
    parse text = .error (.model s!"type with empty name in syntax tree '{tree.path}'") := by
  rw [parse, hread]
  simp only [htree]

theorem parse_eq_ok_iff {text : String} :
    parse text = .ok model ↔
      Model.readDocument text.toList = .ok model ∧ AllNamed model.types := by
  rw [parse]
  cases Model.readDocument text.toList with
  | error fault => simp
  | ok found =>
      cases hunnamed : found.unnamed? with
      | some tree =>
          have hnot : ¬AllNamed found.types := by
            rw [← unnamed?_eq_none_iff, hunnamed]
            exact nofun
          simp only [hunnamed, reduceCtorEq, Except.ok.injEq, false_iff]
          rintro ⟨rfl, hall⟩
          exact hnot hall
      | none =>
          simp only [hunnamed, Except.ok.injEq]
          refine ⟨?_, And.left⟩
          rintro rfl
          exact ⟨rfl, unnamed?_eq_none_iff.1 hunnamed⟩

/-- The document of a program that nests within the limit is read as the program if all types have
names; else the first source file is reported that holds a type without one. So a program that was
read is read again from its own document. -/
theorem document_round_trip :
    (∀ model : ProgramModel, model.toJson.depth ≤ Json.depthLimit → AllNamed model.types →
      parse model.text = .ok model) ∧
    (∀ model : ProgramModel, model.toJson.depth ≤ Json.depthLimit → ¬AllNamed model.types →
      ∃ before tree after, model.syntaxTrees = before ++ tree :: after ∧
        (∀ other ∈ before, AllNamed other.types) ∧ ¬AllNamed tree.types ∧
        parse model.text =
          .error (.model s!"type with empty name in syntax tree '{tree.path}'")) ∧
    ∀ (text : String) (model : ProgramModel), parse text = .ok model →
      model.toJson.depth ≤ Json.depthLimit → parse model.text = .ok model := by
  have hnamed : ∀ model : ProgramModel, model.toJson.depth ≤ Json.depthLimit →
      AllNamed model.types → parse model.text = .ok model := fun model hdepth hall =>
    parse_eq_ok_iff.2 ⟨Model.readDocument_text model hdepth, hall⟩
  refine ⟨hnamed, fun model hdepth hnot => ?_, fun text model hparse hdepth => ?_⟩
  · cases hunnamed : model.unnamed? with
    | none => exact absurd (unnamed?_eq_none_iff.1 hunnamed) hnot
    | some tree =>
        obtain ⟨htree, before, after, hsplit, hbefore⟩ := unnamed?_eq_some_iff.1 hunnamed
        exact ⟨before, tree, after, hsplit, hbefore, htree,
          parse_of_unnamed (Model.readDocument_text model hdepth) hunnamed⟩
  · exact hnamed model hdepth (parse_eq_ok_iff.1 hparse).2

/-! ### A program with members of all kinds -/

def poolModel : ProgramModel :=
  ⟨[⟨"Pool.cs", [⟨"Pool", "App", [
    .getter "Sizes" (some (TypeRef.generic (.reference "List" "List<int?>")
      [.nullable .int32, ⟨"T", "T", .typeParameter, false, []⟩])),
    .getter "Nothing" none, .setter "Sizes", .method "Drain" (some .boolean),
    .field "owner" .string]⟩]⟩]⟩

/-- The same type behind one without a name, in the second of two source files. -/
def unnamedModel : ProgramModel :=
  ⟨[⟨"Empty.cs", []⟩, ⟨"Pool.cs", ⟨" ", "App", []⟩ :: poolModel.types⟩]⟩

def arrayText : String := "[[[\"Pool.cs\",[[\"Pool\"]]]]]"

theorem document_round_trip_of_pool :
    parse poolModel.text = .ok poolModel ∧
      parse unnamedModel.text =
        .error (.model "type with empty name in syntax tree 'Pool.cs'") ∧
      ∃ model, parse arrayText = .ok model ∧ parse model.text = .ok model := by
  have hpool : AllNamed poolModel.types := allNamed_iff.2 rfl
  have hunnamed : ¬AllNamed unnamedModel.types := fun hall => Bool.noConfusion (allNamed_iff.1 hall)
  have harray : parse arrayText = .ok ⟨[⟨"Pool.cs", [⟨"Pool", "", []⟩]⟩]⟩ := rfl
  obtain ⟨hnamed, hreported, hagain⟩ := document_round_trip
  refine ⟨hnamed poolModel (by decide) hpool, ?_, _, harray, hagain _ _ harray (by decide)⟩
  obtain ⟨before, tree, after, hsplit, -, htree, hparse⟩ :=
    hreported unnamedModel (by decide) hunnamed
  rcases before with _ | ⟨first, _ | ⟨second, before⟩⟩
  · cases hsplit
    exact absurd (allNamed_iff.2 rfl) htree
  · cases hsplit
    exact hparse
  · simp [unnamedModel] at hsplit

end ProgramModel

end SettingsBinding
