import SettingsBinding.Proofs.Yaml.Tokens

/-!
The reader of YAML keeps what is asked of any reader: from the tokens of lines it makes a mapping
with their entries, and where there are no tokens there is no document.
-/

namespace SettingsBinding.Yaml

variable {handles : TagHandles} {room : Nat} {place : Place} {style : ScalarStyle} {text : String}
  {t : Token} {ts : List Token} {anchored : Array (String × Node)} {α β : Type}

/-! ### Steps -/

namespace Step

theorem run_bind_some {action : Step α} {next : α → Step β} {p p' : Pending} {x : α}
    (h : action.run p = some (x, p')) : (action >>= next).run p = (next x).run p' := by
  rw [StateT.run_bind, h]
  rfl

theorem run_peek? : peek?.run ⟨ts, anchored⟩ = some (ts.head?, ⟨ts, anchored⟩) := rfl

theorem run_properties_scalar : properties.run ⟨.scalar style text :: ts, anchored⟩ =
    some ((none, none), ⟨.scalar style text :: ts, anchored⟩) := rfl

/-- A collection without an anchor is what is read of it. -/
theorem run_collection {kind : CollectionKind} {read : Step Node} {node : Node} {p p' : Pending}
    (h : read.run p = some (node, p')) : (collection none kind read).run p = some (node, p') := by
  change (read >>= fun node => pure node : Step Node).run p = some (node, p')
  rw [run_bind_some h]
  rfl

end Step

/-- A scalar without properties. -/
theorem run_readNode_scalar :
    (readNode handles (room + 1) place).run ⟨.scalar style text :: ts, anchored⟩ =
      some (.scalar style none text, ⟨ts, anchored⟩) := by
  rw [readNode, Step.run_bind_some Step.run_peek?]
  refine (Step.run_bind_some Step.run_properties_scalar).trans ?_
  refine (Step.run_bind_some (x := none) rfl).trans ?_
  refine (Step.run_bind_some Step.run_peek?).trans ?_
  rw [if_neg (by simp)]
  rfl

theorem run_orEmpty_scalar :
    (Step.orEmpty blockMappingStops (readNode handles (room + 1) place)).run
        ⟨.scalar style text :: ts, anchored⟩ =
      some (.scalar style none text, ⟨ts, anchored⟩) :=
  (Step.run_bind_some (x := false) rfl).trans run_readNode_scalar

theorem run_readBlockMapping_lines (lines : List Line) (hroom : lines.length < room) :
    (readBlockMapping handles room).run ⟨lines.flatMap Line.tokens ++ [.blockEnd], anchored⟩ =
      some (lines.map Line.entry, ⟨[], anchored⟩) := by
  induction lines generalizing room with
  | nil =>
      obtain ⟨room, rfl⟩ := Nat.exists_eq_succ_of_ne_zero (by omega : room ≠ 0)
      rw [readBlockMapping]
      rfl
  | cons line lines ih =>
      rw [List.length_cons] at hroom
      obtain ⟨room, rfl⟩ := Nat.exists_eq_add_of_le' (by omega : 2 ≤ room)
      have hlines := ih (by omega : lines.length < room + 1)
      rw [readBlockMapping]
      refine (Step.run_bind_some (x := true) rfl).trans ?_
      refine (Step.run_bind_some run_orEmpty_scalar).trans ?_
      refine (Step.run_bind_some (x := true) rfl).trans ?_
      refine (Step.run_bind_some run_orEmpty_scalar).trans ?_
      exact (Step.run_bind_some hlines).trans rfl

theorem run_readNode_lines (lines : List Line) (hroom : lines.length < room) :
    (readNode handles (room + 1) .block).run
        ⟨.blockStart .mapping :: (lines.flatMap Line.tokens ++ [.blockEnd]), #[]⟩ =
      some (.mapping (lines.map Line.entry), ⟨[], #[]⟩) := by
  rw [readNode, Step.run_bind_some Step.run_peek?]
  refine (Step.run_bind_some (x := (none, none)) rfl).trans ?_
  refine (Step.run_bind_some (x := none) rfl).trans ?_
  refine (Step.run_bind_some Step.run_peek?).trans ?_
  rw [if_neg (by simp)]
  refine (Step.run_bind_some (x := ()) rfl).trans ?_
  refine Step.run_collection ?_
  rw [StateT.run_map, Option.map_eq_map]
  exact congrArg (Option.map fun read => (Node.mapping read.1, read.2))
    (run_readBlockMapping_lines lines hroom)

theorem length_le_length_tokens (lines : List Line) :
    lines.length ≤ (lines.flatMap Line.tokens).length := by
  induction lines with
  | nil => exact Nat.le_refl 0
  | cons line lines ih =>
      rw [List.flatMap_cons, List.length_append, List.length_cons, Nat.add_comm]
      exact Nat.add_le_add (by decide : 1 ≤ 4) ih

theorem parse?_document (line : Line) (lines : List Line) :
    Node.parse? (Line.document (line :: lines)) =
      some (.mapping ((line :: lines).map Line.entry)) := by
  have hdocument : documentOf (.blockStart .mapping ::
      ((line :: lines).flatMap Line.tokens ++ [.blockEnd])) =
      some (.mapping ((line :: lines).map Line.entry), []) := by
    have hroom : (line :: lines).length < 2 * (Token.blockStart .mapping ::
        ((line :: lines).flatMap Line.tokens ++ [.blockEnd])).length + 1 := by
      have hlength := length_le_length_tokens (line :: lines)
      rw [List.length_cons (a := Token.blockStart .mapping), List.length_append]
      omega
    change readContent defaultHandles false _ = _
    rw [readContent, if_neg (by simp)]
    exact congrArg (Option.map fun read => (read.1, read.2.tokens))
      (run_readNode_lines (line :: lines) hroom)
  rw [Node.parse?, tokens?_document, Option.bind_eq_bind, Option.bind_some, List.cons_append,
    hdocument]
  rfl

theorem isAllowed_eq_false_of_isControl {c : Char} (h : IsControl c) : isAllowed c = false := by
  obtain ⟨hlt, htab, hfeed, hreturn⟩ := h
  have hne : ∀ d : Char, c ≠ d → c.toNat ≠ d.toNat := fun d hd heq => hd (Char.toNat_inj.1 heq)
  have h9 := hne _ htab
  have h10 := hne _ hfeed
  have h13 := hne _ hreturn
  simp only [isAllowed, Bool.or_eq_false_iff, Bool.and_eq_false_iff, beq_eq_false_iff_ne,
    decide_eq_false_iff_not]
  refine ⟨⟨⟨⟨⟨⟨⟨h9, h10⟩, h13⟩, ?_⟩, ?_⟩, ?_⟩, ?_⟩, ?_⟩ <;> omega

theorem lawful_reader : Reader.Lawful where
  node?_document lines h := by
    obtain ⟨line, lines, rfl⟩ := List.exists_cons_of_ne_nil h
    exact parse?_document line lines
  node?_broken text h := by
    change Node.parse? text = none
    cases h with
    | strayWord hlines hword =>
        obtain ⟨line, lines, rfl⟩ := List.exists_cons_of_ne_nil hlines
        rw [Node.parse?, tokens?_brokenDocument line lines hword]
        rfl
    | control h =>
        obtain ⟨c, hc, hcontrol⟩ := h
        have hall : text.toList.all isAllowed = false :=
          List.all_eq_false.2 ⟨c, hc, by simp [isAllowed_eq_false_of_isControl hcontrol]⟩
        rw [Node.parse?, tokens?, if_neg (by simp [hall])]
        rfl

end SettingsBinding.Yaml
