import Mathlib.Data.List.Nodup
import SettingsBinding.Config.Document
import SettingsBinding.Proofs.Yaml.Lines
import SettingsBinding.Proofs.Yaml.Number

/-!
What a document says about a configuration. Fields are told apart by what they hold, so that a
field that a document writes is known from its entry, and a field that it leaves out from what the
configuration held before. The entries of a mapping are read one after the other; what they write
is put together entry by entry.
-/

namespace SettingsBinding

inductive ConfigValue where
  | text (s : String)
  | number (n : Nat)
  deriving DecidableEq, Repr

namespace Config

variable {base config changed : Config} {field : ConfigField} {node : Yaml.Node}
  {entries : List (Yaml.Node × Yaml.Node)} {seen : List ConfigField}

def value (config : Config) : ConfigField → ConfigValue
  | .markerSuffix => .text config.markerSuffix
  | .hostKey => .text config.hostKey
  | .settingsFileName => .text config.settingsFileName
  | .sourceName => .text config.sourceName
  | .indentWidth => .number config.indentWidth

/-- The node writes the value into a field. Every scalar writes its text; a plain one, or a literal
one with the tag of whole numbers, writes the number that it spells, in 64 bits. -/
inductive Denotes : ConfigField → Yaml.Node → ConfigValue → Prop
  | text {field : ConfigField} (style : Yaml.ScalarStyle) (tag : Option String) (s : String)
      (hfield : field ≠ .indentWidth) : Denotes field (.scalar style tag s) (.text s)
  | plain {s : String} {n : Nat} (tag : Option String) (h : Yaml.Spells s.toList n)
      (hn : n < 2 ^ 64) : Denotes .indentWidth (.scalar .plain tag s) (.number n)
  | literal {s : String} {n : Nat} (h : Yaml.Spells s.toList n) (hn : n < 2 ^ 64) :
      Denotes .indentWidth (.scalar .literal (some "tag:yaml.org,2002:int") s) (.number n)

theorem numberOf?_eq_some_iff {n : Nat} :
    numberOf? node = some n ↔ Denotes .indentWidth node (.number n) := by
  constructor
  · intro h
    rw [numberOf?.eq_def] at h
    split at h
    · split_ifs at h with hstyle
      obtain ⟨hn, hbound⟩ := Option.filter_eq_some_iff.1 h
      rw [Yaml.natural?_eq_some_iff] at hn
      obtain rfl | ⟨rfl, rfl⟩ := hstyle
      · exact .plain _ hn (of_decide_eq_true hbound)
      · exact .literal hn (of_decide_eq_true hbound)
    · cases h
  · intro h
    cases h with
    | plain tag h hn =>
        rw [numberOf?, if_pos (.inl rfl), Yaml.natural?_eq_some_iff.2 h]
        exact Option.filter_some_pos (decide_eq_true hn)
    | literal h hn =>
        rw [numberOf?, if_pos (.inr ⟨rfl, rfl⟩), Yaml.natural?_eq_some_iff.2 h]
        exact Option.filter_some_pos (decide_eq_true hn)

theorem eq_of_value (h : ∀ field, config.value field = base.value field) : config = base := by
  have hmarkerSuffix := h .markerSuffix
  have hhostKey := h .hostKey
  have hsettingsFileName := h .settingsFileName
  have hsourceName := h .sourceName
  have hindentWidth := h .indentWidth
  cases config
  cases base
  simp_all [value]

theorem denotes_of_withField? (h : base.withField? field node = some changed) :
    Denotes field node (changed.value field) ∧
      ∀ other, other ≠ field → changed.value other = base.value other := by
  cases field with
  | indentWidth =>
      obtain ⟨n, hn, rfl⟩ := Option.map_eq_some_iff.1 h
      refine ⟨numberOf?_eq_some_iff.1 hn, fun other hother => ?_⟩
      cases other <;> first | rfl | exact absurd rfl hother
  | _ =>
      obtain ⟨s, hs, rfl⟩ := Option.map_eq_some_iff.1 h
      cases node with
      | scalar style tag s =>
          cases hs
          refine ⟨.text style tag s (by decide), fun other hother => ?_⟩
          cases other <;> first | rfl | exact absurd rfl hother
      | _ => cases hs

theorem exists_withField? {v : ConfigValue} (base : Config) (h : Denotes field node v) :
    ∃ changed, base.withField? field node = some changed ∧ changed.value field = v := by
  have hnumber : ∀ {n}, numberOf? node = some n →
      base.withField? .indentWidth node = some { base with indentWidth := n } := by
    intro n hn
    rw [withField?, hn]
    rfl
  cases h with
  | text style tag s hfield =>
      cases field with
      | indentWidth => cases hfield rfl
      | _ => exact ⟨_, rfl, rfl⟩
  | plain tag h hn => exact ⟨_, hnumber (numberOf?_eq_some_iff.2 (.plain tag h hn)), rfl⟩
  | literal h hn => exact ⟨_, hnumber (numberOf?_eq_some_iff.2 (.literal h hn)), rfl⟩

/-! ### Entries -/

def fieldOf? (entry : Yaml.Node × Yaml.Node) : Option ConfigField :=
  entry.1.text?.bind ConfigField.ofName?

/-- The entries write the configuration where `base` was before: all keys are texts, no two entries
are about one field, a field that an entry is about holds what that entry writes, and each other
field what it held before. -/
structure Writes (base : Config) (entries : List (Yaml.Node × Yaml.Node)) (config : Config) :
    Prop where
  keys : ∀ entry ∈ entries, entry.1.text?.isSome
  once : (entries.filterMap fieldOf?).Nodup
  written : ∀ entry ∈ entries, ∀ field, fieldOf? entry = some field →
    Denotes field entry.2 (config.value field)
  left : ∀ field, field ∉ entries.filterMap fieldOf? → config.value field = base.value field

theorem writes_nil_iff : base.Writes [] config ↔ base = config := by
  refine ⟨fun h => (eq_of_value fun field => h.left field List.not_mem_nil).symm, ?_⟩
  rintro rfl
  exact ⟨nofun, List.nodup_nil, nofun, fun _ _ => rfl⟩

theorem writes_cons_of_other {entry : Yaml.Node × Yaml.Node} (hkey : entry.1.text?.isSome)
    (hfield : fieldOf? entry = none) :
    base.Writes (entry :: entries) config ↔ base.Writes entries config := by
  have hfields : (entry :: entries).filterMap fieldOf? = entries.filterMap fieldOf? :=
    List.filterMap_cons_none hfield
  constructor
  · intro h
    exact ⟨fun other hother => h.keys other (.tail _ hother), hfields ▸ h.once,
      fun other hother => h.written other (.tail _ hother), hfields ▸ h.left⟩
  · intro h
    refine ⟨List.forall_mem_cons.2 ⟨hkey, h.keys⟩, hfields ▸ h.once,
      List.forall_mem_cons.2 ⟨fun field hsome => ?_, h.written⟩, hfields ▸ h.left⟩
    rw [hfield] at hsome
    cases hsome

theorem writes_cons_of_field {entry : Yaml.Node × Yaml.Node}
    (hfield : fieldOf? entry = some field) :
    base.Writes (entry :: entries) config ↔
      field ∉ entries.filterMap fieldOf? ∧
        ∃ changed, base.withField? field entry.2 = some changed ∧
          changed.Writes entries config := by
  have hfields : (entry :: entries).filterMap fieldOf? = field :: entries.filterMap fieldOf? :=
    List.filterMap_cons_some hfield
  have hkey : entry.1.text?.isSome := Option.isSome_of_isSome_bind (by
    rw [← fieldOf?, hfield]; rfl)
  constructor
  · intro h
    have honce := h.once
    rw [hfields, List.nodup_cons] at honce
    have hvalue := h.written entry List.mem_cons_self field hfield
    obtain ⟨changed, hchanged, hvalue'⟩ := exists_withField? base hvalue
    obtain ⟨-, hothers⟩ := denotes_of_withField? hchanged
    refine ⟨honce.1, changed, hchanged, ⟨fun other hother => h.keys other (.tail _ hother),
      honce.2, fun other hother => h.written other (.tail _ hother), fun other hother => ?_⟩⟩
    by_cases hsame : other = field
    · rw [hsame]
      exact hvalue'.symm
    · rw [hothers other hsame]
      exact h.left other (by rw [hfields]; exact List.not_mem_cons_of_ne_of_not_mem hsame hother)
  · rintro ⟨hnew, changed, hchanged, h⟩
    obtain ⟨hvalue, hothers⟩ := denotes_of_withField? hchanged
    refine ⟨List.forall_mem_cons.2 ⟨hkey, h.keys⟩, hfields ▸ List.nodup_cons.2 ⟨hnew, h.once⟩,
      List.forall_mem_cons.2 ⟨fun other hother => ?_, h.written⟩, fun other hother => ?_⟩
    · -- The entries behind it are about other fields, so what this one wrote stays.
      cases hfield.symm.trans hother
      rw [h.left field hnew]
      exact hvalue
    · rw [hfields, List.mem_cons, not_or] at hother
      rw [h.left other hother.2, hothers other hother.1]

theorem withEntries?_eq_some_iff :
    base.withEntries? seen entries = some config ↔
      base.Writes entries config ∧ ∀ field ∈ entries.filterMap fieldOf?, field ∉ seen := by
  induction entries generalizing base seen with
  | nil => simp [withEntries?, writes_nil_iff]
  | cons entry entries ih =>
      obtain ⟨key, node⟩ := entry
      rw [withEntries?]
      cases hkey : key.text? with
      | none =>
          refine ⟨nofun, fun ⟨h, _⟩ => ?_⟩
          have hsome := h.keys _ List.mem_cons_self
          rw [hkey] at hsome
          cases hsome
      | some name =>
          cases hname : ConfigField.ofName? name with
          | none =>
              have hfield : fieldOf? (key, node) = none := by rw [fieldOf?, hkey]; exact hname
              rw [writes_cons_of_other (by rw [hkey]; rfl) hfield,
                List.filterMap_cons_none hfield, ← ih]
              simp [hname]
          | some field =>
              have hfield : fieldOf? (key, node) = some field := by
                rw [fieldOf?, hkey]; exact hname
              rw [writes_cons_of_field hfield, List.filterMap_cons_some hfield,
                List.forall_mem_cons]
              by_cases hseen : field ∈ seen
              · simp [hname, hseen]
              · simp only [hname, Option.bind_eq_bind, Option.bind_some, List.contains_eq_mem,
                  hseen, decide_false, Bool.false_eq_true, if_false, Option.bind_eq_some_iff, ih,
                  List.mem_cons, not_or]
                constructor
                · rintro ⟨changed, hchanged, h, hnew⟩
                  exact ⟨⟨fun hmem => (hnew field hmem).1 rfl, changed, hchanged, h⟩, not_false,
                    fun other hother => (hnew other hother).2⟩
                · rintro ⟨⟨hnew, changed, hchanged, h⟩, -, hothers⟩
                  exact ⟨changed, hchanged, h, fun other hother =>
                    ⟨fun hsame => hnew (hsame ▸ hother), hothers other hother⟩⟩

/-! ### Documents -/

theorem ofNode?_mapping : ofNode? (.mapping entries) = some config ↔
    ({} : Config).Writes entries config := by
  rw [ofNode?, withEntries?_eq_some_iff]
  simp

theorem isBlank_ofList_append {w cs : List Char} (hw : Yaml.IsWord w) :
    Text.isBlank (String.ofList (w ++ cs)) = false := by
  cases w with
  | nil => cases hw
  | cons c w =>
      have hc : Text.isWhiteSpace c = false := by
        refine Yaml.forall_of_ascii
          (p := fun c => Yaml.IsWordStart c → Text.isWhiteSpace c = false) ?_
          (Yaml.toNat_lt_of_isWordPart (.inl hw.1)) hw.1
        decide +kernel
      rw [Text.isBlank_ofList, List.cons_append, List.all_cons, hc]
      rfl

variable [Yaml.Reader] {text : String}

/-- The text says what a configuration holds: nothing, so that all fields have their default values,
or the entries of a mapping, so that those fields have them that no entry is about. -/
inductive States (text : String) : Config → Prop
  | blank (h : Text.isBlank text = true) : States text {}
  | empty {tag : Option String} (hblank : Text.isBlank text = false)
      (h : Yaml.Reader.node? text = some (.scalar .plain tag "")) : States text {}
  | mapping {entries : List (Yaml.Node × Yaml.Node)} {config : Config}
      (hblank : Text.isBlank text = false) (h : Yaml.Reader.node? text = some (.mapping entries))
      (hwrites : ({} : Config).Writes entries config) : States text config

theorem states_iff : States text config ↔
    if Text.isBlank text then config = {}
    else (Yaml.Reader.node? text).bind ofNode? = some config := by
  split
  · next hblank =>
      constructor
      · intro h
        cases h <;> simp_all
      · rintro rfl
        exact .blank hblank
  · next hblank =>
      rw [Bool.not_eq_true] at hblank
      constructor
      · intro h
        cases h with
        | blank h => cases h.symm.trans hblank
        | empty _ h =>
            rw [h]
            rfl
        | mapping _ h hwrites =>
            rw [h]
            exact ofNode?_mapping.2 hwrites
      · intro h
        obtain ⟨node, hparse, hnode⟩ := Option.bind_eq_some_iff.1 h
        rw [ofNode?.eq_def] at hnode
        split at hnode
        · exact .mapping hblank hparse (ofNode?_mapping.1 hnode)
        · cases hnode
          exact .empty hblank hparse
        · cases hnode

theorem ofText_of_states (h : States text config) : ofText text = .ok config := by
  rw [states_iff] at h
  rw [ofText]
  split <;> simp_all

theorem ofText_of_forall_not_states (h : ∀ config, ¬States text config) :
    ofText text = .error (Yaml.Reader.complaint text) := by
  simp only [states_iff] at h
  rw [ofText]
  split
  · next hblank => simp [hblank] at h
  · next hblank =>
      simp only [hblank, Bool.false_eq_true, if_false] at h
      rw [Option.eq_none_iff_forall_ne_some.2 h]

/-! ### Documents of lines -/

/-- A reader that keeps to the rules of the format leaves no doubt about what lines say. -/
theorem states_document_iff (hyaml : Yaml.Reader.Lawful) {lines : List Yaml.Line}
    (h : lines ≠ []) :
    States (Yaml.Line.document lines) config ↔
      ({} : Config).Writes (lines.map Yaml.Line.entry) config := by
  have hblank : Text.isBlank (Yaml.Line.document lines) = false := by
    obtain ⟨line, lines, rfl⟩ := List.exists_cons_of_ne_nil h
    rw [Yaml.Line.document, List.flatMap_cons, Yaml.Line.text_append]
    exact isBlank_ofList_append line.isWord_name
  rw [states_iff, hblank, hyaml.node?_document lines h, Option.bind_some, ofNode?_mapping]
  simp

theorem not_states_of_isBroken (hyaml : Yaml.Reader.Lawful) (h : Yaml.IsBroken text)
    (hblank : Text.isBlank text = false) : ¬States text config := by
  rw [states_iff, hblank, hyaml.node?_broken text h]
  simp

end Config

end SettingsBinding
