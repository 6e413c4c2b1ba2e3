import Mathlib.Data.List.Induction
import SettingsBinding.Proofs.Settings.Documents

/-!
How a merge of documents ends. The documents are taken in order, and the first one before which a
stop is asked for, or that cannot be used, decides: nothing is left of those before it, and those
behind it do not count. Where no document decides, all of them go into the result.
-/

namespace SettingsBinding

/-! ### The first document with a property -/

namespace SettingsDocument

/-- The document is blank, or its text is a JSON object. -/
def IsUsable (d : SettingsDocument) : Prop :=
  d.isBlank ∨ ∃ members, Json.parse d.text = .ok (.object members)

/-- `i` is the least index of a document that has the property, which may speak of the index. -/
def IsFirst (p : Nat → SettingsDocument → Prop) (documents : List SettingsDocument) (i : Nat) :
    Prop :=
  (∃ d, documents[i]? = some d ∧ p i d) ∧ ∀ k < i, ∀ d, documents[k]? = some d → ¬p k d

abbrev FirstStop (raised : Nat → Bool) : List SettingsDocument → Nat → Prop :=
  IsFirst fun i _ => raised i = true

abbrev FirstUnusable : List SettingsDocument → Nat → Prop :=
  IsFirst fun _ d => ¬d.IsUsable

variable {p : Nat → SettingsDocument → Prop} {raised : Nat → Bool}
  {documents before after : List SettingsDocument} {d : SettingsDocument}

theorem IsFirst.unique {i j : Nat} (hi : IsFirst p documents i) (hj : IsFirst p documents j) :
    i = j := by
  obtain ⟨⟨d, hd, hp⟩, hbefore⟩ := hi
  obtain ⟨⟨e, he, hq⟩, hbefore'⟩ := hj
  rcases Nat.lt_trichotomy i j with h | h | h
  · exact absurd hp (hbefore' i h d hd)
  · exact h
  · exact absurd hq (hbefore j h e he)

theorem isFirst_length (hd : p before.length d)
    (hbefore : ∀ k e, before[k]? = some e → ¬p k e) :
    IsFirst p (before ++ d :: after) before.length := by
  refine ⟨⟨d, by simp, hd⟩, fun k hk e he => hbefore k e ?_⟩
  rwa [List.getElem?_append_left hk] at he

/-- A document with a property does not stand in a front part in which no document has it. -/
theorem IsFirst.length_le {i : Nat} (h : IsFirst p (before ++ after) i)
    (hbefore : ∀ k e, before[k]? = some e → ¬p k e) : before.length ≤ i := by
  obtain ⟨⟨d, hd, hp⟩, -⟩ := h
  refine Nat.le_of_not_lt fun hlt => ?_
  rw [List.getElem?_append_left hlt] at hd
  exact hbefore i d hd hp

end SettingsDocument

/-! ### What a document gives -/

namespace SettingsTree

theorem exists_parse_iff {text : String} :
    (∃ t, parse text = .ok t) ↔ ∃ members, Json.parse text = .ok (.object members) := by
  have hobject (written : Json) :
      (∃ t, Setting.ofJson written.withUniqueKeys = .tree t) ↔
        ∃ members, written = .object members := by
    cases written <;> simp [Json.withUniqueKeys, Setting.ofJson]
  simp only [parse_eq_ok_iff]
  rw [exists_comm]
  constructor
  · rintro ⟨written, t, hparse, htree⟩
    obtain ⟨members, rfl⟩ := (hobject written).1 ⟨t, htree⟩
    exact ⟨members, hparse⟩
  · rintro ⟨members, hparse⟩
    obtain ⟨t, htree⟩ := (hobject (.object members)).2 ⟨members, rfl⟩
    exact ⟨.object members, t, hparse, htree⟩

/-- Why a text cannot be used is said with a context that is not empty. -/
theorem eq_settings_of_parse {text : String} {failure : Failure} (h : parse text = .error failure) :
    ∃ inner cause, failure = .settings inner cause ∧ inner ≠ "" := by
  rw [parse] at h
  split at h
  · cases h
    exact ⟨_, _, rfl, by decide⟩
  · split at h
    · cases h
    · cases h
      exact ⟨_, _, rfl, by decide⟩

end SettingsTree

namespace SettingsDocument

variable {d : SettingsDocument} {documents : List SettingsDocument}

theorem isUsable_iff : d.IsUsable ↔ ∃ tree, d.tree? = .ok tree := by
  rw [IsUsable, ← SettingsTree.exists_parse_iff, tree?]
  cases d.isBlank with
  | true => simp
  | false => cases SettingsTree.parse d.text <;> simp [Functor.map, Except.map]

/-- A document that cannot be used is reported under its name, in front of what is wrong with its
text. -/
theorem exists_of_tree?_error {failure : Failure} (h : d.tree? = .error failure) :
    ∃ inner cause, SettingsTree.parse d.text = .error (.settings inner cause) ∧
      failure = .settings ("document " ++ d.name ++ ": " ++ inner) cause := by
  rw [tree?] at h
  split at h
  · cases h
  · cases hparse : SettingsTree.parse d.text with
    | ok t =>
        rw [hparse] at h
        cases h
    | error reason =>
        obtain ⟨inner, cause, rfl, hinner⟩ := SettingsTree.eq_settings_of_parse hparse
        rw [hparse] at h
        cases h
        have hchain : Failure.chain ("document " ++ d.name) inner =
            "document " ++ d.name ++ ": " ++ inner := if_neg hinner
        exact ⟨inner, cause, rfl, congrArg (Failure.settings · cause) hchain⟩

/-- Where all documents can be used, their trees are those that the texts of the ones that are not
blank write. -/
theorem map_parse_filled (hread : ∀ d ∈ documents, ∃ tree, d.tree? = .ok tree) :
    (documents.filter fun d => !d.isBlank).map (fun d => SettingsTree.parse d.text) =
      (trees documents).map .ok := by
  induction documents with
  | nil => rfl
  | cons d rest ih =>
      obtain ⟨⟨tree, htree⟩, hrest⟩ := List.forall_mem_cons.1 hread
      cases tree with
      | none =>
          have hblank := tree?_eq_ok_none_iff.1 htree
          rw [trees_cons_of_blank htree, ← ih hrest, List.filter_cons_of_neg (by simp [hblank])]
      | some t =>
          obtain ⟨hblank, hparse⟩ := tree?_eq_ok_some_iff.1 htree
          rw [trees_cons_of_tree htree, List.filter_cons_of_pos (by simp [hblank]), List.map_cons,
            List.map_cons, hparse, ih hrest]

end SettingsDocument

/-! ### One document behind others -/

namespace Intake

variable {raised : Nat → Bool} {index : Nat} {before : List SettingsDocument}

/-- Documents that are read to the end leave the decision to those behind them. -/
theorem stopped_append (h : (ofDocuments raised index before).stopped = none)
    (after : List SettingsDocument) :
    (ofDocuments raised index (before ++ after)).stopped =
      (ofDocuments raised (index + before.length) after).stopped := by
  induction before generalizing index with
  | nil => rfl
  | cons d rest ih =>
      obtain ⟨hraised, hread⟩ := stopped_eq_none_iff.1 h
      obtain ⟨tree, htree⟩ := hread d List.mem_cons_self
      have hfirst : raised index = false := hraised 0 (Nat.succ_pos _)
      rw [ofDocuments_of_ok hfirst htree, stopped_add] at h
      rw [List.cons_append, ofDocuments_of_ok hfirst htree, stopped_add, ih h, List.length_cons,
        Nat.add_right_comm, Nat.add_assoc]

end Intake

namespace MergedSettings

open SettingsDocument

variable {raised : Nat → Bool} {documents before after : List SettingsDocument}
  {d : SettingsDocument}

theorem ofDocuments_of_stopped (hbefore : AllRead raised before) {stop : SettingsDocument × Failure}
    (h : (Intake.ofDocuments raised before.length (d :: after)).stopped = some stop) :
    ofDocuments raised (before ++ d :: after) = .error stop.2 := by
  have hread := stopped_eq_none_iff_allRead.2 hbefore
  rw [ofDocuments, ofIntake, Intake.stopped_append hread, Nat.zero_add, h]

/-- Either every document is read, or one of them is the first before which a stop is asked for or
that cannot be read. -/
theorem allRead_or_exists (raised : Nat → Bool) (documents : List SettingsDocument) :
    AllRead raised documents ∨ ∃ before d after, documents = before ++ d :: after ∧
      AllRead raised before ∧
      (raised before.length = true ∨
        raised before.length = false ∧ ∃ failure, d.tree? = .error failure) := by
  induction documents using List.reverseRecOn with
  | nil => exact .inl ⟨by simp, by simp⟩
  | append_singleton documents d ih =>
      rcases ih with hread | ⟨before, e, after, rfl, hread, hends⟩
      · cases hraised : raised documents.length with
        | true => exact .inr ⟨documents, d, [], rfl, hread, .inl hraised⟩
        | false =>
            cases htree : d.tree? with
            | error failure =>
                exact .inr ⟨documents, d, [], rfl, hread, .inr ⟨hraised, failure, htree⟩⟩
            | ok tree => exact .inl (allRead_append_singleton.2 ⟨hread, hraised, tree, htree⟩)
      · exact .inr ⟨before, e, after ++ [d], by simp, hread, hends⟩

theorem not_raised_of_allRead (h : AllRead raised before) (k : Nat) (e : SettingsDocument)
    (he : before[k]? = some e) : ¬raised k = true := by
  rw [h.1 k (List.getElem?_eq_some_iff.1 he).1]
  exact Bool.false_ne_true

theorem isUsable_of_allRead (h : AllRead raised before) (k : Nat) (e : SettingsDocument)
    (he : before[k]? = some e) : ¬¬e.IsUsable :=
  not_not_intro (isUsable_iff.2 (h.2 e (List.mem_of_getElem? he)))

/-- The three ways in which a merge ends, each with the document that decides. -/
theorem ofDocuments_cases (raised : Nat → Bool) (documents : List SettingsDocument) :
    (AllRead raised documents ∧ ofDocuments raised documents = .ok (ofRead documents)) ∨
    (∃ i, FirstStop raised documents i ∧ (∀ j, FirstUnusable documents j → i ≤ j) ∧
      ofDocuments raised documents = .error .cancelled) ∨
    ∃ j d inner cause, FirstUnusable documents j ∧ (∀ i, FirstStop raised documents i → j < i) ∧
      documents[j]? = some d ∧ SettingsTree.parse d.text = .error (.settings inner cause) ∧
      ofDocuments raised documents =
        .error (.settings ("document " ++ d.name ++ ": " ++ inner) cause) := by
  rcases allRead_or_exists raised documents with
    hread | ⟨before, d, after, rfl, hread, hraised | ⟨hraised, failure, hfailure⟩⟩
  · exact .inl ⟨hread, ofDocuments_eq_ok_iff.2 ⟨hread, rfl⟩⟩
  · refine .inr (.inl ⟨before.length, isFirst_length hraised (not_raised_of_allRead hread),
      fun j hj => hj.length_le (isUsable_of_allRead hread), ?_⟩)
    have hstopped := Intake.ofDocuments_of_raised (d := d) hraised after
    exact ofDocuments_of_stopped hread (congrArg Intake.stopped hstopped)
  · obtain ⟨inner, cause, hparse, rfl⟩ := exists_of_tree?_error hfailure
    have hunusable : ¬d.IsUsable := by
      rw [isUsable_iff, hfailure]
      simp
    refine .inr (.inr ⟨before.length, d, inner, cause,
      isFirst_length hunusable (isUsable_of_allRead hread), fun i hi => ?_, by simp, hparse, ?_⟩)
    · -- No stop is asked for before the document itself, so the first one comes later.
      refine Nat.lt_of_le_of_ne (hi.length_le (not_raised_of_allRead hread)) ?_
      rintro rfl
      obtain ⟨⟨_, -, hstop⟩, -⟩ := hi
      exact Bool.false_ne_true (hraised.symm.trans hstop)
    · have hstopped := Intake.ofDocuments_of_error hraised hfailure after
      exact ofDocuments_of_stopped hread (congrArg Intake.stopped hstopped)

/-- What a merge that goes to the end gives, told from the documents: the trees that the texts of
the ones that are not blank write are merged in order, and all texts are kept. -/
def MadeOf (merged : MergedSettings) (documents : List SettingsDocument) : Prop :=
  (∃ ts : List SettingsTree,
      (documents.filter fun d => !d.isBlank).map (fun d => SettingsTree.parse d.text) =
        ts.map .ok ∧ merged.tree = ts.foldl SettingsTree.merge []) ∧
    merged.rawContent = String.join (documents.map fun d => d.text ++ "\n") ∧
    merged.documentCount = (documents.filter fun d => !d.isBlank).length

theorem madeOf_ofRead (hread : ∀ d ∈ documents, ∃ tree, d.tree? = .ok tree) :
    (ofRead documents).MadeOf documents := by
  have hparse := map_parse_filled hread
  have hcount : (documents.filter fun d => !d.isBlank).length = (trees documents).length := by
    simpa using congrArg List.length hparse
  exact ⟨⟨trees documents, hparse, rfl⟩, rfl, hcount.symm⟩

theorem not_firstStop_of_allRead (h : AllRead raised documents) (i : Nat) :
    ¬FirstStop raised documents i :=
  fun ⟨⟨d, hd, hstop⟩, _⟩ => not_raised_of_allRead h i d hd hstop

theorem not_firstUnusable_of_allRead (h : AllRead raised documents) (j : Nat) :
    ¬FirstUnusable documents j :=
  fun ⟨⟨d, hd, hunusable⟩, _⟩ => isUsable_of_allRead h j d hd hunusable

/-- The documents up to the one that decides are merged with the same result, whatever follows. -/
theorem ofDocuments_take_append {k : Nat}
    (h : FirstStop raised documents k ∨ FirstUnusable documents k)
    (others : List SettingsDocument) :
    ofDocuments raised (documents.take (k + 1) ++ others) = ofDocuments raised documents := by
  have hnotRead : ¬AllRead raised (documents.take (k + 1)) := by
    intro hread
    have hget : (documents.take (k + 1))[k]? = documents[k]? :=
      List.getElem?_take_of_lt (Nat.lt_succ_self k)
    rcases h with ⟨⟨d, hd, hstop⟩, -⟩ | ⟨⟨d, hd, hunusable⟩, -⟩
    · exact not_raised_of_allRead hread k d (hget.trans hd) hstop
    · exact isUsable_of_allRead hread k d (hget.trans hd) hunusable
  cases hmerge : ofDocuments raised (documents.take (k + 1)) with
  | ok merged => exact absurd (ofDocuments_eq_ok_iff.1 hmerge).1 hnotRead
  | error failure =>
      have hall := ofDocuments_append_of_error hmerge (documents.drop (k + 1))
      rw [List.take_append_drop] at hall
      rw [ofDocuments_append_of_error hmerge, hall]

theorem ofDocuments_eq_cancelled_iff :
    ofDocuments raised documents = .error .cancelled ↔
      ∃ i, FirstStop raised documents i ∧ ∀ j, FirstUnusable documents j → i ≤ j := by
  constructor
  · intro hcancelled
    rcases ofDocuments_cases raised documents with
      ⟨-, hends⟩ | ⟨i, hi, hfirst, -⟩ | ⟨j, d, inner, cause, -, -, -, -, hends⟩
    · cases hends.symm.trans hcancelled
    · exact ⟨i, hi, hfirst⟩
    · cases hends.symm.trans hcancelled
  · rintro ⟨i, hi, hfirst⟩
    rcases ofDocuments_cases raised documents with
      ⟨hread, -⟩ | ⟨-, -, -, hends⟩ | ⟨j, d, inner, cause, hj, hbefore, -⟩
    · exact absurd hi (not_firstStop_of_allRead hread i)
    · exact hends
    · exact absurd (hbefore i hi) (Nat.not_lt_of_le (hfirst j hj))

/-- The context of a failure to use a document names the document, and the rest of it is that of the
failure to read its text. -/
theorem context_of_ofDocuments_eq_settings {j : Nat} {context : String} {cause : SettingsFault}
    (hj : FirstUnusable documents j) (hd : documents[j]? = some d)
    (h : ofDocuments raised documents = .error (.settings context cause)) :
    ∃ inner, SettingsTree.parse d.text = .error (.settings inner cause) ∧
      context = "document " ++ d.name ++ ": " ++ inner := by
  rcases ofDocuments_cases raised documents with
    ⟨-, hends⟩ | ⟨-, -, -, hends⟩ | ⟨j', d', inner, cause', hj', -, hd', hparse, hends⟩
  · cases hends.symm.trans h
  · cases hends.symm.trans h
  · obtain rfl := hj.unique hj'
    obtain rfl := Option.some.inj (hd.symm.trans hd')
    cases hends.symm.trans h
    exact ⟨inner, hparse, rfl⟩

theorem exists_ofDocuments_eq_settings_iff :
    (∃ context cause, ofDocuments raised documents = .error (.settings context cause)) ↔
      ∃ j, FirstUnusable documents j ∧ ∀ i, FirstStop raised documents i → j < i := by
  constructor
  · rintro ⟨context, cause, hfails⟩
    rcases ofDocuments_cases raised documents with
      ⟨-, hends⟩ | ⟨-, -, -, hends⟩ | ⟨j, d, inner, cause, hj, hbefore, -⟩
    · cases hends.symm.trans hfails
    · cases hends.symm.trans hfails
    · exact ⟨j, hj, hbefore⟩
  · rintro ⟨j, hj, hbefore⟩
    rcases ofDocuments_cases raised documents with
      ⟨hread, -⟩ | ⟨i, hi, hfirst, -⟩ | ⟨_, _, _, _, _, _, _, _, hends⟩
    · exact absurd hj (not_firstUnusable_of_allRead hread j)
    · exact absurd (hbefore i hi) (Nat.not_lt_of_le (hfirst j hj))
    · exact ⟨_, _, hends⟩

theorem exists_ofDocuments_eq_ok_iff :
    (∃ merged, ofDocuments raised documents = .ok merged) ↔
      (∀ i, ¬FirstStop raised documents i) ∧ ∀ j, ¬FirstUnusable documents j := by
  constructor
  · rintro ⟨merged, hmerge⟩
    obtain ⟨hread, -⟩ := ofDocuments_eq_ok_iff.1 hmerge
    exact ⟨not_firstStop_of_allRead hread, not_firstUnusable_of_allRead hread⟩
  · rintro ⟨hstop, hunusable⟩
    rcases ofDocuments_cases raised documents with
      ⟨-, hends⟩ | ⟨i, hi, -⟩ | ⟨j, -, -, -, hj, -⟩
    · exact ⟨_, hends⟩
    · exact absurd hi (hstop i)
    · exact absurd hj (hunusable j)

/-- A merge is stopped if a stop is asked for no later than before the first document that cannot be
used, and fails if that document comes earlier, with its name in the context; else it goes to the
end. What follows the document that decides does not count. When a stop is asked for is left open: a
flag that stays raised once it is raised is one case. -/
theorem ofDocuments_all_or_nothing (raised : Nat → Bool) (documents : List SettingsDocument) :
    (ofDocuments raised documents = .error .cancelled ↔
      ∃ i, FirstStop raised documents i ∧ ∀ j, FirstUnusable documents j → i ≤ j) ∧
    ((∃ context cause, ofDocuments raised documents = .error (.settings context cause)) ↔
      ∃ j, FirstUnusable documents j ∧ ∀ i, FirstStop raised documents i → j < i) ∧
    (∀ j d context cause, FirstUnusable documents j → documents[j]? = some d →
      ofDocuments raised documents = .error (.settings context cause) →
        ∃ inner, SettingsTree.parse d.text = .error (.settings inner cause) ∧
          context = "document " ++ d.name ++ ": " ++ inner) ∧
    ((∃ merged, ofDocuments raised documents = .ok merged) ↔
      (∀ i, ¬FirstStop raised documents i) ∧ ∀ j, ¬FirstUnusable documents j) ∧
    (∀ merged, ofDocuments raised documents = .ok merged → merged.MadeOf documents) ∧
    ∀ k, FirstStop raised documents k ∨ FirstUnusable documents k → ∀ others,
      ofDocuments raised (documents.take (k + 1) ++ others) = ofDocuments raised documents := by
  refine ⟨ofDocuments_eq_cancelled_iff, exists_ofDocuments_eq_settings_iff,
    fun _ _ _ _ hj hd => context_of_ofDocuments_eq_settings hj hd, exists_ofDocuments_eq_ok_iff,
    fun merged hmerge => ?_, fun _ => ofDocuments_take_append⟩
  obtain ⟨hread, rfl⟩ := ofDocuments_eq_ok_iff.1 hmerge
  exact madeOf_ofRead hread.2

/-! ### Four documents, the third of which is no object -/

def mixedDocuments : List SettingsDocument :=
  [⟨"blank", " \n"⟩, ⟨"empty", "\x7b\x7d"⟩, ⟨"list", "[1]"⟩, ⟨"torn", "\x7b"⟩]

theorem firstUnusable_mixedDocuments : FirstUnusable mixedDocuments 2 := by
  have hempty : (⟨"empty", "\x7b\x7d"⟩ : SettingsDocument).IsUsable :=
    isUsable_iff.2 ⟨_, rfl⟩
  have hblank : (⟨"blank", " \n"⟩ : SettingsDocument).IsUsable := .inl rfl
  have hlist : ¬(⟨"list", "[1]"⟩ : SettingsDocument).IsUsable := by
    rw [isUsable_iff]
    rintro ⟨tree, htree⟩
    cases htree
  refine ⟨⟨_, rfl, hlist⟩, fun k hk d hd => not_not_intro ?_⟩
  obtain rfl | rfl : k = 0 ∨ k = 1 := by omega
  · cases hd
    exact hblank
  · cases hd
    exact hempty

/-- A stop that is asked for before the third document or earlier wins, and the last document never
counts. -/
theorem ofDocuments_mixedDocuments :
    ofDocuments (fun i => 2 ≤ i) mixedDocuments = .error .cancelled ∧
      (∃ context cause, ofDocuments (fun i => 3 ≤ i) mixedDocuments =
        .error (.settings ("document list: " ++ context) cause)) ∧
      ofDocuments (fun i => 3 ≤ i) (mixedDocuments.take 3) =
        ofDocuments (fun i => 3 ≤ i) mixedDocuments := by
  have hunusable := firstUnusable_mixedDocuments
  refine ⟨?_, ?_, ?_⟩
  · have hstop : FirstStop (fun i => 2 ≤ i) mixedDocuments 2 :=
      ⟨⟨_, rfl, rfl⟩, fun k hk _ _ => by simpa using hk⟩
    refine (ofDocuments_all_or_nothing _ _).1.2 ⟨2, hstop, fun j hj => ?_⟩
    exact Nat.le_of_eq (hunusable.unique hj)
  · have hlate : ∀ i, FirstStop (fun i => 3 ≤ i) mixedDocuments i → 2 < i :=
      fun i ⟨⟨_, _, hi⟩, _⟩ => of_decide_eq_true hi
    obtain ⟨-, hfails, hcontext, -⟩ := ofDocuments_all_or_nothing (fun i => 3 ≤ i) mixedDocuments
    obtain ⟨context, cause, herror⟩ := hfails.2 ⟨2, hunusable, hlate⟩
    obtain ⟨inner, -, rfl⟩ := hcontext 2 _ context cause hunusable rfl herror
    exact ⟨inner, cause, herror⟩
  · obtain ⟨-, -, -, -, -, hrest⟩ := ofDocuments_all_or_nothing (fun i => 3 ≤ i) mixedDocuments
    have htake := hrest 2 (.inr hunusable) []
    rwa [List.append_nil] at htake

end MergedSettings

end SettingsBinding
