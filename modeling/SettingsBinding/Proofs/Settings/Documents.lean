import SettingsBinding.Json.Printer
import SettingsBinding.Proofs.Merge.UniqueKeys
import SettingsBinding.Proofs.Steps
import SettingsBinding.Settings.Merged

/-!
Merging documents. A merge succeeds where no stop is asked for and every document can be read; its
tree is then the trees of the documents that are not blank, merged in order.
-/

namespace SettingsBinding

namespace SettingsDocument

def ofTree (name : String) (t : SettingsTree) : SettingsDocument := ⟨name, t.toJson.compact⟩

def trees (documents : List SettingsDocument) : List SettingsTree :=
  documents.filterMap fun d => d.tree?.toOption.join

/-- No stop is asked for before any of the documents, and each of them can be read. -/
def AllRead (raised : Nat → Bool) (documents : List SettingsDocument) : Prop :=
  (∀ i < documents.length, raised i = false) ∧ ∀ d ∈ documents, ∃ tree, d.tree? = .ok tree

theorem allRead_append_singleton {raised : Nat → Bool} {documents : List SettingsDocument}
    {d : SettingsDocument} :
    AllRead raised (documents ++ [d]) ↔
      AllRead raised documents ∧ raised documents.length = false ∧ ∃ tree, d.tree? = .ok tree := by
  have hlast : (∀ i < (documents ++ [d]).length, raised i = false) ↔
      (∀ i < documents.length, raised i = false) ∧ raised documents.length = false := by
    rw [List.length_append, List.length_singleton, Nat.forall_lt_succ_right]
  rw [AllRead, AllRead, hlast, List.forall_mem_append, List.forall_mem_singleton]
  exact and_and_and_comm

theorem trees_append (documents others : List SettingsDocument) :
    trees (documents ++ others) = trees documents ++ trees others :=
  List.filterMap_append

theorem trees_cons_of_tree {d : SettingsDocument} {t : SettingsTree} (h : d.tree? = .ok (some t))
    (documents : List SettingsDocument) : trees (d :: documents) = t :: trees documents := by
  simp [trees, h, Except.toOption]

theorem trees_of_map_tree? {documents : List SettingsDocument} {ts : List SettingsTree}
    (h : documents.map tree? = ts.map fun t => .ok (some t)) : trees documents = ts := by
  have hmap : trees documents =
      (documents.map tree?).filterMap fun found => found.toOption.join := by
    rw [List.filterMap_map]
    rfl
  rw [hmap, h, List.filterMap_map]
  exact List.filterMap_some

theorem trees_cons_of_blank {d : SettingsDocument} (h : d.tree? = .ok none)
    (documents : List SettingsDocument) : trees (d :: documents) = trees documents := by
  simp [trees, h, Except.toOption]

theorem tree?_eq_ok_none_iff {d : SettingsDocument} : d.tree? = .ok none ↔ d.isBlank := by
  rw [tree?]
  split
  · simp [*]
  · cases SettingsTree.parse d.text <;> simp [*, Functor.map, Except.map]

theorem tree?_eq_ok_some_iff {d : SettingsDocument} {t : SettingsTree} :
    d.tree? = .ok (some t) ↔ d.isBlank = false ∧ SettingsTree.parse d.text = .ok t := by
  rw [tree?]
  split
  · simp [*]
  · cases SettingsTree.parse d.text <;> simp [*, Functor.map, Except.map]

theorem mem_trees_iff {documents : List SettingsDocument} {t : SettingsTree} :
    t ∈ trees documents ↔ ∃ d ∈ documents, d.tree? = .ok (some t) := by
  rw [trees, List.mem_filterMap]
  refine exists_congr fun d => and_congr_right fun _ => ?_
  cases d.tree? with
  | error failure => simp [Except.toOption]
  | ok found => simp [Except.toOption]

theorem uniqueKeys_of_mem_trees {documents : List SettingsDocument} {t : SettingsTree}
    (h : t ∈ trees documents) : (Setting.tree t).UniqueKeys := by
  obtain ⟨d, -, hd⟩ := mem_trees_iff.1 h
  exact SettingsTree.uniqueKeys_of_parse (tree?_eq_ok_some_iff.1 hd).2

theorem nodup_keys_of_mem_trees {documents : List SettingsDocument} {t : SettingsTree}
    (h : t ∈ trees documents) : t.keys.Nodup :=
  (Setting.uniqueKeys_tree_iff.1 (uniqueKeys_of_mem_trees h)).1

end SettingsDocument

namespace Intake

variable {raised : Nat → Bool} {index : Nat} {d : SettingsDocument}

@[simp] theorem stopped_add (tree : Option SettingsTree) (rest : Intake) :
    (add d tree rest).stopped = rest.stopped := rfl

@[simp] theorem read_add (tree : Option SettingsTree) (rest : Intake) :
    (add d tree rest).read = (d, tree) :: rest.read := rfl

@[simp] theorem trees_add_none (rest : Intake) : (add d none rest).trees = rest.trees := rfl

@[simp] theorem trees_add_some (t : SettingsTree) (rest : Intake) :
    (add d (some t) rest).trees = t :: rest.trees := rfl

theorem ofDocuments_of_raised (h : raised index = true) (rest : List SettingsDocument) :
    ofDocuments raised index (d :: rest) = ⟨[], some (d, .cancelled)⟩ := by
  rw [ofDocuments, h]
  rfl

theorem ofDocuments_of_error (h : raised index = false) {failure : Failure}
    (hread : d.tree? = .error failure) (rest : List SettingsDocument) :
    ofDocuments raised index (d :: rest) = ⟨[], some (d, failure)⟩ := by
  rw [ofDocuments, h, hread]
  rfl

theorem ofDocuments_of_ok (h : raised index = false) {tree : Option SettingsTree}
    (hread : d.tree? = .ok tree) (rest : List SettingsDocument) :
    ofDocuments raised index (d :: rest) = add d tree (ofDocuments raised (index + 1) rest) := by
  rw [ofDocuments, h, hread]
  rfl

/-- Reading goes to the end exactly where no stop is asked for and every document can be read. -/
theorem stopped_eq_none_iff {documents : List SettingsDocument} :
    (ofDocuments raised index documents).stopped = none ↔
      (∀ i < documents.length, raised (index + i) = false) ∧
        ∀ d ∈ documents, ∃ tree, d.tree? = .ok tree := by
  induction documents generalizing index with
  | nil => simp [ofDocuments]
  | cons d rest ih =>
      -- The document at the front has the index that the walk is at, and the rest starts behind it.
      have hshift : (∀ i < (d :: rest).length, raised (index + i) = false) ↔
          raised index = false ∧ ∀ i < rest.length, raised (index + 1 + i) = false := by
        rw [List.length_cons, Nat.forall_lt_succ_left]
        simp only [Nat.add_zero, Nat.add_assoc, Nat.add_comm 1]
      rw [hshift, List.forall_mem_cons]
      cases hraised : raised index with
      | true => simp [ofDocuments_of_raised hraised]
      | false =>
          cases hread : d.tree? with
          | error failure => simp [ofDocuments_of_error hraised hread]
          | ok tree => simp [ofDocuments_of_ok hraised hread, ih]

/-- Without a stop, the first document that cannot be read ends the reading. -/
theorem stopped_eq_findSome? (index : Nat) (documents : List SettingsDocument) :
    (ofDocuments (fun _ => false) index documents).stopped.map Prod.snd =
      documents.findSome? fun d => Steps.error? d.tree? := by
  induction documents generalizing index with
  | nil => rfl
  | cons d rest ih =>
      rw [List.findSome?_cons]
      cases hread : d.tree? with
      | error failure => rw [ofDocuments_of_error rfl hread, Steps.error?_error, Option.map_some]
      | ok tree => rw [ofDocuments_of_ok rfl hread, stopped_add, ih, Steps.error?_ok]

/-- What ends the reading early ends it as well where more documents follow. -/
theorem ofDocuments_append_of_stopped {documents : List SettingsDocument}
    {stop : SettingsDocument × Failure} (others : List SettingsDocument)
    (h : (ofDocuments raised index documents).stopped = some stop) :
    ofDocuments raised index (documents ++ others) = ofDocuments raised index documents := by
  induction documents generalizing index with
  | nil => cases h
  | cons d rest ih =>
      rw [List.cons_append]
      cases hraised : raised index with
      | true => rw [ofDocuments_of_raised hraised, ofDocuments_of_raised hraised]
      | false =>
          cases hread : d.tree? with
          | error failure =>
              rw [ofDocuments_of_error hraised hread, ofDocuments_of_error hraised hread]
          | ok tree =>
              rw [ofDocuments_of_ok hraised hread] at h ⊢
              rw [ofDocuments_of_ok hraised hread, ih h]

theorem read_of_stopped_eq_none {documents : List SettingsDocument}
    (h : (ofDocuments raised index documents).stopped = none) :
    (ofDocuments raised index documents).read.map Prod.fst = documents ∧
      (ofDocuments raised index documents).trees = SettingsDocument.trees documents := by
  induction documents generalizing index with
  | nil => exact ⟨rfl, rfl⟩
  | cons d rest ih =>
      obtain ⟨hraised, hread⟩ := stopped_eq_none_iff.1 h
      obtain ⟨tree, htree⟩ := hread d List.mem_cons_self
      have hfirst : raised index = false := hraised 0 (Nat.succ_pos _)
      have hstep := ofDocuments_of_ok hfirst htree rest
      rw [hstep, stopped_add] at h
      obtain ⟨hdocuments, htrees⟩ := ih h
      rw [hstep, read_add, List.map_cons, hdocuments]
      refine ⟨rfl, ?_⟩
      cases tree with
      | none => rw [trees_add_none, htrees, SettingsDocument.trees_cons_of_blank htree]
      | some t => rw [trees_add_some, htrees, SettingsDocument.trees_cons_of_tree htree]

end Intake

namespace MergedSettings

open SettingsDocument

def ofRead (documents : List SettingsDocument) : MergedSettings where
  tree := SettingsTree.mergeAll (trees documents)
  rawContent := String.join (documents.map fun d => d.text ++ "\n")
  documentCount := (trees documents).length

theorem stopped_eq_none_iff_allRead {raised : Nat → Bool} {documents : List SettingsDocument} :
    (Intake.ofDocuments raised 0 documents).stopped = none ↔ AllRead raised documents := by
  rw [Intake.stopped_eq_none_iff, AllRead]
  simp only [Nat.zero_add]

theorem ofDocuments_eq_ok_iff {raised : Nat → Bool} {documents : List SettingsDocument}
    {merged : MergedSettings} :
    ofDocuments raised documents = .ok merged ↔
      AllRead raised documents ∧ merged = ofRead documents := by
  rw [← stopped_eq_none_iff_allRead, ofDocuments, ofIntake]
  cases h : (Intake.ofDocuments raised 0 documents).stopped with
  | some stop => simp
  | none =>
      obtain ⟨hdocuments, htrees⟩ := Intake.read_of_stopped_eq_none h
      have hraw : (Intake.ofDocuments raised 0 documents).read.map (fun e => e.1.text ++ "\n") =
          ((Intake.ofDocuments raised 0 documents).read.map Prod.fst).map
            fun d => d.text ++ "\n" := by
        rw [List.map_map]
        rfl
      rw [hdocuments] at hraw
      rw [htrees, hraw]
      simp [ofRead, eq_comm]

theorem error?_ofDocuments (documents : List SettingsDocument) :
    Steps.error? (ofDocuments (fun _ => false) documents) =
      documents.findSome? fun d => Steps.error? d.tree? := by
  rw [← Intake.stopped_eq_findSome? 0, ofDocuments, ofIntake]
  cases (Intake.ofDocuments (fun _ => false) 0 documents).stopped <;> rfl

/-- Documents that write some trees are merged if no stop is asked for. -/
theorem ofDocuments_of_map_tree? {documents : List SettingsDocument} {ts : List SettingsTree}
    (h : documents.map tree? = ts.map fun t => .ok (some t)) :
    ofDocuments (fun _ => false) documents = .ok (ofRead documents) := by
  refine ofDocuments_eq_ok_iff.2 ⟨⟨fun _ _ => rfl, fun d hd => ?_⟩, rfl⟩
  have hmem : d.tree? ∈ documents.map tree? := List.mem_map_of_mem hd
  rw [h] at hmem
  obtain ⟨t, -, ht⟩ := List.mem_map.1 hmem
  exact ⟨some t, ht.symm⟩

theorem ofDocuments_append_of_error {raised : Nat → Bool} {documents : List SettingsDocument}
    {failure : Failure} (h : ofDocuments raised documents = .error failure)
    (others : List SettingsDocument) :
    ofDocuments raised (documents ++ others) = .error failure := by
  rw [ofDocuments, ofIntake] at h
  cases hstopped : (Intake.ofDocuments raised 0 documents).stopped with
  | none =>
      rw [hstopped] at h
      cases h
  | some stop =>
      rw [hstopped] at h
      rw [ofDocuments, Intake.ofDocuments_append_of_stopped others hstopped, ofIntake, hstopped]
      exact h

end MergedSettings

end SettingsBinding
