import SettingsBinding.Proofs.Equality
import SettingsBinding.Proofs.Merge.Sections
import SettingsBinding.Proofs.Settings.Documents

/-!
Which section supplies a setting. The sections under one key are put in an order of precedence: one
that has more keys than all before it together goes to the front, any other one to the back. As long
as no property is itself a section in two of them, uniting them is looking up each property along
this order: the first section that has it supplies its value.
-/

namespace SettingsBinding

namespace SettingsTree

open Setting

variable {t u s : SettingsTree} {key : String} {sections order : List SettingsTree}

def keyCount (sections : List SettingsTree) : Nat := (sections.flatMap keys).eraseDups.length

/-- Puts a section in front of the earlier ones if it has more keys than they have together, and
behind them otherwise. -/
def place (earlier : List SettingsTree) (s : SettingsTree) : List SettingsTree :=
  if keyCount earlier < s.size then s :: earlier else earlier ++ [s]

def precedence (sections : List SettingsTree) : List SettingsTree := sections.foldl place []

/-- Under no key do both trees hold a section. -/
def NoSharedSection (t u : SettingsTree) : Prop :=
  ∀ key, t.section? key = none ∨ u.section? key = none

/-- The tree is made up of the entries of some sections: its keys are theirs as they are first met,
and each key has the value that it has in the first section which holds it. -/
structure LeftUnion (t : SettingsTree) (order : List SettingsTree) : Prop where
  keys_eq : t.keys = (order.flatMap keys).eraseDups
  get?_eq : ∀ key, t.get? key = firstValue? order key

theorem get?_merge_of_noSharedSection (h : NoSharedSection t u) (key : String) :
    (merge t u).get? key = (t.get? key).or (u.get? key) := by
  cases ht : t.get? key with
  | none => rw [get?_merge_of_right ht, Option.none_or]
  | some value =>
      cases hu : u.get? key with
      | none => rw [get?_merge_of_left ht hu, Option.some_or]
      | some new =>
          have hjoin : join value new = value := by
            rcases h key with hleaf | hleaf
            · exact join_of_leaf_left ((section?_eq_none_iff_of_get? ht).1 hleaf) new
            · exact join_of_leaf_right value ((section?_eq_none_iff_of_get? hu).1 hleaf)
          rw [get?_merge_of_both ht hu, hjoin, Option.some_or]

theorem LeftUnion.nodup_keys (h : LeftUnion t order) : t.keys.Nodup :=
  h.keys_eq ▸ FirstMet.nodup_eraseDups _

theorem LeftUnion.size_eq (h : LeftUnion t order) : t.size = keyCount order := by
  rw [← size_keys, h.keys_eq, keyCount]

theorem LeftUnion.front (h : LeftUnion t order) (hs : s.keys.Nodup) (hno : NoSharedSection s t) :
    LeftUnion (merge s t) (s :: order) where
  keys_eq := by
    rw [keys_merge_eq_eraseDups hs h.nodup_keys, h.keys_eq, FirstMet.eraseDups_append_eraseDups,
      List.flatMap_cons]
  get?_eq key := by
    rw [get?_merge_of_noSharedSection hno, h.get?_eq, firstValue?_cons]

theorem LeftUnion.back (h : LeftUnion t order) (hs : s.keys.Nodup) (hno : NoSharedSection s t) :
    LeftUnion (merge t s) (order ++ [s]) where
  keys_eq := by
    rw [keys_merge_eq_eraseDups h.nodup_keys hs, h.keys_eq, FirstMet.eraseDups_eraseDups_append,
      List.flatMap_append, List.flatMap_singleton]
  get?_eq key := by
    have hno' : NoSharedSection t s := fun key => (hno key).symm
    rw [get?_merge_of_noSharedSection hno', h.get?_eq, firstValue?_append_singleton]

theorem precedence_append_singleton (sections : List SettingsTree) (s : SettingsTree) :
    precedence (sections ++ [s]) = place (precedence sections) s := List.foldl_append

theorem mem_precedence_iff : s ∈ precedence sections ↔ s ∈ sections := by
  induction sections using List.reverseRecOn with
  | nil => exact Iff.rfl
  | append_singleton sections last ih =>
      rw [precedence_append_singleton, place, List.mem_append, ← ih]
      split
      · rw [List.mem_cons, List.mem_singleton, or_comm]
      · rw [List.mem_append]

/-- What some sections make up has a section only where one of them has it. -/
theorem LeftUnion.noSharedSection (h : LeftUnion t (precedence sections))
    (hno : ∀ earlier ∈ sections, NoSharedSection earlier s) : NoSharedSection s t := by
  intro key
  cases hsection : t.section? key with
  | none => exact .inr rfl
  | some entries =>
      have hfirst := h.get?_eq key
      rw [section?_eq_some_iff.1 hsection] at hfirst
      obtain ⟨earlier, hmem, hentries⟩ := List.exists_of_findSome?_eq_some hfirst.symm
      refine .inl ((hno earlier (mem_precedence_iff.1 hmem) key).resolve_left ?_)
      rw [section?_eq_some_iff.2 hentries]
      exact Option.some_ne_none entries

/-- The larger section is merged into as the front one, in the same way as it is placed in front. -/
theorem leftUnion_uniteAll (hdistinct : ∀ s ∈ sections, s.keys.Nodup)
    (hno : sections.Pairwise NoSharedSection) :
    LeftUnion (uniteAll sections) (precedence sections) := by
  induction sections using List.reverseRecOn with
  | nil => exact ⟨rfl, fun _ => rfl⟩
  | append_singleton sections s ih =>
      obtain ⟨hsections, hs⟩ := List.forall_mem_append.1 hdistinct
      obtain ⟨hearlier, -, hlast⟩ := List.pairwise_append.1 hno
      have hunion := ih hsections hearlier
      have hkeys : s.keys.Nodup := hs s (List.mem_singleton_self s)
      have hfree : NoSharedSection s (uniteAll sections) :=
        hunion.noSharedSection fun earlier hmem => hlast earlier hmem s (List.mem_singleton_self s)
      rw [uniteAll_append_singleton, precedence_append_singleton, unite, place, hunion.size_eq]
      split
      · exact hunion.front hkeys hfree
      · exact hunion.back hkeys hfree

/-- Leaving out a tree that has no section under a key does not matter where the first tree that
holds the key has one. -/
theorem get?_mergeAll_leave_out {before after : List SettingsTree} {first : SettingsTree}
    (hfirst : firstValue? (before ++ t :: after) key = some (tree first))
    (hleaf : t.section? key = none) :
    (mergeAll (before ++ after)).get? key = (mergeAll (before ++ t :: after)).get? key := by
  have hsame : firstValue? (before ++ after) key = some (tree first) := by
    rw [firstValue?_append, firstValue?_cons] at hfirst
    rw [firstValue?_append]
    cases hbefore : firstValue? before key with
    | some value => rwa [hbefore] at hfirst
    | none =>
        cases hvalue : t.get? key with
        | none => rwa [hbefore, hvalue] at hfirst
        | some value =>
            -- The tree would be the first one that holds the key, and with a leaf.
            rw [hbefore, hvalue] at hfirst
            cases hfirst
            cases (section?_eq_none_iff_of_get? hvalue).1 hleaf
  have hsections : sectionsUnder (before ++ t :: after) key = sectionsUnder (before ++ after) key := by
    rw [sectionsUnder_append, sectionsUnder_append, sectionsUnder_cons, hleaf]
    rfl
  rw [get?_mergeAll_of_tree hsame, get?_mergeAll_of_tree hfirst, hsections]

end SettingsTree

namespace SettingsDocument

open Setting SettingsTree
open MergedSettings (ofDocuments ofRead ofDocuments_eq_ok_iff)

variable {raised : Nat → Bool} {documents : List SettingsDocument} {merged : MergedSettings}
  {key : String}

theorem nodup_keys_of_mem_sectionsUnder {s : SettingsTree}
    (h : s ∈ sectionsUnder (trees documents) key) : s.keys.Nodup := by
  obtain ⟨t, ht, hs⟩ := mem_sectionsUnder_iff.1 h
  have hunique := (uniqueKeys_tree_iff.1 (uniqueKeys_of_mem_trees ht)).2 key _ hs
  exact (uniqueKeys_tree_iff.1 hunique).1

theorem allRead_leave_out {before after : List SettingsDocument} {d : SettingsDocument}
    (h : AllRead raised (before ++ d :: after)) : AllRead raised (before ++ after) := by
  refine ⟨fun i hi => h.1 i ?_, fun other hother => h.2 other ?_⟩
  · simp only [List.length_append, List.length_cons] at hi ⊢
    omega
  · simp only [List.mem_append, List.mem_cons] at hother ⊢
    tauto

/-- Where the first document that holds a key has a section there, the merged section has the keys
of all sections there in their order of precedence, each with its value in the first of them that
has it, if no property is a section in two of them. A document that holds a leaf under the key may
be left out. -/
theorem merged_section_of_precedence (h : ofDocuments raised documents = .ok merged)
    {first : SettingsTree} (hfirst : firstValue? (trees documents) key = some (tree first)) :
    ((sectionsUnder (trees documents) key).Pairwise NoSharedSection →
      ∃ entries : SettingsTree, merged.tree.get? key = some (tree entries) ∧
        (∀ property, entries.get? property =
          (precedence (sectionsUnder (trees documents) key)).findSome? fun s => s.get? property) ∧
        entries.keys =
          ((precedence (sectionsUnder (trees documents) key)).flatMap keys).eraseDups) ∧
    ∀ before d after t value, documents = before ++ d :: after → d.tree? = .ok (some t) →
      t.get? key = some value → value.isTree = false →
      ∃ without, ofDocuments raised (before ++ after) = .ok without ∧
        without.tree.get? key = merged.tree.get? key := by
  obtain ⟨hread, rfl⟩ := ofDocuments_eq_ok_iff.1 h
  constructor
  · intro hno
    have hunion := leftUnion_uniteAll (fun s => nodup_keys_of_mem_sectionsUnder) hno
    exact ⟨_, get?_mergeAll_of_tree hfirst, hunion.get?_eq, hunion.keys_eq⟩
  · rintro before d after t value rfl htree hvalue hleaf
    refine ⟨_, ofDocuments_eq_ok_iff.2 ⟨allRead_leave_out hread, rfl⟩, ?_⟩
    have hnone := (section?_eq_none_iff_of_get? hvalue).2 hleaf
    rw [trees_append, trees_cons_of_tree htree] at hfirst
    rw [ofRead, ofRead, trees_append, trees_append, trees_cons_of_tree htree]
    exact get?_mergeAll_leave_out hfirst hnone

/-! ### Three sections and a number under one key -/

/-- The last section is larger than what the two before it make up, which have two keys each and
share one. -/
def hostTrees : List SettingsTree :=
  [[("Db", tree [("Host", .string "a"), ("Mode", .string "x")])],
    [("Db", .number (.integer 5))],
    [("Db", tree [("Mode", .string "y"), ("Port", .number (.integer 1))])],
    [("Db", tree [("Host", .string "b"), ("Port", .number (.integer 2)), ("Name", .string "n"),
      ("Pool", tree [("Min", .number (.integer 1))])])]]

def hostDocuments : List SettingsDocument := hostTrees.map (ofTree "appsettings.json")

theorem map_tree?_hostDocuments :
    hostDocuments.map tree? = hostTrees.map fun t => .ok (some t) := by
  decide +kernel

theorem pairwise_noSharedSection_hostTrees :
    (sectionsUnder hostTrees "Db").Pairwise NoSharedSection := by
  have hleaves {entries : SettingsTree} (h : ∀ e ∈ entries, e.2.isTree = false) (key : String) :
      entries.section? key = none := by
    cases hvalue : entries.get? key with
    | none => rw [section?, hvalue, Option.bind_none]
    | some value =>
        exact (section?_eq_none_iff_of_get? hvalue).2 (h _ (Entries.mem_of_lookup_eq_some hvalue))
  -- Of the three sections only the last one holds a section itself.
  refine .cons ?_ (.cons ?_ (List.pairwise_singleton _ _))
  · exact fun _ _ key => .inl (hleaves (by decide) key)
  · exact fun _ _ key => .inl (hleaves (by decide) key)

theorem merged_section_of_hosts :
    ∃ merged entries, ofDocuments (fun _ => false) hostDocuments = .ok merged ∧
      merged.tree.get? "Db" = some (tree entries) ∧
      SettingsTree.keys entries = ["Host", "Port", "Name", "Pool", "Mode"] ∧
      SettingsTree.get? entries "Host" = some (.string "b") ∧
      SettingsTree.get? entries "Mode" = some (.string "x") := by
  have hmerge := MergedSettings.ofDocuments_of_map_tree? map_tree?_hostDocuments
  have htrees := trees_of_map_tree? map_tree?_hostDocuments
  have hfirst : firstValue? (trees hostDocuments) "Db" =
      some (tree [("Host", .string "a"), ("Mode", .string "x")]) := by
    rw [htrees]
    rfl
  obtain ⟨hsection, -⟩ := merged_section_of_precedence hmerge hfirst
  rw [htrees] at hsection
  obtain ⟨entries, hentries, hvalues, hkeys⟩ := hsection pairwise_noSharedSection_hostTrees
  exact ⟨_, entries, hmerge, hentries, hkeys, hvalues "Host", hvalues "Mode"⟩

end SettingsDocument

end SettingsBinding
