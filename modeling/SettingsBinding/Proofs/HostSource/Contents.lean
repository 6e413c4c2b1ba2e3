import SettingsBinding.Proofs.Classes.Extraction
import SettingsBinding.Proofs.FirstMet
import SettingsBinding.Proofs.HostSource.Reading

/-!
What the source of the host class says of a class map. It names the host, it has every other class
once and in order, and it imports the namespaces that these need. All of it is in the text: names
without white space come back when the text is read.
-/

namespace SettingsBinding

namespace ClassMap

variable {classes : ClassMap} {hostKey : String}

/-- No key, class name or namespace holds white space. -/
def Spaceless (classes : ClassMap) : Prop :=
  ∀ e ∈ classes, Text.Spaceless e.1 ∧ Text.Spaceless e.2.className ∧ Text.Spaceless e.2.nameSpace

theorem mem_bound_iff {e : String × ConfigurationClass} :
    e ∈ classes.bound hostKey ↔ e ∈ classes ∧ e.1 ≠ hostKey := by
  rw [bound, List.mem_filter, bne_iff_ne]

end ClassMap

namespace HostSource

variable {hostKey : String} {classes : ClassMap} {source : HostSource}

theorem firstOccurrences_eq_eraseDups (l : List String) : firstOccurrences l = l.eraseDups := by
  induction l with
  | nil => rfl
  | cons s rest ih =>
      rw [firstOccurrences, ih, List.eraseDups_cons, ← FirstMet.eraseDups_filter]
      rfl

structure Describes (source : HostSource) (classes : ClassMap) (hostKey : String)
    (host : ConfigurationClass) : Prop where
  className_eq : source.className = host.className
  nameSpace_eq : source.nameSpace = host.nameSpace
  sections_eq : source.sections =
    (classes.filter fun e => e.1 ≠ hostKey).map fun e => (e.2.className, e.1)
  distinct : (source.sections.map Prod.snd).Nodup
  host_notMem : hostKey ∉ source.sections.map Prod.snd
  imports_eq : source.imports =
    (((classes.filter fun e => e.1 ≠ hostKey).map fun e => e.2.nameSpace).filter fun n =>
      n ≠ "" ∧ n ≠ host.nameSpace).eraseDups
  inScope (key : String) (c : ConfigurationClass) (h : (key, c) ∈ classes) (hkey : key ≠ hostKey) :
    c.nameSpace = "" ∨ c.nameSpace = host.nameSpace ∨ c.nameSpace ∈ source.imports

theorem ofClasses?_eq_none_iff : ofClasses? hostKey classes = none ↔ hostKey ∉ classes.keys := by
  rw [ofClasses?, Option.map_eq_none_iff, ClassMap.get?, Entries.lookup_eq_none_iff]
  rfl

theorem describes_of_ofClasses? (distinct : classes.keys.Nodup)
    (h : ofClasses? hostKey classes = some source) :
    ∃ host, classes.get? hostKey = some host ∧ source.Describes classes hostKey host := by
  obtain ⟨host, hhost, rfl⟩ := Option.map_eq_some_iff.1 h
  have hbound : classes.bound hostKey = classes.filter fun e => e.1 ≠ hostKey :=
    List.filter_congr fun e _ => by rw [bne, decide_not, beq_eq_decide]
  have himports : firstOccurrences (((classes.bound hostKey).map fun e => e.2.nameSpace).filter
      fun n => n != "" && n != host.nameSpace) =
      ((((classes.filter fun e => e.1 ≠ hostKey).map fun e => e.2.nameSpace).filter fun n =>
        n ≠ "" ∧ n ≠ host.nameSpace).eraseDups) := by
    rw [firstOccurrences_eq_eraseDups, hbound]
    refine congrArg List.eraseDups (List.filter_congr fun n _ => ?_)
    simp [bne, beq_eq_decide]
  refine ⟨host, hhost, rfl, rfl, by rw [← hbound], ?_, ?_, himports, ?_⟩
  · rw [List.map_map]
    exact distinct.sublist (List.filter_sublist.map Prod.fst)
  · rw [List.map_map]
    intro hmem
    obtain ⟨e, he, hkey⟩ := List.mem_map.1 hmem
    exact (ClassMap.mem_bound_iff.1 he).2 hkey
  · intro key c hc hkey
    rw [or_iff_not_imp_left, or_iff_not_imp_left]
    intro hempty hother
    dsimp only
    rw [himports, List.mem_eraseDups, List.mem_filter, List.mem_map]
    exact ⟨⟨(key, c), List.mem_filter.2 ⟨hc, by simpa using hkey⟩, rfl⟩, by simp [hempty, hother]⟩

theorem spaceless_of_ofClasses? (hnames : classes.Spaceless)
    (h : ofClasses? hostKey classes = some source) : source.Spaceless := by
  obtain ⟨host, hhost, rfl⟩ := Option.map_eq_some_iff.1 h
  obtain ⟨-, hclassName, hnameSpace⟩ := hnames _ (Entries.mem_of_lookup_eq_some hhost)
  refine ⟨hclassName, hnameSpace, fun n hn => ?_, fun s hs => ?_⟩
  · dsimp only at hn
    rw [firstOccurrences_eq_eraseDups, List.mem_eraseDups] at hn
    obtain ⟨e, he, rfl⟩ := List.mem_map.1 (List.mem_of_mem_filter hn)
    exact (hnames e (ClassMap.mem_bound_iff.1 he).1).2.2
  · obtain ⟨e, he, rfl⟩ := List.mem_map.1 hs
    obtain ⟨hkey, hclass, -⟩ := hnames e (ClassMap.mem_bound_iff.1 he).1
    exact ⟨hclass, hkey⟩

/-- A class map has a host source exactly if it has the host. The source comes back from its text
where no name holds white space, so class maps with the same text have the same source. -/
theorem text_determines_source (hostKey : String) (width : Nat) :
    (∀ classes : ClassMap, ofClasses? hostKey classes = none ↔ hostKey ∉ classes.keys) ∧
    (∀ classes : ClassMap, classes.keys.Nodup → classes.Spaceless → hostKey ∈ classes.keys →
      ∃ host source, classes.get? hostKey = some host ∧ ofClasses? hostKey classes = some source ∧
        ofText? width (source.text width) = some source ∧
        source.Describes classes hostKey host) ∧
    ∀ (first second : ClassMap) (source source' : HostSource),
      first.Spaceless → second.Spaceless →
      ofClasses? hostKey first = some source → ofClasses? hostKey second = some source' →
      source.text width = source'.text width →
      source.className = source'.className ∧ source.nameSpace = source'.nameSpace ∧
        source.imports = source'.imports ∧ source.sections = source'.sections := by
  refine ⟨fun _ => ofClasses?_eq_none_iff, fun classes distinct hnames hmem => ?_,
    fun first second source source' hfirst hsecond hsource hsource' htext => ?_⟩
  · cases hsource : ofClasses? hostKey classes with
    | none => exact absurd hmem (ofClasses?_eq_none_iff.1 hsource)
    | some source =>
        obtain ⟨host, hhost, hdescribes⟩ := describes_of_ofClasses? distinct hsource
        have hread := ofText?_text (spaceless_of_ofClasses? hnames hsource) width
        exact ⟨host, source, hhost, rfl, hread, hdescribes⟩
  · have hread := ofText?_text (spaceless_of_ofClasses? hfirst hsource) width
    have hread' := ofText?_text (spaceless_of_ofClasses? hsecond hsource') width
    rw [htext, hread'] at hread
    obtain rfl := Option.some.inj hread
    exact ⟨rfl, rfl, rfl, rfl⟩

/-! ### A host in a namespace -/

/-- Two classes share a namespace, one is in that of the host and one in none. -/
def shopClasses : ClassMap :=
  [("Db", ⟨"DbConfiguration", "Data", []⟩), ("Host", ⟨"HostConfiguration", "App", []⟩),
    ("Log", ⟨"LogConfiguration", "App", []⟩), ("Queue", ⟨"QueueConfiguration", "Data", []⟩),
    ("Cache", ⟨"CacheConfiguration", "", []⟩)]

def shopSource : HostSource :=
  ⟨"HostConfiguration", "App", ["Data"], [("DbConfiguration", "Db"), ("LogConfiguration", "Log"),
    ("QueueConfiguration", "Queue"), ("CacheConfiguration", "Cache")]⟩

theorem text_determines_source_shop :
    shopClasses.keys.Nodup ∧ shopClasses.Spaceless ∧
      ofClasses? "Host" shopClasses = some shopSource ∧
      ofText? 2 (shopSource.text 2) = some shopSource ∧
      shopSource.Describes shopClasses "Host" ⟨"HostConfiguration", "App", []⟩ ∧
      ofClasses? "Web" shopClasses = none := by
  have distinct : shopClasses.keys.Nodup := by
    decide +kernel
  have hnames : shopClasses.Spaceless := by
    simp [shopClasses, ClassMap.Spaceless, Text.Spaceless, Text.isWhiteSpace, Text.whiteSpaceRanges]
  have hshop : ofClasses? "Host" shopClasses = some shopSource := by
    decide +kernel
  have hget : shopClasses.get? "Host" = some ⟨"HostConfiguration", "App", []⟩ := by
    decide +kernel
  obtain ⟨-, hsource, -⟩ := text_determines_source "Host" 2
  obtain ⟨host, source, hhost, hfound, hread, hdescribes⟩ :=
    hsource shopClasses distinct hnames (by decide +kernel)
  obtain rfl : shopSource = source := Option.some.inj (hshop.symm.trans hfound)
  obtain rfl : (⟨"HostConfiguration", "App", []⟩ : ConfigurationClass) = host :=
    Option.some.inj (hget.symm.trans hhost)
  obtain ⟨hnone, -⟩ := text_determines_source "Web" 2
  exact ⟨distinct, hnames, hshop, hread, hdescribes, (hnone _).2 (by decide +kernel)⟩

end HostSource

end SettingsBinding
