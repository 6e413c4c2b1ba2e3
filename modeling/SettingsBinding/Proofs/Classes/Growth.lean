import SettingsBinding.Proofs.Classes.Extraction
import SettingsBinding.Proofs.FirstMet

/-!
What is found in a program, and what more of the program adds to it. Types and getters are taken in
order, and of those with one name the first that can be used counts. So whatever comes later adds
entries behind those that are there, and leaves them as they are.
-/

namespace SettingsBinding

namespace Entries

variable {α β : Type}

theorem keys_cons (key : String) (value : α) (rest : List (String × α)) :
    Json.keys ((key, value) :: rest) = key :: Json.keys rest := rfl

theorem keys_map_values (f : α → β) (entries : List (String × α)) :
    Json.keys (entries.map fun e => (e.1, f e.2)) = Json.keys entries := by
  simp [Json.keys]

theorem keys_filter (p : String → Bool) (entries : List (String × α)) :
    Json.keys (entries.filter fun e => p e.1) = (Json.keys entries).filter p := by
  rw [Json.keys, Json.keys, List.filter_map]
  rfl

theorem keys_firstEntries (entries : List (String × α)) :
    Json.keys (firstEntries entries) = (Json.keys entries).eraseDups := by
  induction entries with
  | nil => rfl
  | cons e rest ih =>
      rcases e with ⟨k, value⟩
      have hrest : Json.keys ((firstEntries rest).filter fun e => e.1 != k) =
          ((Json.keys rest).filter (· != k)).eraseDups := by
        rw [keys_filter (· != k), ih, FirstMet.eraseDups_filter]
      rw [keys_cons, List.eraseDups_cons]
      exact congrArg (k :: ·) hrest

theorem mem_keys_firstEntries {entries : List (String × α)} {key : String} :
    key ∈ Json.keys (firstEntries entries) ↔ key ∈ Json.keys entries := by
  rw [keys_firstEntries, List.mem_eraseDups]

/-- Of two lists one behind the other, the second one adds the entries of the keys that the first
one does not have. -/
theorem firstEntries_append (entries others : List (String × α)) :
    firstEntries (entries ++ others) =
      firstEntries entries ++
        (firstEntries others).filter fun e => decide (e.1 ∉ Json.keys entries) := by
  induction entries with
  | nil => simp [firstEntries, Json.keys]
  | cons e rest ih =>
      rcases e with ⟨k, value⟩
      have hkeys (key : String) : (key != k && decide (key ∉ Json.keys rest)) =
          decide (key ∉ Json.keys ((k, value) :: rest)) := by
        rw [Bool.eq_iff_iff, Bool.and_eq_true, bne_iff_ne, decide_eq_true_iff, decide_eq_true_iff,
          keys_cons, List.mem_cons, not_or]
      rw [List.cons_append, firstEntries, firstEntries, ih, List.filter_append, List.filter_filter,
        List.cons_append]
      simp only [hkeys]

end Entries

/-! ### The properties of a class -/

namespace ConfigurationClass

theorem keys_properties_ofSymbol (symbol : TypeSymbol) :
    Json.keys (ofSymbol symbol).properties = (symbol.usableGetters.map Prod.fst).eraseDups := by
  rw [properties_ofSymbol, Entries.keys_firstEntries, Entries.keys_map_values]
  rfl

theorem lookup_properties_eq_usableGetters (symbol : TypeSymbol) (property : String) :
    (ofSymbol symbol).properties.lookup property =
      (symbol.usableGetters.lookup property).map PropertyType.ofTypeRef := by
  rw [lookup_properties_ofSymbol, TypeSymbol.lookup_usableGetters]

/-- What a class says of the symbol that it was read off: for each name of a usable getter, the type
of the first one, in the order of those getters. -/
structure Describes (c : ConfigurationClass) (symbol : TypeSymbol) : Prop where
  nameSpace_eq : c.nameSpace = symbol.nameSpace
  propertyNames_eq : Json.keys c.properties = (symbol.usableGetters.map Prod.fst).eraseDups
  propertyType_eq (property : String) :
    c.properties.lookup property =
      (symbol.usableGetters.lookup property).map PropertyType.ofTypeRef

theorem describes_ofSymbol (symbol : TypeSymbol) : (ofSymbol symbol).Describes symbol where
  nameSpace_eq := rfl
  propertyNames_eq := keys_properties_ofSymbol symbol
  propertyType_eq := lookup_properties_eq_usableGetters symbol

theorem Describes.exists_typeRef {c : ConfigurationClass} {symbol : TypeSymbol}
    (h : c.Describes symbol) {property : String} {type : PropertyType}
    (hmem : (property, type) ∈ c.properties) :
    ∃ ref, symbol.usableGetters.lookup property = some ref ∧ type = .ofTypeRef ref := by
  have hdistinct : (Json.keys c.properties).Nodup := by
    rw [h.propertyNames_eq]
    exact FirstMet.nodup_eraseDups _
  have hlookup := (Entries.lookup_eq_some_iff_mem hdistinct).2 hmem
  rw [h.propertyType_eq] at hlookup
  obtain ⟨ref, href, rfl⟩ := Option.map_eq_some_iff.1 hlookup
  exact ⟨ref, href, rfl⟩

end ConfigurationClass

theorem PropertyType.isGeneric_ofTypeRef_iff (ref : TypeRef) :
    (ofTypeRef ref).isGeneric ↔ (ofTypeRef ref).argumentName.isSome := by
  cases h : ref.typeArguments <;> simp [ofTypeRef, TypeRef.isGeneric, h]

/-! ### The classes of a program -/

namespace ClassMap

variable {marker key : String} {types : List TypeSymbol}

theorem keys_ofTypes (marker : String) (types : List TypeSymbol) :
    (ofTypes marker types).keys =
      (types.filterMap fun symbol => sectionKey? marker symbol.name).eraseDups := by
  have hkeys : Json.keys (types.filterMap fun symbol =>
      (sectionKey? marker symbol.name).map (·, ConfigurationClass.ofSymbol symbol)) =
      types.filterMap fun symbol => sectionKey? marker symbol.name := by
    rw [Json.keys, List.map_filterMap]
    refine List.filterMap_congr fun symbol _ => ?_
    cases sectionKey? marker symbol.name <;> rfl
  rw [ofTypes, ← hkeys]
  exact Entries.keys_firstEntries _

theorem describes_of_mem_ofTypes {c : ConfigurationClass} (h : (key, c) ∈ ofTypes marker types) :
    c.className = key ++ marker ∧
      ∃ symbol, types.find? (fun symbol => symbol.name = key ++ marker) = some symbol ∧
        c.Describes symbol := by
  obtain ⟨symbol, hsymbol, rfl⟩ := mem_ofTypes_iff.1 h
  refine ⟨(TypeSymbol.classOf?_eq_some hsymbol).2, symbol, ?_,
    ConfigurationClass.describes_ofSymbol symbol⟩
  rw [TypeSymbol.classOf?] at hsymbol
  split at hsymbol
  · cases hsymbol
  · exact hsymbol

/-- Different classes have different names, since the names are the keys with the marker. -/
theorem nodup_classNames (marker : String) (types : List TypeSymbol) :
    ((ofTypes marker types).map fun e => e.2.className).Nodup := by
  have hnames : ((ofTypes marker types).map fun e => e.2.className) =
      (ofTypes marker types).keys.map (· ++ marker) := by
    rw [keys, List.map_map]
    exact List.map_congr_left fun e he => (describes_of_mem_ofTypes he).1
  rw [hnames]
  refine List.Nodup.map (fun a b h => (String.append_left_inj marker).1 h) ?_
  exact Entries.nodup_keys_firstEntries _

/-- More types add the classes of new keys, behind those that are there. -/
theorem ofTypes_append (marker : String) (types more : List TypeSymbol) :
    ofTypes marker (types ++ more) =
      ofTypes marker types ++
        (ofTypes marker more).filter fun e => decide (e.1 ∉ (ofTypes marker types).keys) := by
  have hkeys (k : String) : k ∈ (ofTypes marker types).keys ↔
      k ∈ Json.keys (types.filterMap fun symbol =>
        (sectionKey? marker symbol.name).map (·, ConfigurationClass.ofSymbol symbol)) :=
    Entries.mem_keys_firstEntries
  simp only [hkeys]
  rw [ofTypes, List.filterMap_append, Entries.firstEntries_append]
  rfl

/-- The classes of a program are those of the first types with a name and of the first usable
getters with a name, in their order. It does not count how the types are spread over files, and more
of them only add classes behind. -/
theorem ofTypes_keeps_first (marker : String) (model : ProgramModel) :
    (∀ name key, sectionKey? marker name = some key ↔
      Text.isBlank key = false ∧ name = key ++ marker) ∧
    (ofTypes marker model.types).keys =
      (model.types.filterMap fun symbol => sectionKey? marker symbol.name).eraseDups ∧
    (∀ key c, (key, c) ∈ ofTypes marker model.types →
      c.className = key ++ marker ∧
        ∃ symbol, model.types.find? (fun symbol => symbol.name = key ++ marker) = some symbol ∧
          c.Describes symbol ∧
          ∀ property type, (property, type) ∈ c.properties →
            (type.isGeneric ↔ type.argumentName.isSome) ∧
              ∃ ref, symbol.usableGetters.lookup property = some ref ∧
                type.argumentName = ref.typeArguments.head?.map (·.name)) ∧
    ((ofTypes marker model.types).map fun e => e.2.className).Nodup ∧
    ofTypes marker (ProgramModel.ofTypes model.types).types = ofTypes marker model.types ∧
    ∀ (grown : ProgramModel) (more : List TypeSymbol), grown.types = model.types ++ more →
      ofTypes marker grown.types =
        ofTypes marker model.types ++
          (ofTypes marker more).filter fun e =>
            decide (e.1 ∉ (ofTypes marker model.types).keys) := by
  refine ⟨fun _ _ => sectionKey?_eq_some_iff, keys_ofTypes marker model.types, fun key c hmem => ?_,
    nodup_classNames marker model.types, by rw [ProgramModel.types_ofTypes],
    fun grown more hgrown => by rw [hgrown, ofTypes_append]⟩
  obtain ⟨hname, symbol, hfirst, hdescribes⟩ := describes_of_mem_ofTypes hmem
  refine ⟨hname, symbol, hfirst, hdescribes, fun property type htype => ?_⟩
  obtain ⟨ref, href, rfl⟩ := hdescribes.exists_typeRef htype
  exact ⟨PropertyType.isGeneric_ofTypeRef_iff ref, ref, href, rfl⟩

/-! ### A type in two files, with getters that cannot be used -/

/-- The first getter of the size returns nothing and the second one an array; the third one can be
used. -/
def queueSymbol : TypeSymbol :=
  ⟨"QueueConfiguration", "First",
    [.getter "Size" none, .getter "Size" (some ⟨"Int32[]", "int[]", .array, false, []⟩),
      .setter "Size", .getter "Size" (some (.nullable .int32)), .method "Name" (some .string),
      .getter "Name" (some .string), .getter "Size" (some .boolean)]⟩

def queueModel : ProgramModel :=
  ⟨[⟨"A.cs", [⟨" Configuration", "App", []⟩, queueSymbol, ⟨"Program", "App", []⟩]⟩,
    ⟨"B.cs", [TypeSymbol.withProperty ⟨"QueueConfiguration", "Second", []⟩ "Leak" .boolean,
      ⟨"HostConfiguration", "App", []⟩]⟩]⟩

theorem find?_queueModel : queueModel.types.find? (fun symbol =>
    symbol.name = "Queue" ++ "Configuration") = some queueSymbol := by
  rfl

theorem ofTypes_keeps_first_queue :
    (ofTypes "Configuration" queueModel.types).keys = ["Queue", "Host"] ∧
      ofTypes "Configuration" queueModel.types =
        ofTypes "Configuration" (ProgramModel.types ⟨queueModel.syntaxTrees.take 1⟩) ++
          [("Host", ⟨"HostConfiguration", "App", []⟩)] ∧
      ∃ c, ("Queue", c) ∈ ofTypes "Configuration" queueModel.types ∧
        c.className = "QueueConfiguration" ∧ c.nameSpace = "First" ∧
        Json.keys c.properties = ["Size", "Name"] ∧
        c.properties.lookup "Size" = some (.ofTypeRef (.nullable .int32)) := by
  obtain ⟨-, hkeys, hentries, -⟩ := ofTypes_keeps_first "Configuration" queueModel
  have hfound : (ofTypes "Configuration" queueModel.types).keys = ["Queue", "Host"] :=
    hkeys.trans (by decide +kernel)
  have hqueue : "Queue" ∈ (ofTypes "Configuration" queueModel.types).keys :=
    hfound ▸ List.mem_cons_self
  obtain ⟨⟨key, c⟩, hc, rfl⟩ := List.mem_map.1 hqueue
  obtain ⟨hname, symbol, hsymbol, hdescribes, -⟩ := hentries _ c hc
  obtain rfl : queueSymbol = symbol := Option.some.inj (find?_queueModel.symm.trans hsymbol)
  refine ⟨hfound, ?_, c, hc, hname, hdescribes.nameSpace_eq, ?_, ?_⟩
  · obtain ⟨-, -, -, -, -, hgrowth⟩ :=
      ofTypes_keeps_first "Configuration" ⟨queueModel.syntaxTrees.take 1⟩
    rw [hgrowth queueModel (ProgramModel.types ⟨queueModel.syntaxTrees.drop 1⟩) rfl]
    rfl
  · rw [hdescribes.propertyNames_eq]
    decide +kernel
  · rw [hdescribes.propertyType_eq]
    rfl

end ClassMap

end SettingsBinding
