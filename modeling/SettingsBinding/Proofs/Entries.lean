import SettingsBinding.Json.Basic

/-!
Lists of entries, read through their keys. A look-up finds the first entry of a key; where each key
stands once, it finds exactly the entries of the list.
-/

namespace SettingsBinding.Entries

variable {α β : Type} {entries : List (String × α)} {key : String}

theorem mem_of_lookup_eq_some {value : α} (h : entries.lookup key = some value) :
    (key, value) ∈ entries := by
  obtain ⟨before, after, rfl, -⟩ := List.lookup_eq_some_iff.1 h
  simp

theorem lookup_eq_some_iff_mem (distinct : (Json.keys entries).Nodup) {value : α} :
    entries.lookup key = some value ↔ (key, value) ∈ entries := by
  refine ⟨mem_of_lookup_eq_some, fun h => ?_⟩
  obtain ⟨before, after, rfl⟩ := List.append_of_mem h
  refine List.lookup_eq_some_iff.2 ⟨before, after, rfl, fun e he => ?_⟩
  have hdisjoint : e.1 ≠ key := by
    simp only [Json.keys, List.map_append, List.map_cons, List.nodup_append] at distinct
    exact distinct.2.2 e.1 (List.mem_map_of_mem he) key (by simp)
  simpa using hdisjoint.symm

theorem isSome_lookup_iff : (entries.lookup key).isSome ↔ key ∈ Json.keys entries := by
  simp only [List.lookup_isSome_iff, beq_iff_eq, Json.keys, List.mem_map]
  exact ⟨fun ⟨e, he, h⟩ => ⟨e, he, h.symm⟩, fun ⟨e, he, h⟩ => ⟨e, he, h.symm⟩⟩

theorem lookup_eq_none_iff : entries.lookup key = none ↔ key ∉ Json.keys entries := by
  rw [← isSome_lookup_iff, Bool.not_eq_true, Option.isSome_eq_false_iff, Option.isNone_iff_eq_none]

theorem mem_keys_of_mem {value : α} (h : (key, value) ∈ entries) : key ∈ Json.keys entries :=
  List.mem_map_of_mem h

theorem lookup_cons_of_ne {k : String} (h : key ≠ k) (value : α) :
    ((k, value) :: entries).lookup key = entries.lookup key := by
  rw [List.lookup_cons, beq_eq_false_iff_ne.2 h]

/-- Changing the values, each with its key in view, changes what is looked up. -/
theorem lookup_map_values (f : String → α → β) (entries : List (String × α)) (key : String) :
    (entries.map fun e => (e.1, f e.1 e.2)).lookup key = (entries.lookup key).map (f key) := by
  induction entries with
  | nil => rfl
  | cons e rest ih =>
      rcases e with ⟨k, value⟩
      by_cases h : key = k
      · subst h
        simp
      · rw [List.map_cons, lookup_cons_of_ne h, lookup_cons_of_ne h, ih]

/-- Of a list that is filtered by the keys, the keys that are kept are looked up as before. -/
theorem lookup_filter_keys (p : String → Bool) (entries : List (String × α)) (key : String) :
    (entries.filter fun e => p e.1).lookup key = if p key then entries.lookup key else none := by
  induction entries with
  | nil => simp
  | cons e rest ih =>
      rcases e with ⟨k, value⟩
      by_cases h : key = k
      · subst h
        cases hp : p key with
        | true => simp [hp]
        | false => simp [hp, ih]
      · rw [lookup_cons_of_ne h, ← ih]
        cases hp : p k with
        | true => simp only [List.filter_cons, hp, if_true, lookup_cons_of_ne h]
        | false => simp [hp]

/-- Two lists in which each key stands once are equal where they have the same keys in the same
order and the same value under each. -/
theorem ext_of_keys {entries others : List (String × α)} (distinct : (Json.keys entries).Nodup)
    (hkeys : Json.keys entries = Json.keys others)
    (hlookup : ∀ key, entries.lookup key = others.lookup key) : entries = others := by
  refine List.ext_getElem (by simpa [Json.keys] using congrArg List.length hkeys) fun i h h' => ?_
  have hkey : entries[i].1 = others[i].1 := by
    have := congrArg (·[i]?) hkeys
    simpa [Json.keys, h, h'] using this
  have hvalue : entries.lookup entries[i].1 = some entries[i].2 :=
    (lookup_eq_some_iff_mem distinct).2 (List.getElem_mem h)
  have hother : others.lookup others[i].1 = some others[i].2 :=
    (lookup_eq_some_iff_mem (hkeys ▸ distinct)).2 (List.getElem_mem h')
  refine Prod.ext hkey (Option.some.inj ?_)
  rw [← hvalue, ← hother, hlookup, hkey]

/-! ### Writing one entry -/

theorem keys_insertMember (value : α) :
    Json.keys (Json.insertMember key value entries) =
      if key ∈ Json.keys entries then Json.keys entries else Json.keys entries ++ [key] := by
  induction entries with
  | nil => rfl
  | cons e rest ih =>
      rcases e with ⟨k, old⟩
      by_cases h : k = key
      · subst h
        simp [Json.insertMember, Json.keys]
      · simp only [Json.keys] at ih
        by_cases hmem : key ∈ rest.map Prod.fst
        · simp [Json.insertMember, h, Json.keys, ih, hmem]
        · simp [Json.insertMember, h, Json.keys, ih, hmem, Ne.symm h]

theorem nodup_keys_insertMember (value : α) (distinct : (Json.keys entries).Nodup) :
    (Json.keys (Json.insertMember key value entries)).Nodup := by
  rw [keys_insertMember]
  split
  · exact distinct
  · next h =>
      refine List.nodup_append.2 ⟨distinct, by simp, fun k hk k' hk' e => h ?_⟩
      rwa [← List.mem_singleton.1 hk', ← e]

theorem lookup_insertMember (value : α) (k : String) :
    (Json.insertMember key value entries).lookup k =
      if k = key then some value else entries.lookup k := by
  induction entries with
  | nil =>
      by_cases hk : k = key
      · simp [Json.insertMember, hk]
      · simp [Json.insertMember, hk, lookup_cons_of_ne]
  | cons e rest ih =>
      rcases e with ⟨k', old⟩
      by_cases h : k' = key
      · subst h
        by_cases hk : k = k'
        · simp [Json.insertMember, hk]
        · simp [Json.insertMember, hk, lookup_cons_of_ne]
      · by_cases hk : k = k'
        · subst hk
          simp [Json.insertMember, h]
        · simp [Json.insertMember, h, lookup_cons_of_ne hk, ih]

end SettingsBinding.Entries
