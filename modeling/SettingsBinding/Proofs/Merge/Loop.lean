import SettingsBinding.Proofs.Merge.Lookup

/-!
A merge as a loop. The entries of the tree that comes in are taken one after the other: an entry
under a new key goes to the end, and one under a key that is there already meets the value in its
place. Main statement: on trees in which each key stands once, the loop is the merge.
-/

namespace SettingsBinding.SettingsTree

variable {t incoming : SettingsTree}

def takeEntry (t : SettingsTree) (e : String × Setting) : SettingsTree :=
  Json.insertMember e.1 (match t.get? e.1 with | some value => join value e.2 | none => e.2) t

theorem keys_takeEntry (t : SettingsTree) (e : String × Setting) :
    (takeEntry t e).keys = if e.1 ∈ t.keys then t.keys else t.keys ++ [e.1] :=
  Entries.keys_insertMember _

theorem nodup_keys_takeEntry (distinct : t.keys.Nodup) (e : String × Setting) :
    (takeEntry t e).keys.Nodup :=
  Entries.nodup_keys_insertMember _ distinct

theorem get?_takeEntry_self (t : SettingsTree) (key : String) (new : Setting) :
    (takeEntry t (key, new)).get? key =
      some (match t.get? key with | some value => join value new | none => new) := by
  rw [takeEntry, get?, Entries.lookup_insertMember, if_pos rfl]

theorem get?_takeEntry_of_ne {key : String} {e : String × Setting} (h : key ≠ e.1) :
    (takeEntry t e).get? key = t.get? key := by
  rw [takeEntry, get?, Entries.lookup_insertMember, if_neg h, get?]

/-- One step of the loop. -/
theorem merge_cons (distinct : t.keys.Nodup) (e : String × Setting)
    (hincoming : (keys (e :: incoming)).Nodup) :
    merge t (e :: incoming) = merge (takeEntry t e) incoming := by
  rcases e with ⟨key, new⟩
  obtain ⟨hkey, hrest⟩ := List.nodup_cons.1 hincoming
  have hmissing : incoming.get? key = none := get?_eq_none_iff.2 hkey
  refine Entries.ext_of_keys (nodup_keys_merge distinct hincoming) ?_ fun k => ?_
  · change keys _ = keys _
    have hcons : keys ((key, new) :: incoming) = key :: incoming.keys := rfl
    rw [keys_merge, keys_merge, keys_takeEntry, hcons]
    -- A new key goes to the end at once, in front of the new keys of the entries that follow.
    by_cases h : key ∈ t.keys
    · have hsame : ∀ k, (takeEntry t (key, new)).contains k = t.contains k := by
        intro k
        rw [Bool.eq_iff_iff, contains_iff, contains_iff, keys_takeEntry, if_pos h]
      simp [h, contains_iff.2 h, hsame]
    · have hsame : ∀ k ∈ incoming.keys,
          (takeEntry t (key, new)).contains k = t.contains k := by
        intro k hk
        have hne : k ≠ key := fun heq => hkey (heq ▸ hk)
        rw [Bool.eq_iff_iff, contains_iff, contains_iff, keys_takeEntry, if_neg h]
        simp [hne]
      have hfilter : incoming.keys.filter (fun k => !(takeEntry t (key, new)).contains k) =
          incoming.keys.filter fun k => !t.contains k :=
        List.filter_congr fun k hk => by rw [hsame k hk]
      simp [h, mt contains_iff.1 h, hfilter]
  · change get? _ k = get? _ k
    by_cases hk : k = key
    · subst hk
      have hfirst : get? ((k, new) :: incoming) k = some new := List.lookup_cons_self
      rw [get?_merge_of_left (get?_takeEntry_self t k new) hmissing]
      cases h : t.get? k with
      | none => rw [get?_merge_of_right h, hfirst]
      | some value => rw [get?_merge_of_both h hfirst]
    · have hother : get? ((key, new) :: incoming) k = incoming.get? k :=
        Entries.lookup_cons_of_ne hk new
      rw [get?_merge, get?_merge, get?_takeEntry_of_ne hk, hother]

/-- The merge is the loop over the entries that come in. -/
theorem merge_eq_foldl (distinct : t.keys.Nodup) (hincoming : incoming.keys.Nodup) :
    merge t incoming = incoming.foldl takeEntry t := by
  induction incoming generalizing t with
  | nil => rw [merge_nil_right, List.foldl_nil]
  | cons e rest ih =>
      have hrest := (List.nodup_cons.1 hincoming).2
      rw [merge_cons distinct e hincoming, List.foldl_cons,
        ih (nodup_keys_takeEntry distinct e) hrest]

end SettingsBinding.SettingsTree
