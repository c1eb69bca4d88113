import AccessTopology.KeyMap.Lookup
import Mathlib.Data.List.Nodup

namespace AccessTopology.KeyMap

/-!
# Maps made from lists

The map of a list has the list's keys, each once, and lists no entry that was
not in the list.  Where the list names no key twice, each of its entries is
found.
-/

/-- Where no key is listed twice, an entry is found under its key. -/
theorem lookup_of_mem
    {entries : List (String × α)}
    (distinct : (entries.map Prod.fst).Nodup)
    {key : String}
    {value : α}
    (member : (key, value) ∈ entries) :
    entries.lookup key = some value := by
  induction entries with
  | nil =>
      simp at member
  | cons head rest inductionHypothesis =>
      rw [List.map_cons, List.nodup_cons] at distinct
      rw [lookup_cons_ite]
      rcases List.mem_cons.mp member with isHead | inRest
      · simp [← isHead]
      · have differs : key ≠ head.1 :=
          fun same =>
            distinct.1 (same ▸ List.mem_map.mpr ⟨_, inRest, rfl⟩)
        rw [if_neg differs]
        exact inductionHypothesis distinct.2 inRest

/-- The map of a list is searched from the list's end. -/
theorem get?_ofList
    (entries : List (String × α))
    (query : String) :
    (ofList entries).get? query = entries.reverse.lookup query := by
  rw [ofList, get?_insertAll, get?_empty, Option.or_none]

/-- Where no key is listed twice, the map of a list finds every entry. -/
theorem get?_ofList_of_mem
    {entries : List (String × α)}
    (distinct : (entries.map Prod.fst).Nodup)
    {key : String}
    {value : α}
    (member : (key, value) ∈ entries) :
    (ofList entries).get? key = some value := by
  rw [get?_ofList]
  refine lookup_of_mem ?_ (List.mem_reverse.mpr member)
  rw [List.map_reverse]
  exact List.nodup_reverse.mpr distinct

/-- The map of a list has the keys of the list. -/
theorem mem_keys_ofList
    {entries : List (String × α)}
    {key : String} :
    key ∈ (ofList entries).keys ↔ key ∈ entries.map Prod.fst := by
  rw [mem_keys_iff, contains, get?_ofList, List.lookup_isSome_iff,
    List.mem_map]
  constructor
  · rintro ⟨entry, member, sameKey⟩
    exact ⟨entry, List.mem_reverse.mp member, (eq_of_beq sameKey).symm⟩
  · rintro ⟨entry, member, sameKey⟩
    exact ⟨entry, List.mem_reverse.mpr member, beq_iff_eq.mpr sameKey.symm⟩

/-- The map of a list lists nothing else. -/
theorem mem_entries_ofList
    {entries : List (String × α)}
    {entry : String × α}
    (member : entry ∈ (ofList entries).entries) :
    entry ∈ entries := by
  have found : (ofList entries).get? entry.1 = some entry.2 :=
    get?_eq_some_iff.mpr member
  rw [get?_ofList, List.lookup_eq_some_iff] at found
  obtain ⟨before, after, split, _⟩ := found
  rw [← List.mem_reverse, split]
  simp

theorem mem_of_get?_ofList
    {entries : List (String × α)}
    {key : String}
    {value : α}
    (found : (ofList entries).get? key = some value) :
    (key, value) ∈ entries :=
  mem_entries_ofList (get?_eq_some_iff.mp found)

/-- A map has no key twice. -/
theorem nodup_keys (map : KeyMap α) : map.keys.Nodup := by
  rw [keys, List.nodup_iff_pairwise_ne, List.pairwise_map]
  refine map.ordered.imp ?_
  intro earlier later increasing same
  exact String.lt_irrefl later.1 (same ▸ increasing)

end AccessTopology.KeyMap
