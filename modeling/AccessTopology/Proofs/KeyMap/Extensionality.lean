import AccessTopology.Proofs.KeyMap.Entries
import Mathlib.Data.List.Sort

namespace AccessTopology.KeyMap

/-!
# When two maps are equal

A map lists its entries by strictly increasing key, so two maps with the same
entries are equal, and two maps with the same keys list them alike.  The map of
a list in which no key has two values does not depend on the list's order or
repeats.
-/

/-- No key is listed with two values. -/
def Consistent (entries : List (String × α)) : Prop :=
  ∀ left ∈ entries,
    ∀ right ∈ entries,
      left.1 = right.1 → left = right

theorem consistent_of_nodup
    {entries : List (String × α)}
    (distinct : (entries.map Prod.fst).Nodup) :
    Consistent entries :=
  fun _ leftListed _ rightListed sameKey =>
    List.inj_on_of_nodup_map distinct leftListed rightListed sameKey

/-- Maps with the same entries are equal. -/
theorem eq_of_mem_entries_iff
    {left right : KeyMap α}
    (same : ∀ entry, entry ∈ left.entries ↔ entry ∈ right.entries) :
    left = right := by
  have irreflexive :
      Std.Irrefl
        (fun earlier later : String × α => earlier.1 < later.1) :=
    ⟨fun entry => String.lt_irrefl entry.1⟩
  have antisymmetric :
      Std.Antisymm
        (fun earlier later : String × α => earlier.1 < later.1) :=
    ⟨fun earlier later before after =>
      absurd (String.lt_trans before after) (String.lt_irrefl earlier.1)⟩
  have sameEntries : left.entries = right.entries :=
    left.ordered.eq_of_mem_iff right.ordered same
  cases left
  cases right
  congr

/-- Maps with the same keys list them alike, whatever their values. -/
theorem keys_eq_of_mem_iff
    {left : KeyMap α}
    {right : KeyMap β}
    (same : ∀ key, key ∈ left.keys ↔ key ∈ right.keys) :
    left.keys = right.keys := by
  have keysIncrease {γ : Type} (map : KeyMap γ) :
      map.keys.Pairwise (· < ·) :=
    List.pairwise_map.mpr map.ordered
  exact (keysIncrease left).eq_of_mem_iff (keysIncrease right) same

/-- Where no key has two values, the map of a list has the list's entries. -/
theorem mem_entries_ofList_iff
    {entries : List (String × α)}
    (consistent : Consistent entries)
    {entry : String × α} :
    entry ∈ (ofList entries).entries ↔ entry ∈ entries := by
  constructor
  · exact mem_entries_ofList
  · intro listed
    have keyKept : entry.1 ∈ (ofList entries).keys :=
      mem_keys_ofList.mpr (List.mem_map_of_mem listed)
    obtain ⟨kept, keptListed, sameKey⟩ := List.mem_map.mp keyKept
    have isKept : kept = entry :=
      consistent kept (mem_entries_ofList keptListed) entry listed sameKey
    exact isKept ▸ keptListed

/--
Where no key has two values, the order and the repeats of a list do not matter
to its map.
-/
theorem ofList_eq_of_mem_iff
    {left right : List (String × α)}
    (consistent : Consistent left)
    (same : ∀ entry, entry ∈ left ↔ entry ∈ right) :
    ofList left = ofList right := by
  have rightConsistent : Consistent right := by
    intro first firstListed second secondListed sameKey
    exact consistent first ((same first).mpr firstListed)
      second ((same second).mpr secondListed) sameKey
  refine eq_of_mem_entries_iff ?_
  intro entry
  rw [mem_entries_ofList_iff consistent,
    mem_entries_ofList_iff rightConsistent, same]

/-- The keys of a list's map depend on the keys of the list only. -/
theorem keys_ofList_eq
    {left : List (String × α)}
    {right : List (String × β)}
    (same : left.map Prod.fst = right.map Prod.fst) :
    (ofList left).keys = (ofList right).keys := by
  refine keys_eq_of_mem_iff ?_
  intro key
  rw [mem_keys_ofList, mem_keys_ofList, same]

end AccessTopology.KeyMap
