namespace AccessTopology

/-!
# Maps with text keys

A `KeyMap` lists its entries by strictly increasing key, in code point order.
Two maps with the same entries are therefore the same list, and printing a map
needs no sorting.
-/

/-- Entries of a map, by strictly increasing key. -/
structure KeyMap (α : Type) where
  entries : List (String × α)
  ordered : entries.Pairwise (fun earlier later => earlier.1 < later.1)
  deriving DecidableEq

namespace KeyMap

/-- The map without entries. -/
def empty : KeyMap α :=
  ⟨[], List.Pairwise.nil⟩

instance : Inhabited (KeyMap α) :=
  ⟨empty⟩

/-- Put an entry at its place, replacing the entry that has its key. -/
def insertEntry
    (key : String)
    (value : α) :
    List (String × α) → List (String × α)
  | [] => [(key, value)]
  | (otherKey, otherValue) :: rest =>
      if key < otherKey then
        (key, value) :: (otherKey, otherValue) :: rest
      else if key = otherKey then
        (key, value) :: rest
      else
        (otherKey, otherValue) :: insertEntry key value rest

/-- An inserted list holds the new entry and entries it held before. -/
theorem mem_insertEntry
    {key : String}
    {value : α}
    {entry : String × α}
    {entries : List (String × α)}
    (member : entry ∈ insertEntry key value entries) :
    entry = (key, value) ∨ entry ∈ entries := by
  induction entries with
  | nil =>
      simpa [insertEntry] using member
  | cons head rest inductionHypothesis =>
      rw [insertEntry] at member
      split at member
      · simpa using member
      · split at member
        · rcases List.mem_cons.mp member with same | inRest
          · exact .inl same
          · exact .inr (List.mem_cons_of_mem _ inRest)
        · rcases List.mem_cons.mp member with same | inRest
          · exact .inr (same ▸ List.mem_cons_self)
          · rcases inductionHypothesis inRest with same | earlier
            · exact .inl same
            · exact .inr (List.mem_cons_of_mem _ earlier)

/-- Insertion keeps keys strictly increasing. -/
theorem pairwise_insertEntry
    (key : String)
    (value : α)
    {entries : List (String × α)}
    (ordered :
      entries.Pairwise (fun earlier later => earlier.1 < later.1)) :
    (insertEntry key value entries).Pairwise
      (fun earlier later => earlier.1 < later.1) := by
  induction entries with
  | nil =>
      simp [insertEntry]
  | cons head rest inductionHypothesis =>
      have tailOrdered := (List.pairwise_cons.mp ordered).2
      have headFirst := (List.pairwise_cons.mp ordered).1
      rw [insertEntry]
      split
      · rename_i before
        refine List.pairwise_cons.mpr ⟨?_, ordered⟩
        intro entry member
        rcases List.mem_cons.mp member with same | inRest
        · exact same ▸ before
        · exact String.lt_trans before (headFirst entry inRest)
      · rename_i notBefore
        split
        · rename_i same
          refine List.pairwise_cons.mpr ⟨?_, tailOrdered⟩
          intro entry member
          exact same ▸ headFirst entry member
        · rename_i different
          refine List.pairwise_cons.mpr
            ⟨?_, inductionHypothesis tailOrdered⟩
          intro entry member
          rcases mem_insertEntry member with same | inRest
          · subst same
            rcases Decidable.em (head.1 < key) with after | notAfter
            · exact after
            · exact absurd
                (String.le_antisymm
                  (String.not_lt.mp notAfter)
                  (String.not_lt.mp notBefore))
                different
          · exact headFirst entry inRest

/-- Add an entry, replacing the value its key had. -/
def insert
    (map : KeyMap α)
    (key : String)
    (value : α) :
    KeyMap α :=
  ⟨insertEntry key value map.entries,
    pairwise_insertEntry key value map.ordered⟩

/-- The value stored under a key. -/
def get?
    (map : KeyMap α)
    (key : String) :
    Option α :=
  map.entries.lookup key

/-- Whether some entry has the key. -/
def contains
    (map : KeyMap α)
    (key : String) :
    Bool :=
  (map.get? key).isSome

/-- Keys in increasing order. -/
def keys (map : KeyMap α) : List String :=
  map.entries.map Prod.fst

/-- Values in the order of their keys. -/
def values (map : KeyMap α) : List α :=
  map.entries.map Prod.snd

/-- Number of entries. -/
def size (map : KeyMap α) : Nat :=
  map.entries.length

/-- Add entries from left to right, so the last of a repeated key stays. -/
def insertAll
    (map : KeyMap α)
    (entries : List (String × α)) :
    KeyMap α :=
  entries.foldl (fun result entry => result.insert entry.1 entry.2) map

/-- The map of a list of entries, where the last of a repeated key stays. -/
def ofList (entries : List (String × α)) : KeyMap α :=
  empty.insertAll entries

/-- All entries of both maps, where `upper` decides keys they share. -/
def overlay (lower upper : KeyMap α) : KeyMap α :=
  lower.insertAll upper.entries

end KeyMap

end AccessTopology
