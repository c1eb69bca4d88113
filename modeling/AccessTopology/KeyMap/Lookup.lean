import AccessTopology.KeyMap

namespace AccessTopology.KeyMap

/-!
# Looking up keys

What each operation on a map does to its lookups: an insertion changes one key
only, and an overlay prefers the upper map. What is found under a key is what
the map lists under it.
-/

/-- The first entry of a list decides for its own key, the rest for all others. -/
theorem lookup_cons_ite
    (head : String × α)
    (rest : List (String × α))
    (query : String) :
    (head :: rest).lookup query =
      if query = head.1 then some head.2 else rest.lookup query := by
  rw [List.lookup_cons]
  by_cases asked : query = head.1
  · simp [asked]
  · have test : (query == head.1) = false :=
      beq_eq_false_iff_ne.mpr asked
    simp [asked, test]

/-- An entry put among others is found under its key, and nothing else changes. -/
theorem lookup_insertEntry
    (key : String)
    (value : α)
    (entries : List (String × α))
    (query : String) :
    (insertEntry key value entries).lookup query =
      if query = key then some value else entries.lookup query := by
  induction entries with
  | nil =>
      exact lookup_cons_ite (key, value) [] query
  | cons head rest inductionHypothesis =>
      rw [insertEntry]
      split
      · exact lookup_cons_ite (key, value) (head :: rest) query
      · split
        · rename_i same
          rw [lookup_cons_ite, lookup_cons_ite head rest]
          by_cases asked : query = key
          · simp [asked]
          · simp [asked, same ▸ asked]
        · rename_i different
          rw [lookup_cons_ite, inductionHypothesis,
            lookup_cons_ite head rest]
          by_cases asked : query = key
          · simp [asked, different]
          · simp [asked]

/-- Nothing is found in the map without entries. -/
@[simp] theorem get?_empty
    (query : String) :
    (empty : KeyMap α).get? query = none :=
  rfl

/-- An inserted entry is found under its key, and nothing else changes. -/
@[simp] theorem get?_insert
    (map : KeyMap α)
    (key : String)
    (value : α)
    (query : String) :
    (map.insert key value).get? query =
      if query = key then some value else map.get? query :=
  lookup_insertEntry key value map.entries query

/-- Of several insertions under a key the last is found. -/
theorem get?_insertAll
    (map : KeyMap α)
    (entries : List (String × α))
    (query : String) :
    (map.insertAll entries).get? query =
      (entries.reverse.lookup query).or (map.get? query) := by
  induction entries generalizing map with
  | nil =>
      rfl
  | cons head rest inductionHypothesis =>
      have headFirst :
          map.insertAll (head :: rest) =
            (map.insert head.1 head.2).insertAll rest :=
        rfl
      rw [headFirst, inductionHypothesis, get?_insert,
        List.reverse_cons, List.lookup_append, lookup_cons_ite,
        Option.or_assoc]
      by_cases asked : query = head.1
      · simp [asked]
      · simp [asked]

/-- Nothing is found under a key that no entry of a list has. -/
theorem lookup_eq_none_of_forall_ne
    {entries : List (String × α)}
    {query : String}
    (different : ∀ entry ∈ entries, query ≠ entry.1) :
    entries.lookup query = none := by
  induction entries with
  | nil =>
      rfl
  | cons head rest inductionHypothesis =>
      have headDiffers : query ≠ head.1 :=
        different head List.mem_cons_self
      have restDiffers : ∀ entry ∈ rest, query ≠ entry.1 :=
        fun entry member =>
          different entry (List.mem_cons_of_mem head member)
      rw [lookup_cons_ite, if_neg headDiffers]
      exact inductionHypothesis restDiffers

/-- Where keys increase strictly, what is found is what is listed. -/
theorem lookup_eq_some_iff_mem
    {entries : List (String × α)}
    (ordered :
      entries.Pairwise (fun earlier later => earlier.1 < later.1))
    {query : String}
    {value : α} :
    entries.lookup query = some value ↔ (query, value) ∈ entries := by
  induction entries with
  | nil =>
      simp
  | cons head rest inductionHypothesis =>
      have headFirst := (List.pairwise_cons.mp ordered).1
      have restOrdered := (List.pairwise_cons.mp ordered).2
      rw [lookup_cons_ite, List.mem_cons]
      by_cases asked : query = head.1
      · have notInRest : (query, value) ∉ rest := by
          intro member
          exact String.lt_irrefl head.1 (asked ▸ headFirst _ member)
        constructor
        · intro found
          have sameValue : head.2 = value := by
            simpa [asked] using found
          exact .inl (Prod.ext asked sameValue.symm)
        · intro member
          have same := member.resolve_right notInRest
          rw [if_pos asked, ← same]
      · have headDiffers : (query, value) ≠ head :=
          fun same => asked (congrArg Prod.fst same)
        rw [if_neg asked, inductionHypothesis restOrdered]
        simp [headDiffers]

/-- Where keys increase strictly, a list may be searched from either end. -/
theorem lookup_reverse
    {entries : List (String × α)}
    (ordered :
      entries.Pairwise (fun earlier later => earlier.1 < later.1))
    (query : String) :
    entries.reverse.lookup query = entries.lookup query := by
  induction entries with
  | nil =>
      rfl
  | cons head rest inductionHypothesis =>
      have headFirst := (List.pairwise_cons.mp ordered).1
      have restOrdered := (List.pairwise_cons.mp ordered).2
      rw [List.reverse_cons, List.lookup_append,
        inductionHypothesis restOrdered, lookup_cons_ite,
        lookup_cons_ite head rest]
      by_cases asked : query = head.1
      · have absent : rest.lookup query = none :=
          lookup_eq_none_of_forall_ne
            (fun entry member same =>
              String.lt_irrefl head.1
                ((same.symm.trans asked) ▸ headFirst entry member))
        simp [asked, asked ▸ absent]
      · simp [asked]

/-- What is found in a map is what it lists. -/
theorem get?_eq_some_iff
    {map : KeyMap α}
    {key : String}
    {value : α} :
    map.get? key = some value ↔ (key, value) ∈ map.entries :=
  lookup_eq_some_iff_mem map.ordered

/-- A key is one of a map's keys exactly when something is found under it. -/
theorem mem_keys_iff
    {map : KeyMap α}
    {key : String} :
    key ∈ map.keys ↔ map.contains key = true := by
  rw [keys, contains, Option.isSome_iff_exists, List.mem_map]
  constructor
  · intro listed
    obtain ⟨entry, member, sameKey⟩ := listed
    exact ⟨entry.2, get?_eq_some_iff.mpr (sameKey ▸ member)⟩
  · intro found
    obtain ⟨value, found⟩ := found
    exact ⟨(key, value), get?_eq_some_iff.mp found, rfl⟩

/-- An overlay finds what the upper map holds, else what the lower one does. -/
@[simp] theorem get?_overlay
    (lower upper : KeyMap α)
    (query : String) :
    (lower.overlay upper).get? query =
      (upper.get? query).or (lower.get? query) := by
  rw [overlay, get?_insertAll, lookup_reverse upper.ordered]
  rfl

end AccessTopology.KeyMap
