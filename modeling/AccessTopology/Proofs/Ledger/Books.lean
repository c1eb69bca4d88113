import AccessTopology.Proofs.Ledger.History

namespace AccessTopology.Ledger

/-!
# The books of a ledger

Whatever was asked of a ledger before, and whether it failed or not, no two of
its drafts share a key, its index points at each of them and names the first
declaration that asked for the draft's key, a further draft is entered once and
refused where it differs from the one that holds its key, and a dangling
reference is found where there is one.
-/

/-- What holds of a ledger with some history. -/
structure Books
    (history : List LedgerEntry)
    (ledger : Ledger) :
    Prop where
  keysDistinct :
    ledger.keys.Nodup
  contains_iff :
    ∀ key,
      ledger.contains key = true ↔ ∃ draft ∈ ledger.drafts, draft.key = key
  index_iff :
    ∀ key position source,
      ledger.index.get? key.text = some (position, source) ↔
        (∃ draft,
          ledger.drafts[position]? = some draft ∧ draft.key = key) ∧
          ∃ first,
            history.find? (fun entry => entry.key = key) = some first ∧
              first.source = source
  indexed :
    ∀ draft source,
      ledger.indexed.push? draft source =
        some
          ((ledger.push draft source).map
            (fun answer => (answer.1, answer.2.indexed)))
  new_iff :
    ∀ draft source,
      (∃ next, ledger.push draft source = .ok (true, next)) ↔
        ledger.contains draft.key = false
  entered :
    ∀ draft source next,
      ledger.push draft source = .ok (true, next) →
        next.drafts = ledger.drafts ++ [draft] ∧
          next.index =
            ledger.index.insert draft.key.text
              (ledger.drafts.length, source)
  repeated_iff :
    ∀ draft source next,
      ledger.push draft source = .ok (false, next) ↔
        next = ledger ∧
          ∃ held ∈ ledger.drafts,
            held.key = draft.key ∧ held.same draft = true
  refused_iff :
    ∀ draft source error,
      ledger.push draft source = .error error ↔
        ∃ held ∈ ledger.drafts,
          held.key = draft.key ∧ held.same draft = false ∧
            ∃ first,
              history.find? (fun entry => entry.key = draft.key) =
                  some first ∧
                error =
                  .configuration
                    (.keyConflict first.source source draft.key)
  kept :
    ∀ draft source,
      (∀ next, ledger.push draft source ≠ .ok (true, next)) →
        (ledger.serve [.push draft source]) = ledger
  closed_iff :
    ledger.dangling? = none ↔
      ∀ draft ∈ ledger.drafts,
        ∀ name target, ¬draft.Misses ledger name target
  dangling_iff :
    ∀ source target,
      ledger.dangling? = some (source, target) ↔
        ∃ before draft after name,
          ledger.drafts = before ++ draft :: after ∧
            draft.key = source ∧
            draft.Misses ledger name target ∧
            (∀ earlier, earlier < name →
              ∀ other, ¬draft.Misses ledger earlier other) ∧
            ∀ earlier ∈ before,
              ∀ name other, ¬earlier.Misses ledger name other

variable {ledger : Ledger} {history : List LedgerEntry}

/-- Where keys are distinct, an entry is the one that is found under its key. -/
theorem find?_eq_some_of_mem
    (distinct : ledger.keys.Nodup)
    {entry : LedgerEntry}
    (listed : entry ∈ ledger.entries) :
    ledger.find? entry.key = some entry := by
  rw [keys_eq_map_key] at distinct
  exact find?_eq_some_of_nodup distinct listed

/-- Where keys are distinct, a draft of a key is the one that is found. -/
theorem exists_mem_drafts_iff
    (distinct : ledger.keys.Nodup)
    {key : LogicalKey}
    {property : Draft → Prop} :
    (∃ draft ∈ ledger.drafts, draft.key = key ∧ property draft) ↔
      ∃ entry, ledger.find? key = some entry ∧ property entry.draft := by
  constructor
  · rintro ⟨draft, drafted, rfl, holds⟩
    obtain ⟨entry, listed, rfl⟩ := List.mem_map.mp drafted
    exact ⟨entry, find?_eq_some_of_mem distinct listed, holds⟩
  · rintro ⟨entry, found, holds⟩
    obtain ⟨listed, sameKey⟩ := mem_of_find? found
    exact ⟨entry.draft, List.mem_map_of_mem listed, sameKey, holds⟩

/-- A ledger that holds the first entries of its history keeps its books. -/
theorem Records.books
    (records : ledger.Records history) :
    ledger.Books history where
  keysDistinct := records.nodup_keys
  contains_iff := by
    intro key
    rw [Ledger.contains_iff, drafts]
    simp [LedgerEntry.key]
  index_iff := by
    intro key position source
    rw [get?_index_eq_some_iff records.nodup_keys]
    constructor
    · rintro ⟨entry, placed, rfl, rfl⟩
      refine ⟨⟨entry.draft, ?_, rfl⟩, entry, ?_, rfl⟩
      · rw [drafts, List.getElem?_map, placed, Option.map_some]
      · rw [← records.find?_eq]
        exact find?_eq_some_of_mem records.nodup_keys
          (List.mem_of_getElem? placed)
    · rintro ⟨⟨draft, drafted, sameKey⟩, first, isFirst, rfl⟩
      rw [drafts, List.getElem?_map, Option.map_eq_some_iff] at drafted
      obtain ⟨entry, placed, rfl⟩ := drafted
      have found : ledger.find? key = some entry :=
        sameKey ▸ find?_eq_some_of_mem records.nodup_keys
          (List.mem_of_getElem? placed)
      rw [← records.find?_eq, found, Option.some.injEq] at isFirst
      exact ⟨entry, placed, sameKey, isFirst ▸ rfl⟩
  indexed := push?_indexed records.nodup_keys
  new_iff := by
    intro draft source
    simp [push_eq_ok_iff, contains]
  entered := by
    intro draft source next pushed
    rcases push_eq_ok_iff.mp pushed with ⟨_, _, rfl⟩ | ⟨isNew, _⟩
    · exact ⟨drafts_extend ledger _, index_extend ledger _⟩
    · cases isNew
  repeated_iff := by
    intro draft source next
    rw [push_eq_ok_iff, exists_mem_drafts_iff records.nodup_keys]
    simp
  refused_iff := by
    intro draft source error
    rw [push_eq_error_iff, exists_mem_drafts_iff records.nodup_keys,
      ← records.find?_eq]
    constructor
    · rintro ⟨holder, held, differs, isError⟩
      exact ⟨holder, held, differs, holder, held, isError⟩
    · rintro ⟨holder, held, differs, first, isFirst, isError⟩
      obtain rfl : holder = first :=
        Option.some.inj (held.symm.trans isFirst)
      exact ⟨holder, held, differs, isError⟩
  kept := by
    intro draft source notNew
    simp only [Ledger.serve, List.foldl_cons, List.foldl_nil,
      LedgerRequest.steps, Ledger.run]
    cases pushed : ledger.push draft source with
    | error error =>
        rfl
    | ok answer =>
        rcases push_eq_ok_iff.mp pushed with ⟨isNew, _⟩ | ⟨_, isKept, _⟩
        · exact absurd (pushed.trans (by rw [← isNew])) (notNew answer.2)
        · exact isKept
  closed_iff := dangling?_eq_none_iff_not_misses
  dangling_iff := fun _ _ => dangling?_eq_some_iff

/--
However a ledger came about, by drafts entered and stages run, completed or
failed, it keeps its books.  Its list and its index never part, and later
requests leave the drafts where they are.
-/
theorem serve_keeps_books (requests : List LedgerRequest) :
    IndexedDrafts.empty.serve? requests =
        some (empty.serve requests).indexed ∧
      (empty.serve requests).Books (empty.history requests) ∧
        ∀ more,
          (empty.serve requests).drafts <+:
            (empty.serve (requests ++ more)).drafts := by
  have unwritten : empty.Records [] := rfl
  refine ⟨serve?_indexed unwritten requests,
    (unwritten.serve requests).books, ?_⟩
  intro more
  rw [serve_append]
  exact (entries_prefix_serve _ more).map LedgerEntry.draft

end AccessTopology.Ledger
