import AccessTopology.Proofs.KeyMap.Entries
import AccessTopology.Proofs.Ledger.Run

namespace AccessTopology

/-!
# A ledger as a list and an index

A ledger may be kept as the list of its drafts and, beside it, an index that
gives for each key the position of its draft and the declaration that it came
from.  While no two drafts share a key the index points at each draft under the
draft's own key, and never beside the list.  Entering a draft by way of the
index is then entering it into the ledger.
-/

/-- Drafts in order, and for each key a position among them and a declaration. -/
structure IndexedDrafts where
  drafts : List Draft
  index : KeyMap (Nat × String)

namespace IndexedDrafts

/-- The empty list with the empty index. -/
def empty : IndexedDrafts :=
  ⟨[], .empty⟩

/--
Enter a draft by way of the index. There is no answer where the index points
beside the list.
-/
def push?
    (indexed : IndexedDrafts)
    (draft : Draft)
    (source : String) :
    Option (Except RenderError (Bool × IndexedDrafts)) :=
  match indexed.index.get? draft.key.text with
  | none =>
      some
        (.ok
          (true,
            { drafts := indexed.drafts ++ [draft]
              index :=
                indexed.index.insert draft.key.text
                  (indexed.drafts.length, source) }))
  | some (position, first) =>
      indexed.drafts[position]?.map
        (fun held =>
          if held.same draft then .ok (false, indexed)
          else
            .error (.configuration (.keyConflict first source draft.key)))

/-- Take steps by way of the index, up to the first that fails. -/
def run? :
    IndexedDrafts →
    List Step →
    Option (IndexedDrafts × Option RenderError)
  | indexed, [] => some (indexed, none)
  | indexed, .fault error :: _ => some (indexed, some error)
  | indexed, .draft draft source :: steps =>
      match indexed.push? draft source with
      | none => none
      | some (.ok (_, next)) => run? next steps
      | some (.error error) => some (indexed, some error)

end IndexedDrafts

namespace Ledger

variable {ledger : Ledger}

/-- The position and the declaration of the draft under each key. -/
def index (ledger : Ledger) : KeyMap (Nat × String) :=
  .ofList
    (ledger.entries.zipIdx.map
      (fun (entry, position) =>
        (entry.key.text, (position, entry.source))))

/-- The ledger as a list and an index. -/
def indexed (ledger : Ledger) : IndexedDrafts :=
  ⟨ledger.drafts, ledger.index⟩

theorem keys_eq_map_key (ledger : Ledger) :
    ledger.keys = ledger.entries.map LedgerEntry.key := by
  rw [keys, drafts, List.map_map]
  rfl

theorem drafts_extend
    (ledger : Ledger)
    (entry : LedgerEntry) :
    (ledger.extend entry).drafts = ledger.drafts ++ [entry.draft] := by
  rw [drafts, extend, List.map_append]
  rfl

/-- A new entry is indexed at the end of the list. -/
theorem index_extend
    (ledger : Ledger)
    (entry : LedgerEntry) :
    (ledger.extend entry).index =
      ledger.index.insert entry.key.text
        (ledger.drafts.length, entry.source) := by
  rw [index, extend, List.zipIdx_append, List.map_append, KeyMap.ofList,
    KeyMap.insertAll, List.foldl_append]
  simp [index, drafts, KeyMap.ofList, KeyMap.insertAll]

/-- What it takes to enter a draft, and what the ledger is then. -/
theorem push_eq_ok_iff
    {draft : Draft}
    {source : String}
    {isNew : Bool}
    {next : Ledger} :
    ledger.push draft source = .ok (isNew, next) ↔
      isNew = true ∧ ledger.find? draft.key = none ∧
          next = ledger.extend ⟨draft, source⟩ ∨
        isNew = false ∧ next = ledger ∧
          ∃ holder,
            ledger.find? draft.key = some holder ∧
              holder.draft.same draft = true := by
  cases held : ledger.find? draft.key with
  | none =>
      simp [push, held, extend, eq_comm (b := next)]
  | some holder =>
      cases sameDraft : holder.draft.same draft <;>
        simp [push, held, sameDraft, eq_comm (b := next)]

/-- A draft is refused where another one holds its key. -/
theorem push_eq_error_iff
    {draft : Draft}
    {source : String}
    {error : RenderError} :
    ledger.push draft source = .error error ↔
      ∃ holder,
        ledger.find? draft.key = some holder ∧
          holder.draft.same draft = false ∧
            error =
              .configuration
                (.keyConflict holder.source source draft.key) := by
  cases held : ledger.find? draft.key with
  | none =>
      simp [push, held]
  | some holder =>
      cases sameDraft : holder.draft.same draft <;>
        simp [push, held, sameDraft, eq_comm (b := error)]

theorem nodup_keys_extend
    (distinct : ledger.keys.Nodup)
    {entry : LedgerEntry}
    (new : ledger.find? entry.key = none) :
    (ledger.extend entry).keys.Nodup := by
  rw [keys_eq_map_key] at distinct
  rw [keys_eq_map_key, extend, List.map_append]
  refine List.nodup_append.mpr ⟨distinct, List.nodup_singleton _, ?_⟩
  rintro key held other isEntry rfl
  exact find?_eq_none.mp new (List.mem_singleton.mp isEntry ▸ held)

/-- Entering a draft gives no key a second draft. -/
theorem nodup_keys_of_push
    (distinct : ledger.keys.Nodup)
    {draft : Draft}
    {source : String}
    {isNew : Bool}
    {next : Ledger}
    (pushed : ledger.push draft source = .ok (isNew, next)) :
    next.keys.Nodup := by
  rcases push_eq_ok_iff.mp pushed with ⟨_, new, rfl⟩ | ⟨_, rfl, _⟩
  · exact nodup_keys_extend distinct new
  · exact distinct

/-- A key that was not drafted is not indexed. -/
theorem get?_index_eq_none_iff
    {key : LogicalKey} :
    ledger.index.get? key.text = none ↔ ledger.find? key = none := by
  rw [find?_eq_none, ← Option.not_isSome_iff_eq_none, ← KeyMap.contains,
    ← KeyMap.mem_keys_iff, index, KeyMap.mem_keys_ofList, not_iff_not]
  simp [List.mem_zipIdx_iff_getElem?, ← List.mem_iff_getElem?,
    LogicalKey.text_inj]

/-- Where keys are distinct, the index holds the place of every entry. -/
theorem get?_index_eq_some_iff
    (distinct : ledger.keys.Nodup)
    {key : LogicalKey}
    {position : Nat}
    {source : String} :
    ledger.index.get? key.text = some (position, source) ↔
      ∃ entry,
        ledger.entries[position]? = some entry ∧
          entry.key = key ∧ entry.source = source := by
  constructor
  · intro found
    obtain ⟨⟨entry, place⟩, listed, isFound⟩ :=
      List.mem_map.mp (KeyMap.mem_of_get?_ofList found)
    simp only [Prod.mk.injEq, LogicalKey.text_inj] at isFound
    obtain ⟨sameKey, rfl, sameSource⟩ := isFound
    exact ⟨entry, List.mem_zipIdx_iff_getElem?.mp listed, sameKey,
      sameSource⟩
  · rintro ⟨entry, placed, rfl, rfl⟩
    refine KeyMap.get?_ofList_of_mem ?_ ?_
    · have textsOfKeys :
          (ledger.entries.zipIdx.map
              (fun (entry, position) =>
                (entry.key.text, (position, entry.source)))).map Prod.fst =
            ledger.keys.map LogicalKey.text := by
        rw [keys_eq_map_key, List.map_map, List.map_map,
          ← List.zipIdx_map_fst 0 ledger.entries, List.map_map]
        simp [Function.comp_def]
      rw [textsOfKeys]
      exact distinct.map fun _ _ => LogicalKey.text_inj.mp
    · exact List.mem_map.mpr
        ⟨(entry, position), List.mem_zipIdx_iff_getElem?.mpr placed, rfl⟩

/-- By way of its index a ledger enters a draft as it does by itself. -/
theorem push?_indexed
    (distinct : ledger.keys.Nodup)
    (draft : Draft)
    (source : String) :
    ledger.indexed.push? draft source =
      some
        ((ledger.push draft source).map
          (fun answer => (answer.1, answer.2.indexed))) := by
  cases held : ledger.find? draft.key with
  | none =>
      have absent := get?_index_eq_none_iff.mpr held
      have extended := index_extend ledger ⟨draft, source⟩
      have appended := drafts_extend ledger ⟨draft, source⟩
      simp only [IndexedDrafts.push?, indexed, absent, push, held, Except.map]
      rw [← extend, extended, appended]
      rfl
  | some holder =>
      obtain ⟨listed, sameKey⟩ := mem_of_find? held
      obtain ⟨position, placed⟩ := List.getElem?_of_mem listed
      have present :
          ledger.index.get? draft.key.text =
            some (position, holder.source) :=
        (get?_index_eq_some_iff distinct).mpr
          ⟨holder, placed, sameKey, rfl⟩
      have atPlace : ledger.drafts[position]? = some holder.draft := by
        rw [drafts, List.getElem?_map, placed, Option.map_some]
      simp only [IndexedDrafts.push?, indexed, present, atPlace, push, held,
        Option.map_some]
      cases holder.draft.same draft <;> rfl

/-- By way of its index a ledger takes steps as it does by itself. -/
theorem run?_indexed
    (distinct : ledger.keys.Nodup)
    (steps : List Step) :
    ledger.indexed.run? steps =
      some ((ledger.run steps).1.indexed, (ledger.run steps).2) := by
  induction steps generalizing ledger with
  | nil =>
      rfl
  | cons step rest inductionHypothesis =>
      cases step with
      | fault error =>
          rfl
      | draft draft source =>
          have entered := push?_indexed distinct draft source
          rw [IndexedDrafts.run?, entered, run]
          cases pushed : ledger.push draft source with
          | error error =>
              rfl
          | ok answer =>
              exact inductionHypothesis (nodup_keys_of_push distinct pushed)

end Ledger

end AccessTopology
