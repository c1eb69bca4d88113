import AccessTopology.Proofs.Ledger.Dangling
import AccessTopology.Proofs.Ledger.Indexed

namespace AccessTopology

/-!
# The history of a ledger

A ledger is asked to enter single drafts and to run whole stages, and may fail
at any of them.  Its history lists every entry that it tried to make.  The
ledger holds the first entry of every key in its history, and from this follows
what its index holds, what it answers to a further draft and which reference of
its drafts dangles.

A point within a stage is a point between requests: it is reached by entering
the stage's first drafts one by one.
-/

/-- Dropping repeats keeps the first value of a label. -/
theorem find?_dropRepeats
    [DecidableEq β]
    (label : α → β)
    (values : List α)
    (wanted : β) :
    (dropRepeats label values).find? (fun value => label value = wanted) =
      values.find? (fun value => label value = wanted) := by
  induction values with
  | nil =>
      rfl
  | cons value rest inductionHypothesis =>
      rw [dropRepeats, List.find?_cons, List.find?_cons]
      by_cases isWanted : label value = wanted
      · simp [isWanted]
      · -- What repeats the label of the value is not wanted either.
        have keepsWanted (later : α) :
            label later ≠ label value ∧ label later = wanted ↔
              label later = wanted :=
          and_iff_right_of_imp
            (fun isLater => isLater ▸ Ne.symm isWanted)
        simp only [isWanted, decide_false, List.find?_filter,
          decide_eq_true_eq, keepsWanted, inductionHypothesis]

/-- What a ledger is asked for. -/
inductive LedgerRequest
  | push (draft : Draft) (source : String)
  | run (stage : Stage) (scope : Scope) (observations : Observations)

/-- The steps of a request. -/
def LedgerRequest.steps : LedgerRequest → List Step
  | push draft source => [.draft draft source]
  | run stage scope observations => stage.steps scope observations

/--
The list and the index after some requests, each of which may have failed.
There is no answer where the index ever pointed beside the list.
-/
def IndexedDrafts.serve?
    (indexed : IndexedDrafts)
    (requests : List LedgerRequest) :
    Option IndexedDrafts :=
  requests.foldlM
    (fun reached request => (reached.run? request.steps).map Prod.fst)
    indexed

namespace Ledger

/-- The ledger after some requests, each of which may have failed. -/
def serve
    (ledger : Ledger)
    (requests : List LedgerRequest) :
    Ledger :=
  requests.foldl
    (fun reached request => (reached.run request.steps).1)
    ledger

/-- The entries that steps try to make, up to the first step that fails. -/
def attempts : Ledger → List Step → List LedgerEntry
  | _, [] => []
  | _, .fault _ :: _ => []
  | ledger, .draft draft source :: steps =>
      ⟨draft, source⟩ ::
        match ledger.push draft source with
        | .ok (_, next) => attempts next steps
        | .error _ => []

/-- The entries that requests try to make. -/
def history : Ledger → List LedgerRequest → List LedgerEntry
  | _, [] => []
  | ledger, request :: requests =>
      ledger.attempts request.steps ++
        history (ledger.run request.steps).1 requests

/-- A ledger holds the first entry of every key in a history. -/
def Records
    (ledger : Ledger)
    (history : List LedgerEntry) :
    Prop :=
  ledger.entries = dropRepeats LedgerEntry.key history

variable {ledger : Ledger} {history : List LedgerEntry}

namespace Records

theorem mem_keys_iff
    (records : ledger.Records history)
    {key : LogicalKey} :
    key ∈ ledger.entries.map LedgerEntry.key ↔
      key ∈ history.map LedgerEntry.key := by
  rw [records, mem_map_dropRepeats]

theorem find?_eq
    (records : ledger.Records history)
    (key : LogicalKey) :
    ledger.find? key = history.find? (fun entry => entry.key = key) := by
  rw [← find?_dropRepeats LedgerEntry.key, ← records]
  rfl

theorem nodup_keys
    (records : ledger.Records history) :
    ledger.keys.Nodup := by
  rw [keys_eq_map_key, records]
  exact nodup_map_dropRepeats LedgerEntry.key history

theorem extend
    (records : ledger.Records history)
    {entry : LedgerEntry}
    (new : ledger.find? entry.key = none) :
    (ledger.extend entry).Records (history ++ [entry]) := by
  have notMet : entry.key ∉ history.map LedgerEntry.key := by
    rw [← records.mem_keys_iff]
    exact find?_eq_none.mp new
  rw [Records, Ledger.extend, records, dropRepeats_append,
    dropRepeatsAfter_cons_of_new notMet]
  rfl

theorem repeated
    (records : ledger.Records history)
    {entry holder : LedgerEntry}
    (held : ledger.find? entry.key = some holder) :
    ledger.Records (history ++ [entry]) := by
  obtain ⟨listed, sameKey⟩ := mem_of_find? held
  have met : entry.key ∈ history.map LedgerEntry.key :=
    records.mem_keys_iff.mp (List.mem_map.mpr ⟨holder, listed, sameKey⟩)
  rw [Records, records, dropRepeats_append,
    dropRepeatsAfter_cons_of_met met]
  simp [dropRepeatsAfter, dropRepeats]

/-- Steps add what they try to enter to the history, whether they fail or not. -/
theorem run
    (records : ledger.Records history)
    (steps : List Step) :
    (ledger.run steps).1.Records (history ++ ledger.attempts steps) := by
  induction steps generalizing ledger history with
  | nil =>
      simpa [Ledger.run, attempts] using records
  | cons step rest inductionHypothesis =>
      cases step with
      | fault error =>
          simpa [Ledger.run, attempts] using records
      | draft draft source =>
          let entry : LedgerEntry := ⟨draft, source⟩
          rw [Ledger.run, attempts, ← List.singleton_append,
            ← List.append_assoc]
          cases pushed : ledger.push draft source with
          | error error =>
              obtain ⟨holder, held, _⟩ := push_eq_error_iff.mp pushed
              have kept : ledger.Records (history ++ [entry]) :=
                records.repeated held
              simpa using kept
          | ok answer =>
              have next : answer.2.Records (history ++ [entry]) := by
                rcases push_eq_ok_iff.mp pushed with
                  ⟨_, new, isNext⟩ | ⟨_, isNext, holder, held, _⟩
                · exact isNext ▸ records.extend new
                · exact isNext ▸ records.repeated held
              exact inductionHypothesis next

theorem serve
    (records : ledger.Records history)
    (requests : List LedgerRequest) :
    (ledger.serve requests).Records
      (history ++ ledger.history requests) := by
  induction requests generalizing ledger history with
  | nil =>
      simpa [Ledger.serve, Ledger.history] using records
  | cons request rest inductionHypothesis =>
      rw [Ledger.history, ← List.append_assoc]
      exact inductionHypothesis (records.run request.steps)

end Records

/-- Requests leave the drafts of a ledger in their place. -/
theorem entries_prefix_serve
    (ledger : Ledger)
    (requests : List LedgerRequest) :
    ledger.entries <+: (ledger.serve requests).entries := by
  induction requests generalizing ledger with
  | nil =>
      exact List.prefix_rfl
  | cons request rest inductionHypothesis =>
      exact (entries_prefix_run ledger request.steps).trans
        (inductionHypothesis (ledger.run request.steps).1)

theorem serve_append
    (ledger : Ledger)
    (requests more : List LedgerRequest) :
    ledger.serve (requests ++ more) = (ledger.serve requests).serve more :=
  List.foldl_append

/-- By way of its index a ledger serves requests as it does by itself. -/
theorem serve?_indexed
    (records : ledger.Records history)
    (requests : List LedgerRequest) :
    ledger.indexed.serve? requests =
      some (ledger.serve requests).indexed := by
  induction requests generalizing ledger history with
  | nil =>
      rfl
  | cons request rest inductionHypothesis =>
      rw [IndexedDrafts.serve?, List.foldlM_cons,
        run?_indexed records.nodup_keys]
      exact inductionHypothesis (records.run request.steps)

end Ledger

end AccessTopology
