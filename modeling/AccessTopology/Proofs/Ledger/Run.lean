import AccessTopology.Proofs.Draft.Sameness
import AccessTopology.Proofs.Repeats
import AccessTopology.Topology.Stage

namespace AccessTopology

/-!
# Runs of the ledger

A run that never fails takes drafting steps only.  It adds the first draft of
every new key, in order, and every later draft under a key is the same as the
first.  Conversely a run cannot fail while drafts under one key are the same.
What a run fails with is either a fault among its steps or a conflict of keys.
A ledger only grows, and steps whose drafts it holds leave it as it is.
-/

/-- The key under which an entry is found. -/
def LedgerEntry.key (entry : LedgerEntry) : LogicalKey :=
  entry.draft.key

/-- The step that makes an entry. -/
def LedgerEntry.step (entry : LedgerEntry) : Step :=
  .draft entry.draft entry.source

theorem LedgerEntry.step_injective : Function.Injective LedgerEntry.step := by
  rintro ⟨leftDraft, leftSource⟩ ⟨rightDraft, rightSource⟩ same
  simpa [step] using same

namespace Ledger

theorem contains_iff
    {ledger : Ledger}
    {key : LogicalKey} :
    ledger.contains key = true ↔
      key ∈ ledger.entries.map LedgerEntry.key := by
  simp [contains, find?, LedgerEntry.key]

theorem find?_eq_none
    {ledger : Ledger}
    {key : LogicalKey} :
    ledger.find? key = none ↔
      key ∉ ledger.entries.map LedgerEntry.key := by
  simp [find?, LedgerEntry.key]

theorem mem_of_find?
    {ledger : Ledger}
    {key : LogicalKey}
    {entry : LedgerEntry}
    (found : ledger.find? key = some entry) :
    entry ∈ ledger.entries ∧ entry.key = key := by
  constructor
  · exact List.mem_of_find?_eq_some found
  · simpa [LedgerEntry.key] using List.find?_some found

/--
Steps after other steps start from the ledger that those leave, unless they
fail.
-/
theorem run_append
    (ledger : Ledger)
    (first second : List Step) :
    ledger.run (first ++ second) =
      match ledger.run first with
      | (next, none) => next.run second
      | (stopped, some error) => (stopped, some error) := by
  induction first generalizing ledger with
  | nil =>
      rfl
  | cons step rest inductionHypothesis =>
      cases step with
      | fault error =>
          rfl
      | draft draft source =>
          rw [List.cons_append, run, run]
          cases pushed : ledger.push draft source with
          | error error =>
              rfl
          | ok answer =>
              exact inductionHypothesis answer.2

/-- Running stages is running the steps of all of them. -/
theorem runStages_eq_run
    (scope : Scope)
    (observations : Observations)
    (ledger : Ledger)
    (stages : List Stage) :
    runStages scope observations ledger stages =
      ledger.run
        (stages.flatMap (fun stage => stage.steps scope observations)) := by
  induction stages generalizing ledger with
  | nil =>
      rfl
  | cons stage rest inductionHypothesis =>
      rw [runStages, List.flatMap_cons, run_append]
      cases outcome : ledger.run (stage.steps scope observations) with
      | mk next error? =>
          cases error? with
          | none =>
              exact inductionHypothesis next
          | some error =>
              rfl

/-- A run that does not fail takes drafting steps only. -/
theorem steps_of_run_eq_ok
    {ledger final : Ledger}
    {steps : List Step}
    (completed : ledger.run steps = (final, none)) :
    ∃ entries : List LedgerEntry,
      steps = entries.map LedgerEntry.step := by
  induction steps generalizing ledger with
  | nil =>
      exact ⟨[], rfl⟩
  | cons step rest inductionHypothesis =>
      cases step with
      | fault error =>
          simp [run] at completed
      | draft draft source =>
          rw [run] at completed
          cases pushed : ledger.push draft source with
          | error error =>
              simp [pushed] at completed
          | ok answer =>
              rw [pushed] at completed
              obtain ⟨entries, restSteps⟩ :=
                inductionHypothesis completed
              exact ⟨⟨draft, source⟩ :: entries, by
                rw [restSteps]
                rfl⟩

/-- The ledger with one more entry. -/
def extend
    (ledger : Ledger)
    (entry : LedgerEntry) :
    Ledger :=
  ⟨ledger.entries ++ [entry]⟩

/-- A step for a key that nothing holds adds its entry. -/
theorem run_step_of_new
    {ledger : Ledger}
    {entry : LedgerEntry}
    (new : ledger.find? entry.key = none)
    (rest : List Step) :
    ledger.run (entry.step :: rest) = (ledger.extend entry).run rest := by
  rw [LedgerEntry.key] at new
  simp only [LedgerEntry.step, run, push, new]
  rfl

theorem run_step_of_same
    {ledger : Ledger}
    {entry holder : LedgerEntry}
    (held : ledger.find? entry.key = some holder)
    (same : holder.draft.same entry.draft = true)
    (rest : List Step) :
    ledger.run (entry.step :: rest) = ledger.run rest := by
  rw [LedgerEntry.key] at held
  simp [LedgerEntry.step, run, push, held, same]

/-- A step for a key that another draft holds fails, naming both declarations. -/
theorem run_step_of_conflict
    {ledger : Ledger}
    {entry holder : LedgerEntry}
    (held : ledger.find? entry.key = some holder)
    (differs : holder.draft.same entry.draft = false)
    (rest : List Step) :
    ledger.run (entry.step :: rest) =
      (ledger,
        some
          (.configuration
            (.keyConflict holder.source entry.source entry.key))) := by
  rw [LedgerEntry.key] at held
  simp [LedgerEntry.step, LedgerEntry.key, run, push, held, differs]

/--
A run of drafting steps that does not fail adds the first entry of every key
that the ledger did not hold.
-/
theorem entries_of_run_eq_ok
    {ledger final : Ledger}
    {added : List LedgerEntry}
    (completed :
      ledger.run (added.map LedgerEntry.step) = (final, none)) :
    final.entries =
      ledger.entries ++
        dropRepeatsAfter LedgerEntry.key
          (ledger.entries.map LedgerEntry.key) added := by
  induction added generalizing ledger with
  | nil =>
      simp only [List.map_nil, run, Prod.mk.injEq, and_true] at completed
      subst completed
      simp [dropRepeatsAfter, dropRepeats]
  | cons entry rest inductionHypothesis =>
      rw [List.map_cons] at completed
      cases held : ledger.find? entry.key with
      | none =>
          rw [run_step_of_new held] at completed
          rw [inductionHypothesis completed,
            dropRepeatsAfter_cons_of_new (find?_eq_none.mp held), extend,
            List.append_assoc, List.map_append]
          rfl
      | some holder =>
          obtain ⟨holderMember, holderKey⟩ := mem_of_find? held
          have heldKey :
              entry.key ∈ ledger.entries.map LedgerEntry.key :=
            List.mem_map.mpr ⟨holder, holderMember, holderKey⟩
          rw [dropRepeatsAfter_cons_of_met heldKey]
          cases sameDraft : holder.draft.same entry.draft with
          | false =>
              rw [run_step_of_conflict held sameDraft] at completed
              simp at completed
          | true =>
              rw [run_step_of_same held sameDraft] at completed
              exact inductionHypothesis completed

/-- A run keeps what the ledger held, in its place. -/
theorem entries_prefix_run
    (ledger : Ledger)
    (steps : List Step) :
    ledger.entries <+: (ledger.run steps).1.entries := by
  induction steps generalizing ledger with
  | nil =>
      exact List.prefix_rfl
  | cons step rest inductionHypothesis =>
      cases step with
      | fault error =>
          exact List.prefix_rfl
      | draft draft source =>
          let entry : LedgerEntry := ⟨draft, source⟩
          change ledger.entries <+: (ledger.run (entry.step :: rest)).1.entries
          cases held : ledger.find? entry.key with
          | none =>
              rw [run_step_of_new held]
              exact (List.prefix_append _ _).trans
                (inductionHypothesis (ledger.extend entry))
          | some holder =>
              cases sameDraft : holder.draft.same entry.draft with
              | true =>
                  rw [run_step_of_same held sameDraft]
                  exact inductionHypothesis ledger
              | false =>
                  have unchanged :
                      (ledger.run (entry.step :: rest)).1 = ledger := by
                    rw [run_step_of_conflict held sameDraft]
                  simp only [unchanged, List.prefix_rfl]

/-- What is found under a key is found there after every further entry. -/
theorem find?_of_grown
    {earlier later : Ledger}
    (grown : earlier.entries <+: later.entries)
    {key : LogicalKey}
    {entry : LedgerEntry}
    (found : earlier.find? key = some entry) :
    later.find? key = some entry := by
  obtain ⟨added, isLater⟩ := grown
  rw [find?] at found
  rw [find?, ← isLater, List.find?_append, found, Option.some_or]

/--
A ledger holds what steps draft: each of them drafts, and the ledger has the
same draft under the draft's key.
-/
def Holds
    (ledger : Ledger)
    (steps : List Step) :
    Prop :=
  ∀ step ∈ steps,
    ∃ entry holder : LedgerEntry,
      step = entry.step ∧
        ledger.find? entry.key = some holder ∧
          holder.draft.same entry.draft = true

theorem Holds.mono
    {earlier later : Ledger}
    {steps : List Step}
    (holds : earlier.Holds steps)
    (grown : earlier.entries <+: later.entries) :
    later.Holds steps := by
  intro step member
  obtain ⟨entry, holder, isStep, found, sameDraft⟩ := holds step member
  exact ⟨entry, holder, isStep, find?_of_grown grown found, sameDraft⟩

/-- A run that does not fail leaves a ledger that holds what its steps draft. -/
theorem holds_of_run_eq_ok
    {ledger final : Ledger}
    {steps : List Step}
    (completed : ledger.run steps = (final, none)) :
    final.Holds steps := by
  induction steps generalizing ledger with
  | nil =>
      intro step member
      cases member
  | cons step rest inductionHypothesis =>
      cases step with
      | fault error =>
          simp [run] at completed
      | draft draft source =>
          let entry : LedgerEntry := ⟨draft, source⟩
          change ledger.run (entry.step :: rest) = (final, none) at completed
          cases held : ledger.find? entry.key with
          | none =>
              rw [run_step_of_new held] at completed
              have entered :
                  (ledger.extend entry).find? entry.key = some entry := by
                rw [find?] at held
                rw [find?, extend, List.find?_append, held]
                simp [LedgerEntry.key]
              have grown : (ledger.extend entry).entries <+: final.entries := by
                simpa [completed] using
                  entries_prefix_run (ledger.extend entry) rest
              refine List.forall_mem_cons.mpr
                ⟨⟨entry, entry, rfl, find?_of_grown grown entered, ?_⟩,
                  inductionHypothesis completed⟩
              exact Draft.same_refl entry.draft
          | some holder =>
              cases sameDraft : holder.draft.same entry.draft with
              | false =>
                  rw [run_step_of_conflict held sameDraft] at completed
                  simp at completed
              | true =>
                  rw [run_step_of_same held sameDraft] at completed
                  have grown : ledger.entries <+: final.entries := by
                    simpa [completed] using entries_prefix_run ledger rest
                  exact List.forall_mem_cons.mpr
                    ⟨⟨entry, holder, rfl, find?_of_grown grown held,
                        sameDraft⟩,
                      inductionHypothesis completed⟩

/-- Steps whose drafts a ledger holds already do not change it. -/
theorem run_of_holds
    {ledger : Ledger}
    {steps : List Step}
    (holds : ledger.Holds steps) :
    ledger.run steps = (ledger, none) := by
  induction steps with
  | nil =>
      rfl
  | cons step rest inductionHypothesis =>
      obtain ⟨⟨entry, holder, isStep, held, sameDraft⟩, restHeld⟩ :=
        List.forall_mem_cons.mp holds
      rw [isStep, run_step_of_same held sameDraft]
      exact inductionHypothesis restHeld

/--
A run of drafting steps that does not fail leaves each key with a draft that is
the same as every draft made under it.
-/
theorem same_of_run_eq_ok
    {ledger final : Ledger}
    {added : List LedgerEntry}
    (completed :
      ledger.run (added.map LedgerEntry.step) = (final, none))
    {entry : LedgerEntry}
    (member : entry ∈ added) :
    ∃ holder ∈ final.entries,
      holder.key = entry.key ∧
        holder.draft.same entry.draft = true := by
  obtain ⟨other, holder, sameStep, held, sameDraft⟩ :=
    holds_of_run_eq_ok completed entry.step (List.mem_map_of_mem member)
  obtain rfl : entry = other := LedgerEntry.step_injective sameStep
  obtain ⟨holderMember, holderKey⟩ := mem_of_find? held
  exact ⟨holder, holderMember, holderKey, sameDraft⟩

/--
A run of drafting steps does not fail while drafts under one key are the same.
-/
theorem run_eq_ok_of_same
    {ledger : Ledger}
    {added : List LedgerEntry}
    (agree :
      ∀ earlier ∈ ledger.entries ++ added,
        ∀ later ∈ added,
          earlier.key = later.key →
            earlier.draft.same later.draft = true) :
    ∃ final, ledger.run (added.map LedgerEntry.step) = (final, none) := by
  induction added generalizing ledger with
  | nil =>
      exact ⟨ledger, rfl⟩
  | cons entry rest inductionHypothesis =>
      rw [List.map_cons]
      cases held : ledger.find? entry.key with
      | none =>
          rw [run_step_of_new held]
          refine inductionHypothesis ?_
          intro earlier earlierMember later laterMember
          refine agree earlier ?_ later (List.mem_cons_of_mem entry laterMember)
          simpa [extend] using earlierMember
      | some holder =>
          obtain ⟨holderMember, holderKey⟩ := mem_of_find? held
          have sameDraft :=
            agree holder (List.mem_append_left _ holderMember)
              entry List.mem_cons_self holderKey
          rw [run_step_of_same held sameDraft]
          refine inductionHypothesis ?_
          intro earlier earlierMember later laterMember
          refine agree earlier ?_ later (List.mem_cons_of_mem entry laterMember)
          rcases List.mem_append.mp earlierMember with inLedger | inRest
          · exact List.mem_append_left _ inLedger
          · exact List.mem_append_right _ (List.mem_cons_of_mem entry inRest)

/-- A run fails with one of its faults or because of the topology. -/
theorem error_of_run
    {ledger stopped : Ledger}
    {steps : List Step}
    {error : RenderError}
    (failed : ledger.run steps = (stopped, some error)) :
    Step.fault error ∈ steps ∨ ∃ fault, error = .configuration fault := by
  induction steps generalizing ledger with
  | nil =>
      simp [run] at failed
  | cons step rest inductionHypothesis =>
      cases step with
      | fault raised =>
          simp only [run, Prod.mk.injEq, Option.some.injEq] at failed
          exact .inl (by simp [failed.2])
      | draft draft source =>
          let entry : LedgerEntry := ⟨draft, source⟩
          have failedAt :
              ledger.run (entry.step :: rest) = (stopped, some error) :=
            failed
          cases held : ledger.find? entry.key with
          | none =>
              rw [run_step_of_new held] at failedAt
              exact (inductionHypothesis failedAt).imp
                (List.mem_cons_of_mem _) id
          | some holder =>
              cases sameDraft : holder.draft.same entry.draft with
              | false =>
                  rw [run_step_of_conflict held sameDraft] at failedAt
                  simp only [Prod.mk.injEq, Option.some.injEq] at failedAt
                  exact .inr ⟨_, failedAt.2.symm⟩
              | true =>
                  rw [run_step_of_same held sameDraft] at failedAt
                  exact (inductionHypothesis failedAt).imp
                    (List.mem_cons_of_mem _) id

end Ledger

end AccessTopology
