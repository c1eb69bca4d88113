import AccessTopology.Proofs.Ledger.Run

namespace AccessTopology

/-!
# External names in a ledger

What was observed reaches a draft at one place only: the external name that was
observed for its key.  Drafts under one key therefore have one external name,
so naming drafts after other observations neither makes two of them the same
nor tells them apart.  A run that takes drafts named after other observations
does what it did before, and its ledger differs in those names only.
-/

/-- The external name that was observed for a key. -/
def Observations.externalName?
    (observations : Observations)
    (key : LogicalKey) :
    Option String :=
  (observations.get? key).bind Observation.externalName

namespace Draft

/-- The draft with the external name that was observed for its key. -/
def named
    (observations : Observations)
    (draft : Draft) :
    Draft :=
  { draft with externalName := observations.externalName? draft.key }

/-- Which observations drafts are named after does not make them the same. -/
theorem same_named
    (left right : Observations)
    (earlier later : Draft) :
    (earlier.named left).same (later.named left) =
      (earlier.named right).same (later.named right) := by
  by_cases sameKey : earlier.key = later.key
  · simp [same, named, sameKey]
  · have keysDiffer : (earlier.key == later.key) = false :=
      beq_eq_false_iff_ne.mpr sameKey
    simp [same, named, keysDiffer]

end Draft

/-- The step with the external name that was observed for its draft's key. -/
def Step.named (observations : Observations) : Step → Step
  | draft drafted source => draft (drafted.named observations) source
  | fault error => fault error

/-- The entry with the external name that was observed for its key. -/
def LedgerEntry.named
    (observations : Observations)
    (entry : LedgerEntry) :
    LedgerEntry :=
  { entry with draft := entry.draft.named observations }

namespace Ledger

/-- The ledger with the external names that were observed for its keys. -/
def named
    (observations : Observations)
    (ledger : Ledger) :
    Ledger :=
  ⟨ledger.entries.map (LedgerEntry.named observations)⟩

theorem drafts_named
    (observations : Observations)
    (ledger : Ledger) :
    (ledger.named observations).drafts =
      ledger.drafts.map (Draft.named observations) := by
  simp only [drafts, named, List.map_map]
  rfl

theorem find?_named
    (observations : Observations)
    (ledger : Ledger)
    (key : LogicalKey) :
    (ledger.named observations).find? key =
      (ledger.find? key).map (LedgerEntry.named observations) := by
  rw [find?, find?, named, List.find?_map]
  rfl

theorem contains_named
    (observations : Observations)
    (ledger : Ledger)
    (key : LogicalKey) :
    (ledger.named observations).contains key = ledger.contains key := by
  rw [contains, contains, find?_named, Option.isSome_map]

/-- Naming drafts does not change what they point at. -/
theorem dangling?_named
    (observations : Observations)
    (ledger : Ledger) :
    (ledger.named observations).dangling? = ledger.dangling? := by
  simp only [dangling?, drafts_named, contains_named, List.findSome?_map]
  rfl

theorem named_named
    (left right : Observations)
    (ledger : Ledger) :
    (ledger.named left).named right = ledger.named right := by
  simp only [named, List.map_map]
  rfl

/--
Whatever names drafts, a draft enters the ledger alike or is refused for one
reason.
-/
theorem push_named
    (ledger : Ledger)
    (draft : Draft)
    (source : String) :
    (∃ answer : Bool × Ledger,
        ∀ observations,
          (ledger.named observations).push (draft.named observations)
              source =
            .ok (answer.1, answer.2.named observations)) ∨
      ∃ error,
        ∀ observations,
          (ledger.named observations).push (draft.named observations)
              source =
            .error error := by
  have heldNamed (observations : Observations) :
      (ledger.named observations).find? (draft.named observations).key =
        (ledger.find? draft.key).map (LedgerEntry.named observations) :=
    find?_named observations ledger draft.key
  cases held : ledger.find? draft.key with
  | none =>
      refine .inl ⟨(true, ledger.extend ⟨draft, source⟩), ?_⟩
      intro observations
      rw [push, heldNamed, held, Option.map_none]
      simp [named, extend, LedgerEntry.named]
  | some holder =>
      have verdict (observations : Observations) :
          (holder.named observations).draft.same (draft.named observations) =
            (holder.named .empty).draft.same (draft.named .empty) :=
        Draft.same_named observations .empty holder.draft draft
      by_cases sameDraft :
          (holder.named .empty).draft.same (draft.named .empty) = true
      · refine .inl ⟨(false, ledger), ?_⟩
        intro observations
        rw [push, heldNamed, held, Option.map_some]
        simp only [verdict, if_pos sameDraft]
      · refine .inr
          ⟨.configuration (.keyConflict holder.source source draft.key), ?_⟩
        intro observations
        rw [push, heldNamed, held, Option.map_some]
        simp only [verdict, if_neg sameDraft]
        rfl

/--
Steps named after other observations lead to the same outcome, and to a ledger
named after these.
-/
theorem run_named
    (left right : Observations)
    (ledger : Ledger)
    (steps : List Step) :
    (ledger.named right).run (steps.map (Step.named right)) =
      (((ledger.named left).run (steps.map (Step.named left))).1.named right,
        ((ledger.named left).run (steps.map (Step.named left))).2) := by
  induction steps generalizing ledger with
  | nil =>
      simp only [List.map_nil, run, named_named]
  | cons step rest inductionHypothesis =>
      cases step with
      | fault error =>
          simp only [List.map_cons, Step.named, run, named_named]
      | draft draft source =>
          simp only [List.map_cons, Step.named, run]
          rcases push_named ledger draft source with
            ⟨answer, entered⟩ | ⟨error, refused⟩
          · simp only [entered]
            exact inductionHypothesis answer.2
          · simp only [refused, named_named]

end Ledger

namespace Declaration

/-- Observations name the draft of a declaration and do nothing else to it. -/
theorem step_named
    (left right : Observations)
    (scope : Scope)
    (home : String)
    (declaration : Declaration) :
    (declaration.step scope left home).named right =
      declaration.step scope right home := by
  rw [step, step, draft, draft]
  cases declaration.references scope <;> rfl

end Declaration

namespace Stage

theorem assignmentStepsAfter_named
    (left right : Observations)
    (scope : Scope)
    (instanceArn : String)
    (met rest : List Assignment) :
    (assignmentStepsAfter scope left instanceArn met rest).map
        (Step.named right) =
      assignmentStepsAfter scope right instanceArn met rest := by
  induction rest generalizing met with
  | nil =>
      rfl
  | cons binding rest inductionHypothesis =>
      rw [assignmentStepsAfter, assignmentStepsAfter]
      split
      · split
        · exact inductionHypothesis met
        · rfl
      · rw [List.map_cons, Declaration.step_named, inductionHypothesis]

/-- What a stage does under other observations, it does with other names. -/
theorem steps_named
    (left right : Observations)
    (scope : Scope)
    (stage : Stage) :
    (stage.steps scope left).map (Step.named right) =
      stage.steps scope right := by
  have walkNamed
      (home : String)
      (declarations : List Declaration) :
      (declarations.map (Declaration.step scope left home)).map
          (Step.named right) =
        declarations.map (Declaration.step scope right home) := by
    rw [List.map_map]
    refine List.map_congr_left ?_
    intro declaration _
    exact Declaration.step_named left right scope home declaration
  cases stage with
  | principals =>
      rw [steps, steps, principalSteps, principalSteps]
      split
      · rfl
      · exact walkNamed _ _
  | permissionSets =>
      rw [steps, steps, permissionSetSteps, permissionSetSteps]
      split
      · rfl
      · split
        · rfl
        · exact walkNamed _ _
  | assignments =>
      simp only [steps, assignmentSteps]
      split
      · rfl
      · split
        · rfl
        · exact assignmentStepsAfter_named left right scope _ _ _
  | federation =>
      rfl

end Stage

/-- A pass under other observations ends alike, with other names. -/
theorem Ledger.runStages_named
    (left right : Observations)
    (scope : Scope)
    (stages : List Stage) :
    runStages scope right .empty stages =
      ((runStages scope left .empty stages).1.named right,
        (runStages scope left .empty stages).2) := by
  have stepsNamed (observations : Observations) :
      stages.flatMap (fun stage => stage.steps scope observations) =
        (stages.flatMap (fun stage => stage.steps scope left)).map
          (Step.named observations) := by
    simp only [List.map_flatMap, Stage.steps_named]
  have ran :=
    run_named left right .empty
      (stages.flatMap (fun stage => stage.steps scope left))
  rw [← stepsNamed right, ← stepsNamed left] at ran
  rw [runStages_eq_run, runStages_eq_run]
  exact ran

end AccessTopology
