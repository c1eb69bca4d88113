import AccessTopology.Proofs.Rendering.References

namespace AccessTopology

/-!
# The order of stages

Stages may come in any order and more than once.  As long as every stage that
drafts is among them, a composite renders to the same drafts in some order and
to the same status, or does not render at all, and nothing dangles.  A stage
leaves alone a ledger that holds what it drafts already.
-/

/-- Stages among which is every stage that drafts something. -/
structure Stage.Cover (stages : List Stage) : Prop where
  principals : Stage.principals ∈ stages
  permissionSets : Stage.permissionSets ∈ stages
  assignments : Stage.assignments ∈ stages

theorem Stage.cover_all : Stage.Cover Stage.all :=
  ⟨by decide, by decide, by decide⟩

/-- Stages that cover walk over all declarations, whatever their order. -/
theorem Spec.mem_declarationsIn_iff
    {spec : Spec}
    {stages : List Stage}
    (cover : Stage.Cover stages)
    {declaration : Declaration} :
    declaration ∈ spec.declarationsIn stages ↔
      declaration ∈ spec.declarations := by
  rw [declarationsIn, List.mem_flatMap]
  constructor
  · rintro ⟨stage, _, walked⟩
    exact Stage.declarations_subset spec stage walked
  · intro listed
    rw [declarations, List.mem_append, List.mem_append] at listed
    rcases listed with (isPrincipal | ofSet) | isAssignment
    · exact ⟨.principals, cover.principals, isPrincipal⟩
    · exact ⟨.permissionSets, cover.permissionSets, ofSet⟩
    · exact ⟨.assignments, cover.assignments, isAssignment⟩

/-- A pass completes where one completes that walks over as much. -/
theorem Scope.Completes.mono
    {scope : Scope}
    {smaller larger : List Stage}
    (completes : scope.Completes larger)
    (subset :
      scope.spec.declarationsIn smaller ⊆
        scope.spec.declarationsIn larger) :
    scope.Completes smaller where
  resolves := fun declaration walked =>
    completes.resolves declaration (subset walked)
  keysApart := completes.keysApart.mono subset

/-- Whether a pass completes does not depend on the order of its stages. -/
theorem Scope.completes_iff_of_cover
    {scope : Scope}
    {left right : List Stage}
    (leftCover : Stage.Cover left)
    (rightCover : Stage.Cover right) :
    scope.Completes left ↔ scope.Completes right := by
  have sameWalked :
      ∀ declaration,
        declaration ∈ scope.spec.declarationsIn left ↔
          declaration ∈ scope.spec.declarationsIn right := by
    intro declaration
    rw [Spec.mem_declarationsIn_iff leftCover,
      Spec.mem_declarationsIn_iff rightCover]
  constructor
  · exact fun completes =>
      completes.mono fun declaration => (sameWalked declaration).mpr
  · exact fun completes =>
      completes.mono fun declaration => (sameWalked declaration).mp

namespace Composite

variable {composite : Composite} {settings : Settings}
  {stages : List Stage} {ledger : Ledger}

/-- Stages that cover draft exactly what the topology declares. -/
theorem mem_drafts_iff_of_cover
    (cover : Stage.Cover stages)
    (valid : composite.spec.report.hasErrors = false)
    (completed :
      Ledger.runStages (composite.scope settings)
        (composite.observations settings) .empty stages =
          (ledger, none))
    {draft : Draft} :
    draft ∈ ledger.drafts ↔
      ∃ declaration ∈ composite.spec.declarations,
        declaration.compiled (composite.scope settings)
          (composite.observations settings) = draft := by
  rw [(draftsIn_of_runStages valid completed).2,
    Spec.mem_map_dropRepeats_declarations_iff
      (Spec.distinctNames_of_valid valid)
      fun _ => Spec.asks_of_mem_declarationsIn]
  simp only [Spec.mem_declarationsIn_iff cover]

/-- No two drafts of a pass that completes share a key. -/
theorem nodup_keys_of_runStages
    (valid : composite.spec.report.hasErrors = false)
    (completed :
      Ledger.runStages (composite.scope settings)
        (composite.observations settings) .empty stages =
          (ledger, none)) :
    (ledger.drafts.map Draft.key).Nodup := by
  obtain ⟨completes, drafts⟩ := draftsIn_of_runStages valid completed
  rw [drafts]
  exact completes.nodup_keys (Spec.distinctNames_of_valid valid)
    (composite.observations settings)

/-- Where stages that cover complete, the usual stages do, with the same drafts. -/
theorem drafts_perm_of_cover
    (cover : Stage.Cover stages)
    (valid : composite.spec.report.hasErrors = false)
    (completed :
      Ledger.runStages (composite.scope settings)
        (composite.observations settings) .empty stages =
          (ledger, none)) :
    ∃ usual,
      Ledger.runStages (composite.scope settings)
          (composite.observations settings) .empty Stage.all =
            (usual, none) ∧
        ledger.drafts.Perm usual.drafts := by
  obtain ⟨completes, _⟩ := draftsIn_of_runStages valid completed
  obtain ⟨usual, usualCompleted⟩ :=
    Ledger.runStages_of_completes (composite.faithful_scope settings) valid
      ((Scope.completes_iff_of_cover cover Stage.cover_all).mp completes)
      (composite.observations settings)
  refine ⟨usual, usualCompleted, ?_⟩
  refine (List.perm_ext_iff_of_nodup
    (nodup_keys_of_runStages valid completed).of_map
    (nodup_keys_of_runStages valid usualCompleted).of_map).mpr ?_
  intro draft
  rw [mem_drafts_iff_of_cover cover valid completed,
    mem_drafts_iff_of_cover Stage.cover_all valid usualCompleted]

/-- Nothing dangles after stages that cover. -/
theorem dangling?_eq_none_of_cover
    (cover : Stage.Cover stages)
    (valid : composite.spec.report.hasErrors = false)
    (completed :
      Ledger.runStages (composite.scope settings)
        (composite.observations settings) .empty stages =
          (ledger, none)) :
    ledger.dangling? = none := by
  obtain ⟨usual, usualCompleted, permuted⟩ :=
    drafts_perm_of_cover cover valid completed
  have closed :=
    Ledger.dangling?_eq_none_iff.mp
      (Ledger.dangling?_eq_none
        (grounded_of_runStages valid usualCompleted))
  simp only [Ledger.dangling?_eq_none_iff, permuted.mem_iff]
  exact closed

/-- Nothing but errors and a pass that stops keeps stages that cover from rendering. -/
theorem exists_renderingIn_iff
    (cover : Stage.Cover stages) :
    (∃ rendering, composite.renderIn settings stages = .ok rendering) ↔
      composite.checkEngine = .ok () ∧
        composite.spec.report.hasErrors = false ∧
          (composite.scope settings).Completes stages := by
  constructor
  · rintro ⟨rendering, rendered⟩
    obtain ⟨engine, valid, ledger, made, _⟩ :=
      renderIn_eq_ok_iff.mp rendered
    exact ⟨engine, valid,
      (draftsIn_of_runStages valid (ledger_eq_ok_iff.mp made).1).1⟩
  · rintro ⟨engine, valid, completes⟩
    obtain ⟨ledger, completed⟩ :=
      Ledger.runStages_of_completes (composite.faithful_scope settings)
        valid completes (composite.observations settings)
    have closed := dangling?_eq_none_of_cover cover valid completed
    exact ⟨_, renderIn_eq_ok_iff.mpr
      ⟨engine, valid, ledger, ledger_eq_ok_iff.mpr ⟨completed, closed⟩,
        rfl⟩⟩

/--
With stages in any order and any number, among them every stage that drafts, a
composite renders where it does in the usual stages, to the same drafts in some
order and the same status, and never fails for a dangling reference.  A stage
whose drafts a ledger holds leaves the ledger as it is, and once a stage has
completed, every later ledger holds its drafts.
-/
theorem renderIn_stage_order
    {stages : List Stage}
    (cover : Stage.Cover stages)
    (composite : Composite)
    (settings : Settings) :
    ((∃ rendering, composite.renderIn settings stages = .ok rendering) ↔
        ∃ rendering, composite.render settings = .ok rendering) ∧
      (∀ source target,
        composite.renderIn settings stages ≠
          .error (.danglingReference source target)) ∧
      (∀ rendering usual,
        composite.renderIn settings stages = .ok rendering →
        composite.render settings = .ok usual →
          rendering.drafts.Perm usual.drafts ∧
            rendering.status = usual.status) ∧
      ∀ stage : Stage,
        let steps :=
          stage.steps (composite.scope settings)
            (composite.observations settings)
        (∀ ledger : Ledger,
          ledger.Holds steps → ledger.run steps = (ledger, none)) ∧
          ∀ (before after : Ledger) (further : List Step),
            before.run steps = (after, none) →
              (after.run further).1.Holds steps := by
  refine ⟨?_, ?_, ?_, ?_⟩
  · rw [exists_renderingIn_iff cover, render,
      exists_renderingIn_iff Stage.cover_all,
      Scope.completes_iff_of_cover cover Stage.cover_all]
  · intro source target failed
    rcases error_of_renderIn failed with
      refused | ⟨fault, isFault⟩ | ⟨valid, ledger, completed, dangling⟩
    · rcases error_of_checkEngine refused with
        ⟨_, isInvalid⟩ | ⟨_, _, isTooOld⟩
      · cases isInvalid
      · cases isTooOld
    · cases isFault
    · exact dangling (dangling?_eq_none_of_cover cover valid completed)
  · intro rendering usual rendered usuallyRendered
    obtain ⟨_, valid, ledger, made, rfl⟩ := renderIn_eq_ok_iff.mp rendered
    obtain ⟨_, _, usualLedger, usualMade, rfl⟩ :=
      renderIn_eq_ok_iff.mp usuallyRendered
    obtain ⟨other, completed, permuted⟩ :=
      drafts_perm_of_cover cover valid (ledger_eq_ok_iff.mp made).1
    have sameRun :=
      completed.symm.trans (ledger_eq_ok_iff.mp usualMade).1
    rw [Prod.mk.injEq] at sameRun
    exact ⟨sameRun.1 ▸ permuted, rfl⟩
  · intro stage
    refine ⟨fun ledger => Ledger.run_of_holds, ?_⟩
    intro before after further completed
    exact (Ledger.holds_of_run_eq_ok completed).mono
      (Ledger.entries_prefix_run after further)

theorem renderIn_stage_order_sample :
    let stages : List Stage :=
      [.assignments, .federation, .permissionSets, .assignments,
        .principals, .principals]
    Stage.Cover stages ∧
      ∃ rendering usual,
        sample.renderIn {} stages = .ok rendering ∧
          sample.render {} = .ok usual ∧
            rendering.drafts.Perm usual.drafts ∧
              rendering.status = usual.status := by
  have cover :
      Stage.Cover
        [.assignments, .federation, .permissionSets, .assignments,
          .principals, .principals] :=
    ⟨by decide, by decide, by decide⟩
  obtain ⟨succeeds, _, same, _⟩ := renderIn_stage_order cover sample {}
  obtain ⟨usual, usuallyRendered⟩ := sample_renders
  obtain ⟨rendering, rendered⟩ := succeeds.mpr ⟨usual, usuallyRendered⟩
  exact ⟨cover, rendering, usual, rendered, usuallyRendered,
    same rendering usual rendered usuallyRendered⟩

end Composite

end AccessTopology
