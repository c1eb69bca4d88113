import AccessTopology.Proofs.Topology.Supply
import AccessTopology.Rendering

namespace AccessTopology

/-!
# Outcomes of a rendering

A composite renders when this engine may render it, its topology has no errors
and its stages complete without a dangling reference.  It fails with what the
engine's version, a fault of the topology or a dangling reference amounts to.
-/

namespace Composite

variable {composite : Composite} {settings : Settings}
  {stages : List Stage}

theorem faithful_scope
    (composite : Composite)
    (settings : Settings) :
    (composite.scope settings).Faithful :=
  ⟨rfl, rfl⟩

/-- An engine refuses a composite for the version it asks for only. -/
theorem error_of_checkEngine
    {error : RenderError}
    (refused : composite.checkEngine = .error error) :
    (∃ required, error = .invalidVersion required) ∨
      ∃ required engine, error = .engineTooOld required engine := by
  rw [checkEngine] at refused
  split at refused
  · cases refused
  · split at refused
    · cases refused
      exact .inl ⟨_, rfl⟩
    · split at refused
      · cases refused
        exact .inr ⟨_, _, rfl⟩
      · cases refused

/-- An engine that may not render a composite says why. -/
theorem renderIn_of_refused
    {error : RenderError}
    (refused : composite.checkEngine = .error error) :
    composite.renderIn settings stages = .error error := by
  simp [renderIn, validate, refused, bind, Except.bind]

/-- A topology with errors is a fault of the topology. -/
theorem renderIn_of_invalid
    (engine : composite.checkEngine = .ok ())
    (invalid : composite.spec.report.hasErrors = true) :
    composite.renderIn settings stages =
      .error
        (.configuration
          (.rejected
            (composite.spec.report.errors.map
              (fun violation => (violation.rule, violation.message))))) := by
  simp only [renderIn, validate, checkReport, engine, invalid, bind,
    Except.bind, pure, Except.pure, ↓reduceIte]

/-- A topology without errors renders to what its ledger holds. -/
theorem renderIn_of_valid
    (engine : composite.checkEngine = .ok ())
    (valid : composite.spec.report.hasErrors = false) :
    composite.renderIn settings stages =
      (composite.ledger settings stages).map
        (fun ledger =>
          { drafts := ledger.drafts
            status := composite.status settings
            digest := (Draft.listToJson ledger.drafts).digest }) := by
  simp only [renderIn, validate, checkReport, engine, valid, bind,
    Except.bind, pure, Except.pure, Bool.false_eq_true, ↓reduceIte]
  cases composite.ledger settings stages <;> rfl

/-- A ledger is answered when the stages complete and nothing dangles. -/
theorem ledger_eq_ok_iff
    {ledger : Ledger} :
    composite.ledger settings stages = .ok ledger ↔
      Ledger.runStages (composite.scope settings)
          (composite.observations settings) .empty stages =
            (ledger, none) ∧
        ledger.dangling? = none := by
  constructor
  · intro made
    rw [Composite.ledger] at made
    split at made
    · cases made
    · rename_i reached completed
      split at made
      · cases made
      · rename_i closed
        cases made
        exact ⟨completed, closed⟩
  · rintro ⟨completed, closed⟩
    simp only [Composite.ledger, completed, closed]

/-- What keeps a ledger from being answered. -/
theorem error_of_ledger
    {error : RenderError}
    (failed : composite.ledger settings stages = .error error) :
    (∃ fault, error = .configuration fault) ∨
      ∃ ledger,
        Ledger.runStages (composite.scope settings)
            (composite.observations settings) .empty stages =
              (ledger, none) ∧
          ledger.dangling? ≠ none := by
  rw [Composite.ledger] at failed
  split at failed
  · rename_i stopped raised outcome
    cases failed
    exact .inl (Ledger.configuration_of_runStages outcome)
  · rename_i reached completed
    split at failed
    · rename_i source target dangling
      exact .inr ⟨reached, completed, by simp [dangling]⟩
    · cases failed

/-- What some stages leave in the ledger when they complete. -/
theorem draftsIn_of_runStages
    (valid : composite.spec.report.hasErrors = false)
    {ledger : Ledger}
    (completed :
      Ledger.runStages (composite.scope settings)
        (composite.observations settings) .empty stages =
          (ledger, none)) :
    (composite.scope settings).Completes stages ∧
      ledger.drafts =
        (dropRepeats Declaration.identity
          (composite.spec.declarationsIn stages)).map
            (Declaration.compiled (composite.scope settings)
              (composite.observations settings)) := by
  obtain ⟨completes, entries⟩ :=
    Ledger.completes_of_runStages (composite.faithful_scope settings)
      valid completed
  refine ⟨completes, ?_⟩
  rw [Ledger.drafts, entries, List.map_map]
  rfl

/-- What the usual stages leave in the ledger when they complete. -/
theorem drafts_of_runStages
    (valid : composite.spec.report.hasErrors = false)
    {ledger : Ledger}
    (completed :
      Ledger.runStages (composite.scope settings)
        (composite.observations settings) .empty Stage.all =
          (ledger, none)) :
    (composite.scope settings).Completes Stage.all ∧
      ledger.drafts =
        (dropRepeats Declaration.identity composite.spec.declarations).map
          (Declaration.compiled (composite.scope settings)
            (composite.observations settings)) := by
  rw [← Spec.declarationsIn_all]
  exact draftsIn_of_runStages valid completed

/-- What a composite that renders went through. -/
theorem renderIn_eq_ok_iff
    {rendering : Rendering} :
    composite.renderIn settings stages = .ok rendering ↔
      composite.checkEngine = .ok () ∧
        composite.spec.report.hasErrors = false ∧
          ∃ ledger,
            composite.ledger settings stages = .ok ledger ∧
              rendering =
                { drafts := ledger.drafts
                  status := composite.status settings
                  digest := (Draft.listToJson ledger.drafts).digest } := by
  cases engine : composite.checkEngine with
  | error error =>
      simp [renderIn_of_refused engine]
  | ok _ =>
      cases valid : composite.spec.report.hasErrors with
      | true =>
          simp [renderIn_of_invalid engine valid]
      | false =>
          rw [renderIn_of_valid engine valid]
          cases composite.ledger settings stages with
          | error error =>
              simp [Except.map]
          | ok ledger =>
              simp [Except.map, eq_comm]

/-- A rendering holds what a pass that completes drafts. -/
theorem compiled_of_render
    {rendering : Rendering}
    (rendered : composite.render settings = .ok rendering) :
    composite.spec.report.hasErrors = false ∧
      (composite.scope settings).Completes Stage.all ∧
        rendering.drafts =
            (dropRepeats Declaration.identity
              composite.spec.declarations).map
                (Declaration.compiled (composite.scope settings)
                  (composite.observations settings)) ∧
          rendering.status = composite.status settings := by
  obtain ⟨_, valid, ledger, made, rfl⟩ := renderIn_eq_ok_iff.mp rendered
  obtain ⟨completes, drafts⟩ :=
    drafts_of_runStages valid (ledger_eq_ok_iff.mp made).1
  exact ⟨valid, completes, drafts, rfl⟩

/-- A rendering drafts exactly what its topology declares. -/
theorem mem_drafts_iff
    {rendering : Rendering}
    (rendered : composite.render settings = .ok rendering)
    {draft : Draft} :
    draft ∈ rendering.drafts ↔
      ∃ declaration ∈ composite.spec.declarations,
        declaration.compiled (composite.scope settings)
          (composite.observations settings) = draft := by
  obtain ⟨valid, _, drafts, _⟩ := compiled_of_render rendered
  rw [drafts]
  exact Spec.mem_map_dropRepeats_declarations_iff
    (Spec.distinctNames_of_valid valid)
    fun _ listed => (Spec.mem_declarations_iff.mp listed).2

/-- Each declaration of a topology that renders is carried by its draft. -/
theorem carriedBy_of_render
    {rendering : Rendering}
    (rendered : composite.render settings = .ok rendering)
    {declaration : Declaration}
    (listed : declaration ∈ composite.spec.declarations) :
    declaration.CarriedBy (composite.scope settings)
      (declaration.compiled (composite.scope settings)
        (composite.observations settings)) := by
  obtain ⟨_, completes, _⟩ := compiled_of_render rendered
  refine Declaration.carriedBy_compiled
    (completes.resolves declaration ?_)
  rw [Spec.declarationsIn_all]
  exact listed

/-- Where a topology renders, a key belongs to one declaration. -/
theorem eq_of_key_eq
    {rendering : Rendering}
    (rendered : composite.render settings = .ok rendering)
    {left right : Declaration}
    (leftListed : left ∈ composite.spec.declarations)
    (rightListed : right ∈ composite.spec.declarations)
    (sameKey : left.key = right.key) :
    left = right := by
  obtain ⟨valid, completes, _⟩ := compiled_of_render rendered
  have apart :
      Declaration.KeysApart (composite.spec.declarationsIn Stage.all) :=
    completes.keysApart
  rw [Spec.declarationsIn_all] at apart
  exact Spec.eq_of_identity_eq (Spec.distinctNames_of_valid valid)
    (Spec.mem_declarations_iff.mp leftListed).2
    (Spec.mem_declarations_iff.mp rightListed).2
    (apart left leftListed right rightListed sameKey)

/-- What a composite that does not render fails with. -/
theorem error_of_renderIn
    {error : RenderError}
    (failed : composite.renderIn settings stages = .error error) :
    composite.checkEngine = .error error ∨
      (∃ fault, error = .configuration fault) ∨
        composite.spec.report.hasErrors = false ∧
          ∃ ledger,
            Ledger.runStages (composite.scope settings)
                (composite.observations settings) .empty stages =
                  (ledger, none) ∧
              ledger.dangling? ≠ none := by
  cases engine : composite.checkEngine with
  | error raised =>
      rw [renderIn_of_refused engine, Except.error.injEq] at failed
      exact .inl (by rw [failed])
  | ok _ =>
      cases valid : composite.spec.report.hasErrors with
      | true =>
          rw [renderIn_of_invalid engine valid, Except.error.injEq] at failed
          exact .inr (.inl ⟨_, failed.symm⟩)
      | false =>
          rw [renderIn_of_valid engine valid] at failed
          cases made : composite.ledger settings stages with
          | ok ledger =>
              simp [made, Except.map] at failed
          | error raised =>
              simp only [made, Except.map, Except.error.injEq] at failed
              rw [← failed]
              exact .inr ((error_of_ledger made).imp_right fun dangling =>
                ⟨rfl, dangling⟩)

/--
A composite with a membership in a group that is not declared, a policy listed
twice and an assignment asked for twice.
-/
def sample : Composite :=
  { spec :=
      { identityCenter :=
          some { instanceArn := some "arn:aws:sso:::instance/ssoins-1" }
        identityStore := some { id := some "d-1234567890" }
        groups := [{ name := "Ops" }]
        users :=
          [{ name := "Jane"
             groups := ["Ops", "0a1b2c3d-1111-2222-3333-444455556666"] }]
        permissionSets :=
          [{ name := "Admin"
             managedPolicies :=
              ["arn:aws:iam::aws:policy/A", "arn:aws:iam::aws:policy/A"]
             accounts := ["111111111111"]
             groups := ["Ops"] }]
        assignments :=
          [⟨"Ops", .group, "Admin", "111111111111"⟩,
            ⟨"Jane", .user, "Admin", "222222222222"⟩] } }

theorem exists_rendering_of_isOk
    (succeeds : (composite.render settings).isOk = true) :
    ∃ rendering, composite.render settings = .ok rendering := by
  cases outcome : composite.render settings with
  | ok rendering =>
      exact ⟨rendering, rfl⟩
  | error error =>
      rw [outcome] at succeeds
      cases succeeds

theorem sample_renders :
    ∃ rendering, sample.render {} = .ok rendering :=
  exists_rendering_of_isOk (by decide +kernel)

end Composite

end AccessTopology
