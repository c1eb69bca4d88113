import AccessTopology.Proofs.Ledger.Naming
import AccessTopology.Proofs.Outcomes
import AccessTopology.Proofs.Readiness
import AccessTopology.Proofs.Rendering.Outcome

namespace AccessTopology

/-!
# What observed objects can change

Whatever was observed, a composite renders to the same drafts or fails with the
same error.  Observed objects decide the external names of drafts and the
states of resources, and neither which drafts and which states there are nor
anything else about them.
-/

/-- The draft without its external name. -/
def Draft.unnamed (draft : Draft) : Draft :=
  { draft with externalName := none }

/-- Two renderings of one topology, made under different observations. -/
structure Rendering.SameTopology
    (leftObserved rightObserved : Observations)
    (left right : Rendering) :
    Prop where
  drafts :
    left.drafts.map Draft.unnamed = right.drafts.map Draft.unnamed
  externalNames :
    List.Forall₂
      (fun leftDraft rightDraft =>
        leftObserved.externalName? leftDraft.key =
            rightObserved.externalName? leftDraft.key →
          leftDraft.externalName = rightDraft.externalName)
      left.drafts right.drafts
  principals :
    left.status.principals.keys = right.status.principals.keys
  permissionSets :
    left.status.permissionSets.keys = right.status.permissionSets.keys
  assignments :
    left.status.assignments.keys = right.status.assignments.keys
  instanceArn :
    left.status.instanceArn = right.status.instanceArn
  identityStoreId :
    left.status.identityStoreId = right.status.identityStoreId
  managementPolicies :
    left.status.managementPolicies = right.status.managementPolicies

/--
The renderings of a ledger and of the same ledger named after other
observations have one topology.
-/
theorem Rendering.sameTopology_named
    {scope : Scope}
    {left right : Observations}
    {ledger : Ledger}
    (namedLeft : ledger.named left = ledger)
    (leftDigest rightDigest : String) :
    Rendering.SameTopology left right
      ⟨ledger.drafts, .ofScope scope left, leftDigest⟩
      ⟨(ledger.named right).drafts, .ofScope scope right, rightDigest⟩ where
  drafts := by
    rw [Ledger.drafts_named, List.map_map]
    rfl
  externalNames := by
    rw [← namedLeft, Ledger.named_named, Ledger.drafts_named,
      Ledger.drafts_named, List.forall₂_map_left_iff,
      List.forall₂_map_right_iff, List.forall₂_same]
    exact fun draft _ sameName => sameName
  principals := StatusSummary.keys_principals_eq left right rfl rfl rfl
  permissionSets := StatusSummary.keys_permissionSets_eq left right rfl
  assignments := StatusSummary.keys_assignments_eq left right rfl
  instanceArn := rfl
  identityStoreId := rfl
  managementPolicies := rfl

namespace Composite

/-- The composite with other observed objects. -/
def observing
    (composite : Composite)
    (observed : List Json) :
    Composite :=
  { composite with observed := observed }

/-- Other observed objects rename the drafts of a ledger. -/
theorem ledger_observing
    (composite : Composite)
    (settings : Settings)
    (stages : List Stage)
    (observed : List Json) :
    (composite.observing observed).ledger settings stages =
      (composite.ledger settings stages).map
        (Ledger.named (.ofObjects settings observed)) := by
  have renamed :=
    Ledger.runStages_named (composite.observations settings)
      (.ofObjects settings observed) (composite.scope settings) stages
  have observes :
      (composite.observing observed).observations settings =
        .ofObjects settings observed :=
    rfl
  have inScope :
      (composite.observing observed).scope settings =
        composite.scope settings :=
    rfl
  rw [ledger, ledger, observes, inScope, renamed]
  cases Ledger.runStages (composite.scope settings)
      (composite.observations settings) .empty stages with
  | mk reached error? =>
      cases error? with
      | some error =>
          rfl
      | none =>
          simp only [Ledger.dangling?_named]
          cases reached.dangling? <;> rfl

/-- The drafts of a ledger have the external names that were observed. -/
theorem named_of_ledger
    {composite : Composite}
    {settings : Settings}
    {stages : List Stage}
    {ledger : Ledger}
    (made : composite.ledger settings stages = .ok ledger) :
    ledger.named (composite.observations settings) = ledger := by
  have renamed :=
    composite.ledger_observing settings stages composite.observed
  have unchanged : composite.observing composite.observed = composite :=
    rfl
  rw [unchanged, made, Except.map, Except.ok.injEq] at renamed
  exact renamed.symm

/--
Under two lists of observed objects a composite fails with one error, or
renders to the same drafts up to external names and to states of the same
resources.
-/
theorem renderIn_agrees_whatever_observed
    (metadata : Metadata)
    (spec : Spec)
    (engineMinVersion : Option String)
    (settings : Settings)
    (stages : List Stage)
    (leftObserved rightObserved : List Json) :
    OutcomesAgree
      (Rendering.SameTopology
        (.ofObjects settings leftObserved)
        (.ofObjects settings rightObserved))
      (renderIn
        { metadata := metadata
          spec := spec
          observed := leftObserved
          engineMinVersion := engineMinVersion }
        settings stages)
      (renderIn
        { metadata := metadata
          spec := spec
          observed := rightObserved
          engineMinVersion := engineMinVersion }
        settings stages) := by
  let composite : Composite :=
    { metadata := metadata
      spec := spec
      observed := leftObserved
      engineMinVersion := engineMinVersion }
  change
    OutcomesAgree _ (composite.renderIn settings stages)
      ((composite.observing rightObserved).renderIn settings stages)
  have sameEngine :
      (composite.observing rightObserved).checkEngine =
        composite.checkEngine :=
    rfl
  have sameReport :
      (composite.observing rightObserved).spec.report =
        composite.spec.report :=
    rfl
  cases engine : composite.checkEngine with
  | error error =>
      rw [renderIn_of_refused engine,
        renderIn_of_refused (sameEngine.trans engine)]
      exact .failed error
  | ok _ =>
      cases valid : composite.spec.report.hasErrors with
      | true =>
          rw [renderIn_of_invalid engine valid,
            renderIn_of_invalid (sameEngine.trans engine)
              (sameReport ▸ valid)]
          exact .failed _
      | false =>
          rw [renderIn_of_valid engine valid,
            renderIn_of_valid (sameEngine.trans engine)
              (sameReport ▸ valid),
            ledger_observing]
          cases made : composite.ledger settings stages with
          | error error =>
              exact .failed error
          | ok ledger =>
              exact .succeeded
                (Rendering.sameTopology_named (named_of_ledger made) _ _)

end Composite

end AccessTopology
