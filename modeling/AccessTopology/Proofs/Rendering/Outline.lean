import AccessTopology.Proofs.Readiness
import AccessTopology.Proofs.Rendering.SameNames
import AccessTopology.Proofs.Topology.Outline

namespace AccessTopology

/-!
# What renderings take from names

Two composites with one outline, however their attributes, settings and
observed objects differ, both render or both do not.  Their drafts are of the
same kinds under the same keys with the same references, in the same order, and
their statuses are about the same resources.
-/

/-- Which resource a draft asks for, and what it refers to. -/
structure Draft.Outline where
  kind : ResourceKind
  apiVersion : String
  key : LogicalKey
  references : KeyMap Reference
  deriving DecidableEq

/-- The draft without its attributes. -/
def Draft.outline (draft : Draft) : Draft.Outline :=
  { kind := draft.kind
    apiVersion := draft.apiVersion
    key := draft.key
    references := draft.references }

namespace ResourceIdentity

/-- What the draft of a resource has by its identity. -/
def outline
    (scope : Scope)
    (identity : ResourceIdentity) :
    Draft.Outline :=
  { kind := identity.kind
    apiVersion := identity.kind.apiVersion
    key := identity.key
    references := .ofList ((identity.references scope).toOption.getD []) }

theorem outline_eq_of_sameNames
    {left right : Scope}
    (same : left.SameNames right)
    (identity : ResourceIdentity) :
    identity.outline left = identity.outline right := by
  rw [outline, outline, same.references_eq]

end ResourceIdentity

/-- The outline of a draft depends on the identity of its declaration. -/
theorem Declaration.outline_compiled
    (scope : Scope)
    (observations : Observations)
    (declaration : Declaration) :
    (declaration.compiled scope observations).outline =
      declaration.identity.outline scope := by
  rw [ResourceIdentity.outline, kind_identity, key_identity,
    references_identity]
  rfl

/-- Two renderings of drafts and states of the same resources. -/
structure Rendering.SameOutline (left right : Rendering) : Prop where
  drafts :
    left.drafts.map Draft.outline = right.drafts.map Draft.outline
  principals :
    left.status.principals.keys = right.status.principals.keys
  permissionSets :
    left.status.permissionSets.keys = right.status.permissionSets.keys
  assignments :
    left.status.assignments.keys = right.status.assignments.keys

namespace Composite

/-- The outlines of a rendering's drafts are those of the identities. -/
theorem outlines_of_render
    {composite : Composite}
    {settings : Settings}
    {rendering : Rendering}
    (rendered : composite.render settings = .ok rendering) :
    rendering.drafts.map Draft.outline =
      (dropRepeats id composite.spec.outline.identities).map
        (ResourceIdentity.outline (composite.scope settings)) := by
  obtain ⟨_, _, drafts, _⟩ := compiled_of_render rendered
  rw [drafts, ← Spec.identities_outline, Spec.identities, dropRepeats_map,
    List.map_map, List.map_map]
  refine List.map_congr_left ?_
  intro declaration _
  exact declaration.outline_compiled _ _

/-- A composite renders where another one with its outline does. -/
theorem renders_of_outline_eq
    {left right : Composite}
    (sameOutline : left.spec.outline = right.spec.outline)
    (sameEngine : left.engineMinVersion = right.engineMinVersion)
    {leftSettings rightSettings : Settings}
    (rendered : ∃ rendering, left.render leftSettings = .ok rendering) :
    ∃ rendering, right.render rightSettings = .ok rendering := by
  have sameIdentities : right.spec.identities = left.spec.identities := by
    rw [Spec.identities_outline, Spec.identities_outline, sameOutline]
  refine renders_of_sameNames sameEngine
    (Spec.sameNames_of_outline_eq sameOutline) ?_ rendered
  intro _ identity listed
  exact sameIdentities ▸ listed

/--
Whether a composite renders, which resources it drafts in which order and what
they refer to depends on its outline and on the engine that it asks for.
-/
theorem render_agrees_on_outline
    {left right : Composite}
    (sameOutline : left.spec.outline = right.spec.outline)
    (sameEngine : left.engineMinVersion = right.engineMinVersion)
    (leftSettings rightSettings : Settings) :
    ((∃ rendering, left.render leftSettings = .ok rendering) ↔
        ∃ rendering, right.render rightSettings = .ok rendering) ∧
      ∀ leftRendering rightRendering,
        left.render leftSettings = .ok leftRendering →
        right.render rightSettings = .ok rightRendering →
          leftRendering.SameOutline rightRendering := by
  have sameNames := Spec.sameNames_of_outline_eq sameOutline
  constructor
  · exact ⟨renders_of_outline_eq sameOutline sameEngine,
      renders_of_outline_eq sameOutline.symm sameEngine.symm⟩
  · intro leftRendering rightRendering leftRendered rightRendered
    obtain ⟨_, _, _, leftStatus⟩ := compiled_of_render leftRendered
    obtain ⟨_, _, _, rightStatus⟩ := compiled_of_render rightRendered
    have sameScopes :=
      sameNames_scope sameNames leftSettings rightSettings
    constructor
    · rw [outlines_of_render leftRendered, outlines_of_render rightRendered,
        sameOutline]
      refine List.map_congr_left ?_
      exact fun identity _ =>
        ResourceIdentity.outline_eq_of_sameNames sameScopes identity
    · rw [leftStatus, rightStatus]
      refine StatusSummary.keys_principals_eq _ _
        sameScopes.managesPrincipals_eq ?_ ?_
      · exact (Spec.keys_groups _).trans
          (sameOutline ▸ (Spec.keys_groups _).symm)
      · exact (Spec.keys_users _).trans
          (sameOutline ▸ (Spec.keys_users _).symm)
    · rw [leftStatus, rightStatus]
      refine StatusSummary.keys_permissionSets_eq _ _ ?_
      exact (Spec.keys_permissionSets _).trans
        (sameOutline ▸ (Spec.keys_permissionSets _).symm)
    · rw [leftStatus, rightStatus]
      refine StatusSummary.keys_assignments_eq _ _ ?_
      exact (Spec.keys_expandAssignments _).trans
        (sameOutline ▸ (Spec.keys_expandAssignments _).symm)

/-- A composite with the outline of the sample and other attributes. -/
def sampleAttributed : Composite :=
  { metadata := { name := "topology" }
    spec :=
      { sample.spec with
        organizationName := some "organization"
        managementPolicies := some ["Observe"]
        providerConfigRef := some { name := some "config" }
        identityCenter :=
          some { instanceArn := some "arn:aws:sso:::instance/ssoins-2" }
        identityStore := some { id := some " d-0000000000 " }
        groups :=
          [{ name := "Ops"
             displayName := some "Operations"
             tags := .ofList [("team", "operations")] }]
        permissionSets :=
          [{ name := "Admin"
             sessionDuration := some "PT8H"
             inlinePolicy := some (.string " ")
             managedPolicies :=
              ["arn:aws:iam::aws:policy/A", "arn:aws:iam::aws:policy/A"]
             accounts := ["111111111111"]
             groups := ["Ops"]
             tags := .ofList [("owner", "security")] }]
        tags := .ofList [("stage", "production")]
        externalIdentityProvider := some (.bool true) }
    observed := [.null] }

theorem render_agrees_on_outline_sample :
    ∃ leftRendering rightRendering,
      sample.render {} = .ok leftRendering ∧
        sampleAttributed.render { sessionDuration := "PT2H" } =
            .ok rightRendering ∧
          leftRendering.SameOutline rightRendering := by
  have sameOutline :
      sample.spec.outline = sampleAttributed.spec.outline := by
    decide +kernel
  obtain ⟨succeeds, agree⟩ :=
    render_agrees_on_outline sameOutline rfl {}
      { sessionDuration := "PT2H" }
  obtain ⟨leftRendering, leftRendered⟩ := sample_renders
  obtain ⟨rightRendering, rightRendered⟩ :=
    succeeds.mp ⟨leftRendering, leftRendered⟩
  exact ⟨leftRendering, rightRendering, leftRendered, rightRendered,
    agree leftRendering rightRendering leftRendered rightRendered⟩

end Composite

end AccessTopology
