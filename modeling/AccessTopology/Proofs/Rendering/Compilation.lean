import AccessTopology.Proofs.Rendering.Outcome
import AccessTopology.Proofs.Topology.Written

namespace AccessTopology

/-!
# What a rendering consists of

A rendering is the written list of a topology, each declaration as one draft
and in their order, without the declarations that repeat an earlier one.
-/

/-- A draft has the kind, the key and the content that a declaration asks for. -/
structure Declaration.DraftedAs
    (scope : Scope)
    (declaration : Declaration)
    (draft : Draft) :
    Prop where
  kind :
    draft.kind = declaration.identity.kind
  key :
    draft.key = declaration.identity.key
  carried :
    declaration.CarriedBy scope draft

namespace Composite

/--
The drafts of a rendering are the topology's written list in order, without
later repeats, each declaration as the draft that carries what identifies it.
-/
theorem render_drafts_eq
    {composite : Composite}
    {settings : Settings}
    {rendering : Rendering}
    (rendered : composite.render settings = .ok rendering) :
    rendering.drafts =
        (dropRepeats Declaration.identity composite.spec.written).map
          (Declaration.compiled (composite.scope settings)
            (composite.observations settings)) ∧
      ∀ declaration ∈ composite.spec.written,
        declaration.DraftedAs (composite.scope settings)
          (declaration.compiled (composite.scope settings)
            (composite.observations settings)) := by
  rw [Spec.written_eq_declarations]
  obtain ⟨_, _, drafts, _⟩ := compiled_of_render rendered
  refine ⟨drafts, ?_⟩
  intro declaration listed
  have carried := carriedBy_of_render rendered listed
  exact
    { kind := carried.kind.trans declaration.kind_identity.symm
      key := carried.key.trans declaration.key_identity.symm
      carried := carried }

/-- The sample with a policy document, and with a set whose policy is blank. -/
def sampleWithPolicies : Composite :=
  { sample with
    spec :=
      { sample.spec with
        permissionSets :=
          [{ name := "Admin"
             inlinePolicy :=
              some (.object [("Version", .string "2012-10-17")])
             managedPolicies :=
              ["arn:aws:iam::aws:policy/A", "arn:aws:iam::aws:policy/A"]
             accounts := ["111111111111"]
             groups := ["Ops"] },
            { name := "Viewer"
              inlinePolicy := some (.string " ") }] } }

theorem render_drafts_eq_sample :
    ∃ rendering,
      sampleWithPolicies.render {} = .ok rendering ∧
        rendering.drafts.map Draft.key =
          [.group "Ops",
            .user "Jane",
            .membership "Jane" "Ops",
            .membership "Jane" "0a1b2c3d-1111-2222-3333-444455556666",
            .permissionSet "Admin",
            .inlinePolicy "Admin",
            .managedPolicy "Admin" "arn:aws:iam::aws:policy/A",
            .permissionSet "Viewer",
            .assignment "Admin" .group "Ops" "111111111111",
            .assignment "Admin" .user "Jane" "222222222222"] := by
  obtain ⟨rendering, rendered⟩ :
      ∃ rendering, sampleWithPolicies.render {} = .ok rendering :=
    exists_rendering_of_isOk (by decide +kernel)
  refine ⟨rendering, rendered, ?_⟩
  rw [(render_drafts_eq rendered).1]
  decide +kernel

end Composite

end AccessTopology
