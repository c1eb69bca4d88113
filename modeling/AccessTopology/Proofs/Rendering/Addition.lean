import AccessTopology.Proofs.Rendering.Outcome
import AccessTopology.Proofs.Topology.Addition

namespace AccessTopology.Composite

/-!
# Rendering after an addition

A composite to whose topology a declaration was added renders to the drafts
that it rendered to, unchanged and in their order, and to drafts of what comes
with the addition.
-/

variable {composite : Composite} {settings : Settings} {larger : Spec}
  {addition : Addition}

theorem scope_added
    (adds : composite.spec.Adds addition larger)
    (settings : Settings) :
    Composite.scope { composite with spec := larger } settings =
      { composite.scope settings with spec := larger } := by
  cases adds <;> rfl

theorem compiled_eq_of_added
    (adds : composite.spec.Adds addition larger)
    (notLiteral : addition.name.isLiteral = false)
    {before : Rendering}
    (rendered : composite.render settings = .ok before)
    {declaration : Declaration}
    (listed : declaration ∈ composite.spec.declarations) :
    declaration.compiled
        (Composite.scope { composite with spec := larger } settings)
        (composite.observations settings) =
      declaration.compiled (composite.scope settings)
        (composite.observations settings) := by
  obtain ⟨_, completes, _⟩ := compiled_of_render rendered
  rw [← Spec.declarationsIn_all] at listed
  rw [scope_added adds settings]
  exact Declaration.compiled_added adds notLiteral
    (completes.resolves declaration listed) _

/--
Where a composite renders before and after a declaration was added, and the
added name is no identifier, the earlier drafts are among the later ones in
their order, and every other draft carries something that came with the
addition.
-/
theorem render_added
    (adds : composite.spec.Adds addition larger)
    (notLiteral : addition.name.isLiteral = false)
    {before after : Rendering}
    (rendered : composite.render settings = .ok before)
    (renderedAfter :
      { composite with spec := larger }.render settings = .ok after) :
    before.drafts.Sublist after.drafts ∧
      ∀ draft ∈ after.drafts,
        draft ∈ before.drafts ∨
          ∃ declaration ∈ addition.declarations,
            declaration.CarriedBy
              (Composite.scope { composite with spec := larger } settings)
              draft := by
  obtain ⟨_, completes, drafts, _⟩ := compiled_of_render rendered
  obtain ⟨validAfter, _, draftsAfter, _⟩ :=
    compiled_of_render renderedAfter
  have distinct : larger.DistinctNames :=
    Spec.distinctNames_of_valid validAfter
  have others :
      ∀ declaration ∈ composite.spec.declarations,
        declaration.identity.owner ≠ addition.name :=
    fun _ listed => completes.owner_ne adds notLiteral distinct listed
  constructor
  · have sameDrafts :
        before.drafts =
          (dropRepeats Declaration.identity composite.spec.declarations).map
            (Declaration.compiled
              (Composite.scope { composite with spec := larger } settings)
              (composite.observations settings)) := by
      rw [drafts]
      refine List.map_congr_left ?_
      intro declaration kept
      exact (compiled_eq_of_added adds notLiteral rendered
        ((dropRepeats_sublist _ _).subset kept)).symm
    rw [sameDrafts, adds.dropRepeats_declarations others, draftsAfter]
    exact List.filter_sublist.map _
  · intro draft drafted
    obtain ⟨declaration, listed, rfl⟩ :=
      (mem_drafts_iff renderedAfter).mp drafted
    rcases (adds.declarations_enlarged others).mem_or_mem listed with
      wasListed | isAdded
    · have unchanged :=
        compiled_eq_of_added adds notLiteral rendered wasListed
      exact .inl ((mem_drafts_iff rendered).mpr
        ⟨declaration, wasListed, unchanged.symm⟩)
    · exact .inr ⟨declaration, isAdded,
        carriedBy_of_render renderedAfter listed⟩

/-- The sample with a group under the id that a user gives. -/
def sampleNamed : Spec :=
  { sample.spec with
    groups :=
      { name := "0a1b2c3d-1111-2222-3333-444455556666" } ::
        sample.spec.groups }

-- A name that is an identifier takes over the references that give it.
example :
    (sample.scope {}).resolvePrincipal .group
          "0a1b2c3d-1111-2222-3333-444455556666" =
        .ok (.external "0a1b2c3d-1111-2222-3333-444455556666") ∧
      (Composite.scope { sample with spec := sampleNamed } {}).resolvePrincipal
          .group "0a1b2c3d-1111-2222-3333-444455556666" =
        .ok
          (.draft (.group "0a1b2c3d-1111-2222-3333-444455556666")
            "groupId") := by
  decide

/-- A permission set that a group of the sample holds. -/
def sampleAudit : PermissionSet :=
  { name := "Audit"
    managedPolicies := ["arn:aws:iam::aws:policy/A"]
    accounts := ["111111111111"]
    groups := ["Ops"] }

/-- The sample's topology with a permission set before the one it has. -/
def sampleAudited : Spec :=
  { sample.spec with
    permissionSets := sampleAudit :: sample.spec.permissionSets }

theorem render_added_sample :
    sample.spec.Adds (.permissionSet sampleAudit) sampleAudited ∧
      ∃ before after,
        sample.render {} = .ok before ∧
          { sample with spec := sampleAudited }.render {} = .ok after ∧
            before.drafts.Sublist after.drafts := by
  have adds :
      sample.spec.Adds (.permissionSet sampleAudit) sampleAudited :=
    @Spec.Adds.permissionSet sample.spec [] sample.spec.permissionSets
      sampleAudit rfl
  obtain ⟨before, rendered⟩ := sample_renders
  obtain ⟨after, renderedAfter⟩ :
      ∃ after,
        { sample with spec := sampleAudited }.render {} = .ok after :=
    exists_rendering_of_isOk (by decide +kernel)
  exact ⟨adds, before, after, rendered, renderedAfter,
    (render_added adds (by decide) rendered renderedAfter).1⟩

end AccessTopology.Composite
