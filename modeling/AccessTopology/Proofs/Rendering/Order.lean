import AccessTopology.Proofs.KeyMap.Extensionality
import AccessTopology.Proofs.Rendering.SameNames
import AccessTopology.Proofs.Topology.Reordering

namespace AccessTopology

/-!
# The order of declarations

In whatever order a composite lists its declarations, and what is inside them,
it renders to the same drafts in some order and to the same status, or does not
render at all.
-/

namespace StatusSummary

theorem mem_statuses_congr
    {observations : Observations}
    {kind : ResourceKind}
    {left right : List LogicalKey}
    (same : ∀ key, key ∈ left ↔ key ∈ right)
    (entry : String × ResourceStatus) :
    entry ∈ statuses observations kind left ↔
      entry ∈ statuses observations kind right := by
  simp only [statuses, List.mem_map, same]

/-- The states of resources of one kind depend on their keys. -/
theorem consistent_statuses
    (observations : Observations)
    (kind : ResourceKind)
    (keys : List LogicalKey) :
    KeyMap.Consistent (statuses observations kind keys) := by
  intro left leftListed right rightListed sameText
  obtain ⟨leftKey, _, rfl⟩ := List.mem_map.mp leftListed
  obtain ⟨rightKey, _, rfl⟩ := List.mem_map.mp rightListed
  have sameKey : leftKey = rightKey := congrArg LogicalKey.mk sameText
  rw [sameKey]

/-- Where declared names are distinct, no group has the key of a user. -/
theorem consistent_principals
    {spec : Spec}
    (distinct : spec.DistinctNames)
    (observations : Observations) :
    KeyMap.Consistent
      (statuses observations .group
          (spec.groups.map (fun group => .group group.name)) ++
        statuses observations .user
          (spec.users.map (fun user => .user user.name))) := by
  have keysOnce :
      (spec.groups.map (fun group => LogicalKey.group group.name) ++
        spec.users.map (fun user => LogicalKey.user user.name)).Nodup := by
    simp only [Spec.DistinctNames, Spec.declaredKeys, List.map_append,
      List.map_map] at distinct
    exact distinct.of_append_left
  have textsOnce :=
    keysOnce.map fun _ _ sameText => congrArg LogicalKey.mk sameText
  refine KeyMap.consistent_of_nodup ?_
  simpa only [statuses, List.map_append, List.map_map, Function.comp_def]
    using textsOnce

/-- Where declared names are distinct, a status does not show their order. -/
theorem ofScope_eq_of_reordered
    {scope : Scope}
    {spec : Spec}
    (reordered : scope.spec.Reordered spec)
    (distinct : scope.spec.DistinctNames)
    (observations : Observations) :
    ofScope scope observations =
      ofScope { scope with spec := spec } observations := by
  have sameNames := reordered.sameNames
  have principals :
      principalStatuses scope observations =
        principalStatuses { scope with spec := spec } observations := by
    have sameManaged :
        Scope.managesPrincipals { scope with spec := spec } =
          scope.managesPrincipals :=
      rfl
    rw [principalStatuses, principalStatuses, sameManaged]
    split
    · refine KeyMap.ofList_eq_of_mem_iff
        (consistent_principals distinct observations) ?_
      intro entry
      rw [List.mem_append, List.mem_append]
      exact or_congr
        (mem_statuses_congr
          (fun _ => sameNames.groupKeys_perm.mem_iff) entry)
        (mem_statuses_congr
          (fun _ => sameNames.userKeys_perm.mem_iff) entry)
    · rfl
  have permissionSets :
      permissionSetStatuses scope observations =
        permissionSetStatuses { scope with spec := spec } observations :=
    KeyMap.ofList_eq_of_mem_iff (consistent_statuses _ _ _)
      (mem_statuses_congr
        fun _ => sameNames.permissionSetKeys_perm.mem_iff)
  have assignments :
      assignmentStatuses scope observations =
        assignmentStatuses { scope with spec := spec } observations := by
    have sameBindings :
        ∀ binding,
          binding ∈ scope.spec.expandAssignments ↔
            binding ∈ spec.expandAssignments :=
      fun _ =>
        ⟨reordered.mem_expandAssignments distinct,
          reordered.symm.mem_expandAssignments
            (sameNames.distinctNames distinct)⟩
    refine KeyMap.ofList_eq_of_mem_iff (consistent_statuses _ _ _)
      (mem_statuses_congr ?_)
    intro key
    simp only [List.mem_map, sameBindings]
  simp only [ofScope, principals, permissionSets, assignments]

end StatusSummary

namespace Composite

/-- A composite whose topology is in another order. -/
structure Reordered (left right : Composite) : Prop where
  spec : left.spec.Reordered right.spec
  rest : { left with spec := right.spec } = right

/-- The composite with all lists of its topology the other way round. -/
def reversed (composite : Composite) : Composite :=
  { composite with spec := composite.spec.reversed }

theorem reordered_reversed (composite : Composite) :
    composite.Reordered composite.reversed where
  spec := composite.spec.reordered_reversed
  rest := rfl

namespace Reordered

variable {left right : Composite} {settings : Settings}
  {leftRendering rightRendering : Rendering}

theorem symm (reordered : left.Reordered right) : right.Reordered left where
  spec := reordered.spec.symm
  rest := by
    cases left
    cases right
    have rest := reordered.rest
    simp only [Composite.mk.injEq] at rest ⊢
    simp [rest]

theorem scope_eq
    (reordered : left.Reordered right)
    (settings : Settings) :
    right.scope settings =
      { left.scope settings with spec := right.spec } := by
  rw [← reordered.rest, ← reordered.spec.rest]
  rfl

theorem observations_eq
    (reordered : left.Reordered right)
    (settings : Settings) :
    right.observations settings = left.observations settings := by
  rw [← reordered.rest]
  rfl

/-- A reordered composite renders where the composite does. -/
theorem renders
    (reordered : left.Reordered right)
    (rendered : ∃ rendering, left.render settings = .ok rendering) :
    ∃ rendering, right.render settings = .ok rendering := by
  have sameEngine : left.engineMinVersion = right.engineMinVersion := by
    rw [← reordered.rest]
  have sameNames := reordered.spec.sameNames
  refine renders_of_sameNames sameEngine sameNames ?_ rendered
  exact fun distinct =>
    reordered.spec.symm.identities_subset (sameNames.distinctNames distinct)

/-- A reordered composite drafts what the composite does. -/
theorem mem_drafts
    (reordered : left.Reordered right)
    (leftRendered : left.render settings = .ok leftRendering)
    (rightRendered : right.render settings = .ok rightRendering)
    {draft : Draft}
    (drafted : draft ∈ leftRendering.drafts) :
    draft ∈ rightRendering.drafts := by
  obtain ⟨valid, _⟩ := compiled_of_render leftRendered
  obtain ⟨declaration, listed, rfl⟩ :=
    (mem_drafts_iff leftRendered).mp drafted
  obtain ⟨other, otherListed, same⟩ :=
    reordered.spec.exists_declaration (Spec.distinctNames_of_valid valid)
      listed
  refine (mem_drafts_iff rightRendered).mpr ⟨other, otherListed, ?_⟩
  have sameNames :=
    sameNames_scope reordered.spec.sameNames settings settings
  rw [reordered.scope_eq settings] at sameNames ⊢
  rw [reordered.observations_eq settings, same.compiled_eq sameNames]

/-- Where declared names are distinct, a reordered composite has one status. -/
theorem status_eq
    (reordered : left.Reordered right)
    (distinct : left.spec.DistinctNames)
    (settings : Settings) :
    left.status settings = right.status settings := by
  have reorderedSpec : (left.scope settings).spec.Reordered right.spec :=
    reordered.spec
  have sameStatus :=
    StatusSummary.ofScope_eq_of_reordered reorderedSpec distinct
      (left.observations settings)
  rw [status, status, reordered.scope_eq settings,
    reordered.observations_eq settings, sameStatus]

end Reordered

/--
A composite renders in one order exactly when it renders in another, and then
to the same drafts in some order and to the same status.
-/
theorem render_reordered
    {left right : Composite}
    (reordered : left.Reordered right)
    (settings : Settings) :
    ((∃ rendering, left.render settings = .ok rendering) ↔
        ∃ rendering, right.render settings = .ok rendering) ∧
      ∀ leftRendering rightRendering,
        left.render settings = .ok leftRendering →
        right.render settings = .ok rightRendering →
          leftRendering.drafts.Perm rightRendering.drafts ∧
            leftRendering.status = rightRendering.status := by
  refine ⟨⟨reordered.renders, reordered.symm.renders⟩, ?_⟩
  intro leftRendering rightRendering leftRendered rightRendered
  obtain ⟨valid, _, _, leftStatus⟩ := compiled_of_render leftRendered
  obtain ⟨_, _, _, rightStatus⟩ := compiled_of_render rightRendered
  constructor
  · refine (List.perm_ext_iff_of_nodup
      (nodup_keys_of_render leftRendered).of_map
      (nodup_keys_of_render rightRendered).of_map).mpr ?_
    intro draft
    exact ⟨reordered.mem_drafts leftRendered rightRendered,
      reordered.symm.mem_drafts rightRendered leftRendered⟩
  · rw [leftStatus, rightStatus]
    exact reordered.status_eq (Spec.distinctNames_of_valid valid) settings

theorem render_reordered_sample :
    ∃ leftRendering rightRendering,
      sample.render {} = .ok leftRendering ∧
        sample.reversed.render {} = .ok rightRendering ∧
          leftRendering.drafts.Perm rightRendering.drafts ∧
            leftRendering.status = rightRendering.status := by
  obtain ⟨succeeds, same⟩ := render_reordered sample.reordered_reversed {}
  obtain ⟨leftRendering, leftRendered⟩ := sample_renders
  obtain ⟨rightRendering, rightRendered⟩ :=
    succeeds.mp ⟨leftRendering, leftRendered⟩
  exact ⟨leftRendering, rightRendering, leftRendered, rightRendered,
    same leftRendering rightRendering leftRendered rightRendered⟩

end Composite

end AccessTopology
