import AccessTopology.Proofs.Rendering.References

namespace AccessTopology

/-!
# Which topologies render

An engine that may render a composite renders it exactly when its topology has
no errors, every name that is used resolves and no two declarations that differ
share a key.  Every other composite fails because of its topology.
-/

/-- What a topology must meet to be rendered. -/
structure Spec.Renderable (spec : Spec) : Prop where
  withoutErrors :
    spec.report.hasErrors = false
  membershipsResolve :
    spec.identityStoreId?.isSome = true →
      ∀ user ∈ spec.users,
        ∀ group ∈ user.groups,
          spec.Declares .group group ∨ isPrincipalId group = true
  principalsResolve :
    ∀ binding ∈ spec.expandAssignments,
      isPrincipalId binding.principal = true ∨
        spec.Declares binding.principalKind binding.principal ∧
          spec.identityStoreId?.isSome = true
  permissionSetsResolve :
    ∀ binding ∈ spec.expandAssignments,
      spec.DeclaresPermissionSet binding.permissionSet ∨
        isPermissionSetArn binding.permissionSet = true
  keysApart :
    Declaration.KeysApart spec.declarations

namespace Scope

variable {scope : Scope}

theorem draftsPrincipal_iff
    (faithful : scope.Faithful)
    {kind : PrincipalKind}
    {name : String} :
    scope.DraftsPrincipal kind name ↔
      scope.spec.Declares kind name ∧
        scope.spec.identityStoreId?.isSome = true := by
  rw [DraftsPrincipal, managesPrincipals, faithful.identityStoreId]

theorem resolves_membership_iff
    {member container : String} :
    (Declaration.membership member container).Resolves scope ↔
      scope.DraftsPrincipal .group container ∨
        isPrincipalId container = true := by
  rw [← exists_principalReference_iff]
  constructor
  · rintro ⟨_, reference, stands, _⟩
    exact ⟨reference, stands⟩
  · rintro ⟨reference, stands⟩
    exact ⟨_, reference, stands, rfl⟩

theorem resolves_assignment_iff
    {binding : Assignment} :
    (Declaration.assignment binding).Resolves scope ↔
      (scope.DraftsPrincipal binding.principalKind binding.principal ∨
          isPrincipalId binding.principal = true) ∧
        (scope.spec.DeclaresPermissionSet binding.permissionSet ∨
          isPermissionSetArn binding.permissionSet = true) := by
  rw [← exists_principalReference_iff, ← exists_permissionSetReference_iff]
  constructor
  · rintro ⟨_, principal, set, principalStands, setStands, _⟩
    exact ⟨⟨principal, principalStands⟩, ⟨set, setStands⟩⟩
  · rintro ⟨⟨principal, principalStands⟩, ⟨set, setStands⟩⟩
    exact ⟨_, principal, set, principalStands, setStands, rfl⟩

/-- Nothing stops the usual stages of a renderable topology. -/
theorem completes_of_renderable
    (faithful : scope.Faithful)
    (renderable : scope.spec.Renderable) :
    scope.Completes Stage.all := by
  constructor
  · intro declaration listed
    rw [Spec.declarationsIn_all, Spec.mem_declarations_iff] at listed
    obtain ⟨managed, asked⟩ := listed
    cases declaration with
    | membership member container =>
        obtain ⟨user, declared, _, listed⟩ := asked
        rw [resolves_membership_iff, draftsPrincipal_iff faithful]
        exact (renderable.membershipsResolve (managed rfl) user declared
          container listed).imp_left fun groupDeclared =>
            ⟨groupDeclared, managed rfl⟩
    | assignment binding =>
        rw [resolves_assignment_iff, draftsPrincipal_iff faithful]
        exact ⟨(renderable.principalsResolve binding asked).symm,
          renderable.permissionSetsResolve binding asked⟩
    | group | user | permissionSet | inlinePolicy | managedPolicy |
        customerPolicy =>
        exact ⟨_, rfl⟩
  · rw [Spec.declarationsIn_all]
    exact renderable.keysApart

/-- A topology without errors is renderable if nothing stops the usual stages. -/
theorem renderable_of_completes
    (faithful : scope.Faithful)
    (valid : scope.spec.report.hasErrors = false)
    (completes : scope.Completes Stage.all) :
    scope.spec.Renderable := by
  have resolves :
      ∀ declaration ∈ scope.spec.declarations,
        declaration.Resolves scope := by
    rw [← Spec.declarationsIn_all]
    exact completes.resolves
  have bindingResolves :
      ∀ binding ∈ scope.spec.expandAssignments,
        (scope.DraftsPrincipal binding.principalKind binding.principal ∨
            isPrincipalId binding.principal = true) ∧
          (scope.spec.DeclaresPermissionSet binding.permissionSet ∨
            isPermissionSetArn binding.permissionSet = true) :=
    fun binding asked =>
      resolves_assignment_iff.mp
        (resolves (.assignment binding)
          (Spec.mem_declarations_assignment_iff.mpr
            ⟨binding, asked, rfl⟩).1)
  refine ⟨valid, ?_, ?_, ?_, ?_⟩
  · intro managed user declared group listed
    have membershipResolves :=
      resolves_membership_iff.mp
        (resolves (.membership user.name group)
          (Spec.mem_declarations_iff.mpr
            ⟨fun _ => managed, user, declared, rfl, listed⟩))
    exact membershipResolves.imp_left fun drafted => drafted.1
  · intro binding asked
    rw [← draftsPrincipal_iff faithful]
    exact (bindingResolves binding asked).1.symm
  · exact fun binding asked => (bindingResolves binding asked).2
  · rw [← Spec.declarationsIn_all]
    exact completes.keysApart

end Scope

namespace Composite

/--
Where the engine may render a composite, it renders exactly the topologies that
are renderable, and fails on every other because of the topology.
-/
theorem render_succeeds_iff
    {composite : Composite}
    (engine : composite.checkEngine = .ok ())
    (settings : Settings) :
    ((∃ rendering, composite.render settings = .ok rendering) ↔
        composite.spec.Renderable) ∧
      (¬composite.spec.Renderable →
        ∃ fault,
          composite.render settings = .error (.configuration fault)) := by
  have faithful := composite.faithful_scope settings
  have succeeds :
      (∃ rendering, composite.render settings = .ok rendering) ↔
        composite.spec.Renderable := by
    constructor
    · rintro ⟨rendering, rendered⟩
      obtain ⟨_, valid, ledger, made, _⟩ := renderIn_eq_ok_iff.mp rendered
      exact Scope.renderable_of_completes faithful valid
        (drafts_of_runStages valid (ledger_eq_ok_iff.mp made).1).1
    · intro renderable
      have valid := renderable.withoutErrors
      obtain ⟨ledger, completed⟩ :=
        Ledger.runStages_of_completes faithful valid
          (Scope.completes_of_renderable faithful renderable)
          (composite.observations settings)
      have closed : ledger.dangling? = none :=
        Ledger.dangling?_eq_none (grounded_of_runStages valid completed)
      exact ⟨_, renderIn_eq_ok_iff.mpr
        ⟨engine, valid, ledger, ledger_eq_ok_iff.mpr ⟨completed, closed⟩,
          rfl⟩⟩
  refine ⟨succeeds, ?_⟩
  intro unrenderable
  cases outcome : composite.render settings with
  | ok rendering =>
      exact absurd (succeeds.mp ⟨rendering, outcome⟩) unrenderable
  | error error =>
      rcases error_of_renderIn outcome with
        refused | ⟨fault, isFault⟩ | ⟨valid, ledger, completed, dangling⟩
      · rw [engine] at refused
        cases refused
      · exact ⟨fault, by rw [isFault]⟩
      · exact absurd
          (Ledger.dangling?_eq_none (grounded_of_runStages valid completed))
          dangling

theorem render_succeeds_iff_sample :
    sample.checkEngine = .ok () ∧ sample.spec.Renderable :=
  ⟨rfl, (render_succeeds_iff rfl {}).1.mp sample_renders⟩

end Composite

end AccessTopology
