import AccessTopology.Proofs.Validation.DistinctNames
import AccessTopology.Topology.Resolution

namespace AccessTopology

/-!
# What names stand for

A principal's name stands for its draft while principals are managed and the
name is declared, and for itself when it is a principal id.  A permission set's
name stands for its draft when it is declared, and for itself when it is an
ARN.  Nothing else resolves, and where declared names are distinct no two names
stand for the same thing.
-/

namespace Spec

/-- A principal of this kind and name is declared. -/
def Declares
    (spec : Spec) :
    PrincipalKind → String → Prop
  | .group, name => ∃ group ∈ spec.groups, group.name = name
  | .user, name => ∃ user ∈ spec.users, user.name = name

/-- A permission set of this name is declared. -/
def DeclaresPermissionSet
    (spec : Spec)
    (name : String) :
    Prop :=
  ∃ set ∈ spec.permissionSets, set.name = name

theorem permissionSet?_eq_none
    {spec : Spec}
    {name : String}
    (undeclared : ¬spec.DeclaresPermissionSet name) :
    spec.permissionSet? name = none :=
  List.find?_eq_none.mpr fun set declared named =>
    undeclared ⟨set, declared, of_decide_eq_true named⟩

end Spec

namespace Scope

theorem declaresPrincipal_iff
    {scope : Scope}
    {kind : PrincipalKind}
    {name : String} :
    scope.declaresPrincipal kind name = true ↔
      scope.spec.Declares kind name := by
  cases kind with
  | group =>
      simp [declaresPrincipal, declaresGroup, Spec.Declares]
  | user =>
      simp [declaresPrincipal, declaresUser, Spec.Declares]

theorem declaresPermissionSet_iff
    {scope : Scope}
    {name : String} :
    scope.declaresPermissionSet name = true ↔
      scope.spec.DeclaresPermissionSet name := by
  simp [declaresPermissionSet, Spec.DeclaresPermissionSet]

/-- A principal's name stands for a draft of this pass. -/
def DraftsPrincipal
    (scope : Scope)
    (kind : PrincipalKind)
    (name : String) :
    Prop :=
  scope.spec.Declares kind name ∧ scope.managesPrincipals = true

/-- What a principal's name stands for. -/
inductive PrincipalReference
    (scope : Scope)
    (kind : PrincipalKind)
    (name : String) :
    Reference → Prop
  | drafted :
      scope.DraftsPrincipal kind name →
        PrincipalReference scope kind name
          (.draft (.principal kind name) kind.identifierField)
  | literal :
      ¬scope.DraftsPrincipal kind name →
      isPrincipalId name = true →
        PrincipalReference scope kind name (.external name)

/-- What a permission set's name stands for. -/
inductive PermissionSetReference
    (scope : Scope)
    (name : String) :
    Reference → Prop
  | drafted :
      scope.spec.DeclaresPermissionSet name →
        PermissionSetReference scope name
          (.draft (.permissionSet name) "arn")
  | literal :
      ¬scope.spec.DeclaresPermissionSet name →
      isPermissionSetArn name = true →
        PermissionSetReference scope name (.external name)

/-- A principal's name resolves to what it stands for. -/
theorem resolvePrincipal_eq_ok_iff
    {scope : Scope}
    {kind : PrincipalKind}
    {name : String}
    {reference : Reference} :
    scope.resolvePrincipal kind name = .ok reference ↔
      scope.PrincipalReference kind name reference := by
  have draftedIff :
      (scope.declaresPrincipal kind name && scope.managesPrincipals) =
          true ↔
        scope.DraftsPrincipal kind name := by
    rw [Bool.and_eq_true, declaresPrincipal_iff, DraftsPrincipal]
  constructor
  · intro resolved
    simp only [resolvePrincipal] at resolved
    split at resolved
    · rename_i drafted
      cases resolved
      exact .drafted (draftedIff.mp drafted)
    · rename_i notDrafted
      split at resolved
      · rename_i isId
        cases resolved
        exact .literal (fun drafted => notDrafted (draftedIff.mpr drafted)) isId
      · split at resolved <;> cases resolved
  · intro stands
    cases stands with
    | drafted drafted =>
        simp only [resolvePrincipal, draftedIff.mpr drafted, ↓reduceIte]
    | literal notDrafted isId =>
        have undrafted := draftedIff.not.mpr notDrafted
        simp only [resolvePrincipal, if_neg undrafted, isId, ↓reduceIte]

/-- A permission set's name resolves to what it stands for. -/
theorem resolvePermissionSet_eq_ok_iff
    {scope : Scope}
    {name : String}
    {reference : Reference} :
    scope.resolvePermissionSet name = .ok reference ↔
      scope.PermissionSetReference name reference := by
  constructor
  · intro resolved
    simp only [resolvePermissionSet] at resolved
    split at resolved
    · rename_i declared
      cases resolved
      exact .drafted (declaresPermissionSet_iff.mp declared)
    · rename_i undeclared
      split at resolved
      · rename_i isArn
        cases resolved
        exact .literal
          (fun declared => undeclared (declaresPermissionSet_iff.mpr declared))
          isArn
      · cases resolved
  · intro stands
    cases stands with
    | drafted declared =>
        simp only [resolvePermissionSet,
          declaresPermissionSet_iff.mpr declared, ↓reduceIte]
    | literal undeclared isArn =>
        have notFound := declaresPermissionSet_iff.not.mpr undeclared
        simp only [resolvePermissionSet, if_neg notFound, isArn, ↓reduceIte]

/--
A principal's name stands for something when it is drafted or a principal id.
-/
theorem exists_principalReference_iff
    {scope : Scope}
    {kind : PrincipalKind}
    {name : String} :
    (∃ reference, scope.PrincipalReference kind name reference) ↔
      scope.DraftsPrincipal kind name ∨ isPrincipalId name = true := by
  constructor
  · rintro ⟨reference, stands⟩
    cases stands with
    | drafted drafted =>
        exact .inl drafted
    | literal _ isId =>
        exact .inr isId
  · intro possible
    by_cases drafted : scope.DraftsPrincipal kind name
    · exact ⟨_, .drafted drafted⟩
    · exact ⟨_, .literal drafted (possible.resolve_left drafted)⟩

/-- A permission set's name stands for something when it is declared or an ARN. -/
theorem exists_permissionSetReference_iff
    {scope : Scope}
    {name : String} :
    (∃ reference, scope.PermissionSetReference name reference) ↔
      scope.spec.DeclaresPermissionSet name ∨
        isPermissionSetArn name = true := by
  constructor
  · rintro ⟨reference, stands⟩
    cases stands with
    | drafted declared =>
        exact .inl declared
    | literal _ isArn =>
        exact .inr isArn
  · intro possible
    by_cases declared : scope.spec.DeclaresPermissionSet name
    · exact ⟨_, .drafted declared⟩
    · exact ⟨_, .literal declared (possible.resolve_left declared)⟩

/-- A principal that does not resolve is a fault of the topology. -/
theorem error_of_resolvePrincipal
    {scope : Scope}
    {kind : PrincipalKind}
    {name : String}
    {error : RenderError}
    (failed : scope.resolvePrincipal kind name = .error error) :
    ∃ fault, error = .configuration fault := by
  simp only [resolvePrincipal] at failed
  split at failed
  · cases failed
  · split at failed
    · cases failed
    · split at failed <;> cases failed <;> exact ⟨_, rfl⟩

/-- A permission set that does not resolve is a fault of the topology. -/
theorem error_of_resolvePermissionSet
    {scope : Scope}
    {name : String}
    {error : RenderError}
    (failed : scope.resolvePermissionSet name = .error error) :
    ∃ fault, error = .configuration fault := by
  simp only [resolvePermissionSet] at failed
  split at failed
  · cases failed
  · split at failed <;> cases failed
    exact ⟨_, rfl⟩

variable {scope : Scope}

/-- Two declared principals of one kind with the same key have one name. -/
theorem principal_name_eq
    (distinct : scope.spec.DistinctNames)
    {kind : PrincipalKind}
    {left right : String}
    (leftDeclared : scope.spec.Declares kind left)
    (rightDeclared : scope.spec.Declares kind right)
    (sameKey :
      LogicalKey.principal kind left = LogicalKey.principal kind right) :
    left = right := by
  cases kind with
  | group =>
      obtain ⟨leftGroup, leftMember, leftName⟩ := leftDeclared
      obtain ⟨rightGroup, rightMember, rightName⟩ := rightDeclared
      subst leftName rightName
      rw [distinct.group_eq leftMember rightMember sameKey]
  | user =>
      obtain ⟨leftUser, leftMember, leftName⟩ := leftDeclared
      obtain ⟨rightUser, rightMember, rightName⟩ := rightDeclared
      subst leftName rightName
      rw [distinct.user_eq leftMember rightMember sameKey]

/-- Two declared permission sets with the same key have one name. -/
theorem permissionSet_name_eq
    (distinct : scope.spec.DistinctNames)
    {left right : String}
    (leftDeclared : scope.spec.DeclaresPermissionSet left)
    (rightDeclared : scope.spec.DeclaresPermissionSet right)
    (sameKey :
      LogicalKey.permissionSet left = LogicalKey.permissionSet right) :
    left = right := by
  obtain ⟨leftSet, leftMember, leftName⟩ := leftDeclared
  obtain ⟨rightSet, rightMember, rightName⟩ := rightDeclared
  subst leftName rightName
  rw [distinct.permissionSet_eq leftMember rightMember sameKey]

/-- Two names of principals that stand for the same thing are one name. -/
theorem PrincipalReference.name_eq
    (distinct : scope.spec.DistinctNames)
    {kind : PrincipalKind}
    {left right : String}
    {reference : Reference}
    (leftStands : scope.PrincipalReference kind left reference)
    (rightStands : scope.PrincipalReference kind right reference) :
    left = right := by
  generalize sameReference : reference = other at rightStands
  cases leftStands with
  | drafted leftDrafted =>
      cases rightStands with
      | drafted rightDrafted =>
          rw [Reference.draft.injEq] at sameReference
          exact principal_name_eq distinct leftDrafted.1 rightDrafted.1
            sameReference.1
      | literal _ _ =>
          cases sameReference
  | literal _ _ =>
      cases rightStands with
      | drafted _ =>
          cases sameReference
      | literal _ _ =>
          rw [Reference.external.injEq] at sameReference
          exact sameReference

/-- Two names of permission sets that stand for the same thing are one name. -/
theorem PermissionSetReference.name_eq
    (distinct : scope.spec.DistinctNames)
    {left right : String}
    {reference : Reference}
    (leftStands : scope.PermissionSetReference left reference)
    (rightStands : scope.PermissionSetReference right reference) :
    left = right := by
  generalize sameReference : reference = other at rightStands
  cases leftStands with
  | drafted leftDeclared =>
      cases rightStands with
      | drafted rightDeclared =>
          rw [Reference.draft.injEq] at sameReference
          exact permissionSet_name_eq distinct leftDeclared rightDeclared
            sameReference.1
      | literal _ _ =>
          cases sameReference
  | literal _ _ =>
      cases rightStands with
      | drafted _ =>
          cases sameReference
      | literal _ _ =>
          rw [Reference.external.injEq] at sameReference
          exact sameReference

end Scope

end AccessTopology
