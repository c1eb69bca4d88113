import AccessTopology.Proofs.Draft.Sameness
import AccessTopology.Proofs.KeyMap.Entries
import AccessTopology.Proofs.Topology.Declarations
import AccessTopology.Proofs.Topology.Resolution

namespace AccessTopology

/-!
# What the draft of a declaration carries

A declaration whose names resolve becomes one draft.  The draft carries the
declaration's kind and key, refers to what the names stand for, and holds the
texts that tell the declaration from others of its kind.  Two declarations of a
topology whose drafts are the same therefore have one identity.
-/

theorem PrincipalKind.eq_of_name_eq
    {left right : PrincipalKind}
    (same : left.name = right.name) :
    left = right := by
  cases left <;> cases right <;> simp_all [name]

/-- Where a service's resources live in a scope. -/
def Scope.home (scope : Scope) : Service → String
  | .identityStore => scope.identityStoreId.getD ""
  | .ssoAdmin => scope.instanceArn.getD ""

namespace Declaration

/-- The references that a declaration's draft needs, by name. -/
def HasReferences
    (scope : Scope) :
    Declaration → List (String × Reference) → Prop
  | group _, references => references = []
  | user _, references => references = []
  | membership member container, references =>
      ∃ containerReference,
        scope.PrincipalReference .group container containerReference ∧
          references =
            [("groupId", containerReference),
              ("memberId", .draft (.user member) "userId")]
  | permissionSet _, references => references = []
  | inlinePolicy set _, references =>
      references = attachmentReferences set
  | managedPolicy set _, references =>
      references = attachmentReferences set
  | customerPolicy set _, references =>
      references = attachmentReferences set
  | assignment binding, references =>
      ∃ principal set,
        scope.PrincipalReference binding.principalKind binding.principal
            principal ∧
          scope.PermissionSetReference binding.permissionSet set ∧
            references =
              [("principalId", principal), ("permissionSetArn", set)]

/-- Every name that a declaration uses stands for something. -/
def Resolves
    (scope : Scope)
    (declaration : Declaration) :
    Prop :=
  ∃ references, declaration.HasReferences scope references

/-- The texts that tell a declaration from others of its kind, by field. -/
def identifyingFields : Declaration → List (String × Json)
  | group declared =>
      [("displayName", .string (declared.displayName.getD declared.name))]
  | user declared => [("userName", .string declared.name)]
  | membership _ _ => []
  | permissionSet set => [("name", .string set.name)]
  | inlinePolicy _ document => [("inlinePolicy", .string document)]
  | managedPolicy _ arn => [("managedPolicyArn", .string arn)]
  | customerPolicy _ policy =>
      [("customerManagedPolicyReference",
        .object
          [("name", .string policy.name), ("path", .string policy.path)])]
  | assignment binding =>
      [("principalType", .string binding.principalKind.name),
        ("targetId", .string binding.account)]

/-- A draft carries what identifies a declaration. -/
structure CarriedBy
    (scope : Scope)
    (declaration : Declaration)
    (draft : Draft) :
    Prop where
  kind :
    draft.kind = declaration.kind
  key :
    draft.key = declaration.key
  references :
    ∃ references,
      declaration.HasReferences scope references ∧
        draft.references = .ofList references
  fields :
    ∀ field ∈ declaration.identifyingFields,
      draft.forProvider.get? field.1 = some field.2

/-- The draft that a declaration becomes when its names resolve. -/
def compiled
    (scope : Scope)
    (observations : Observations)
    (declaration : Declaration) :
    Draft :=
  declaration.draftWith scope observations
    (scope.home declaration.kind.service)
    ((declaration.references scope).toOption.getD [])

variable {scope : Scope} {observations : Observations}
  {declaration : Declaration}

/-- The references of a declaration are those that its draft needs. -/
theorem references_eq_ok_iff
    {references : List (String × Reference)} :
    declaration.references scope = .ok references ↔
      declaration.HasReferences scope references := by
  cases declaration with
  | membership member container =>
      simp only [Declaration.references, HasReferences,
        ← Scope.resolvePrincipal_eq_ok_iff]
      cases scope.resolvePrincipal .group container with
      | ok reference =>
          simp [bind, Except.bind, pure, Except.pure, eq_comm]
      | error error =>
          simp [bind, Except.bind]
  | assignment binding =>
      simp only [Declaration.references, HasReferences,
        ← Scope.resolvePrincipal_eq_ok_iff,
        ← Scope.resolvePermissionSet_eq_ok_iff]
      cases scope.resolvePrincipal binding.principalKind
          binding.principal with
      | error error =>
          simp [bind, Except.bind]
      | ok principal =>
          cases scope.resolvePermissionSet binding.permissionSet with
          | error error =>
              simp [bind, Except.bind]
          | ok set =>
              simp [bind, Except.bind, pure, Except.pure, eq_comm]
  | group | user | permissionSet | inlinePolicy | managedPolicy |
      customerPolicy =>
      simp [Declaration.references, HasReferences, eq_comm]

/-- References that do not resolve are a fault of the topology. -/
theorem error_of_references
    {error : RenderError}
    (failed : declaration.references scope = .error error) :
    ∃ fault, error = .configuration fault := by
  cases declaration with
  | membership member container =>
      rw [Declaration.references] at failed
      cases resolved : scope.resolvePrincipal .group container with
      | ok reference =>
          simp [resolved, bind, Except.bind, pure, Except.pure] at failed
      | error raised =>
          simp only [resolved, bind, Except.bind,
            Except.error.injEq] at failed
          exact failed ▸ Scope.error_of_resolvePrincipal resolved
  | assignment binding =>
      rw [Declaration.references] at failed
      cases resolved :
          scope.resolvePrincipal binding.principalKind binding.principal with
      | error raised =>
          simp only [resolved, bind, Except.bind,
            Except.error.injEq] at failed
          exact failed ▸ Scope.error_of_resolvePrincipal resolved
      | ok principal =>
          cases setResolved :
              scope.resolvePermissionSet binding.permissionSet with
          | ok set =>
              simp [resolved, setResolved, bind, Except.bind, pure,
                Except.pure] at failed
          | error raised =>
              simp only [resolved, setResolved, bind, Except.bind,
                Except.error.injEq] at failed
              exact failed ▸ Scope.error_of_resolvePermissionSet setResolved
  | group | user | permissionSet | inlinePolicy | managedPolicy |
      customerPolicy =>
      cases failed

theorem step_of_resolves
    (resolves : declaration.Resolves scope) :
    declaration.step scope observations
        (scope.home declaration.kind.service) =
      .draft (declaration.compiled scope observations)
        declaration.describe := by
  obtain ⟨references, needed⟩ := resolves
  have resolved := references_eq_ok_iff.mpr needed
  simp [step, draft, compiled, resolved, Except.map, Except.toOption]

/-- A declaration with a name that does not resolve is a fault of the topology. -/
theorem step_of_not_resolves
    (unresolved : ¬declaration.Resolves scope)
    (observations : Observations)
    (home : String) :
    ∃ fault,
      declaration.step scope observations home =
        .fault (.configuration fault) := by
  cases resolved : declaration.references scope with
  | ok references =>
      exact absurd ⟨references, references_eq_ok_iff.mp resolved⟩ unresolved
  | error error =>
      obtain ⟨fault, isFault⟩ := error_of_references resolved
      refine ⟨fault, ?_⟩
      simp [step, draft, resolved, isFault, Except.map]

theorem error_of_step
    {home : String}
    {error : RenderError}
    (raised :
      declaration.step scope observations home = .fault error) :
    ∃ fault, error = .configuration fault := by
  rw [step, draft] at raised
  cases resolved : declaration.references scope with
  | ok references =>
      simp [resolved, Except.map] at raised
  | error failure =>
      simp only [resolved, Except.map, Step.fault.injEq] at raised
      exact raised ▸ error_of_references resolved

theorem nodup_fields
    (home : String) :
    (((declaration.kind.service.homeField, Json.string home) ::
      declaration.fields scope).map Prod.fst).Nodup := by
  cases declaration with
  | group declared =>
      cases described : declared.description <;>
        simp [fields, described, kind, ResourceKind.service,
          Service.homeField]
  | user declared =>
      by_cases unnamed : declared.nameParts.entries.isEmpty = true <;>
        cases mailed : declared.email <;>
          simp [fields, unnamed, mailed, kind, ResourceKind.service,
            Service.homeField]
  | permissionSet set =>
      cases described : set.description <;>
        cases relayed : set.relayState <;>
          simp [fields, described, relayed, kind, ResourceKind.service,
            Service.homeField]
  | membership | inlinePolicy | managedPolicy | customerPolicy |
      assignment =>
      simp [fields, kind, ResourceKind.service, Service.homeField]

/-- The texts that tell a declaration from others are among its fields. -/
theorem identifyingFields_subset
    (scope : Scope)
    (declaration : Declaration) :
    declaration.identifyingFields ⊆ declaration.fields scope := by
  cases declaration <;>
    simp [identifyingFields, fields, CustomerPolicy.toJson]

/-- The draft of a declaration whose names resolve carries what identifies it. -/
theorem carriedBy_compiled
    (resolves : declaration.Resolves scope) :
    declaration.CarriedBy scope
      (declaration.compiled scope observations) := by
  obtain ⟨references, needed⟩ := resolves
  have resolved := references_eq_ok_iff.mpr needed
  refine ⟨rfl, rfl, ⟨references, needed, ?_⟩, ?_⟩
  · simp [compiled, draftWith, resolved, Except.toOption]
  · intro field identifying
    refine KeyMap.get?_ofList_of_mem (nodup_fields _) ?_
    exact List.mem_cons_of_mem _
      (identifyingFields_subset scope declaration identifying)

/-- What the draft of an assignment refers to. -/
theorem CarriedBy.assignment_references
    {binding : Assignment}
    {draft : Draft}
    (carried : (assignment binding).CarriedBy scope draft) :
    ∃ principal set,
      scope.PrincipalReference binding.principalKind binding.principal
          principal ∧
        scope.PermissionSetReference binding.permissionSet set ∧
          draft.references.get? "principalId" = some principal ∧
            draft.references.get? "permissionSetArn" = some set := by
  obtain ⟨_, ⟨principal, set, stands, setStands, rfl⟩, held⟩ :=
    carried.references
  refine ⟨principal, set, stands, setStands, ?_, ?_⟩
  · rw [held]
    exact KeyMap.get?_ofList_of_mem (by simp) (by simp)
  · rw [held]
    exact KeyMap.get?_ofList_of_mem (by simp) (by simp)

/-- What the draft of a membership refers to. -/
theorem CarriedBy.membership_references
    {member container : String}
    {draft : Draft}
    (carried : (membership member container).CarriedBy scope draft) :
    ∃ reference,
      scope.PrincipalReference .group container reference ∧
        draft.references.get? "groupId" = some reference ∧
          draft.references.get? "memberId" =
            some (.draft (.user member) "userId") := by
  obtain ⟨_, ⟨reference, stands, rfl⟩, held⟩ := carried.references
  refine ⟨reference, stands, ?_, ?_⟩
  · rw [held]
    exact KeyMap.get?_ofList_of_mem (by simp) (by simp)
  · rw [held]
    exact KeyMap.get?_ofList_of_mem (by simp) (by simp)

/-- Drafts that are the same refer to the same. -/
theorem CarriedBy.exists_references_eq
    {left right : Declaration}
    {leftDraft rightDraft : Draft}
    (leftCarried : left.CarriedBy scope leftDraft)
    (rightCarried : right.CarriedBy scope rightDraft)
    (same : leftDraft.same rightDraft = true) :
    ∃ leftReferences rightReferences,
      left.HasReferences scope leftReferences ∧
        right.HasReferences scope rightReferences ∧
          KeyMap.ofList leftReferences = KeyMap.ofList rightReferences := by
  obtain ⟨leftReferences, leftNeeded, leftHeld⟩ := leftCarried.references
  obtain ⟨rightReferences, rightNeeded, rightHeld⟩ := rightCarried.references
  refine ⟨leftReferences, rightReferences, leftNeeded, rightNeeded, ?_⟩
  rw [← leftHeld, ← rightHeld]
  exact Draft.references_eq_of_same same

section Drafts

variable {leftDraft rightDraft : Draft}

/-- Attachments whose drafts are the same belong to one permission set. -/
private theorem set_eq_of_same
    (distinct : scope.spec.DistinctNames)
    {left right : Declaration}
    (leftCarried : left.CarriedBy scope leftDraft)
    (rightCarried : right.CarriedBy scope rightDraft)
    (same : leftDraft.same rightDraft = true)
    {leftSet rightSet : PermissionSet}
    (leftDeclared : leftSet ∈ scope.spec.permissionSets)
    (rightDeclared : rightSet ∈ scope.spec.permissionSets)
    (leftAttached :
      ∀ references,
        left.HasReferences scope references →
          references = attachmentReferences leftSet)
    (rightAttached :
      ∀ references,
        right.HasReferences scope references →
          references = attachmentReferences rightSet) :
    leftSet = rightSet := by
  obtain ⟨_, _, leftNeeded, rightNeeded, sameReferences⟩ :=
    leftCarried.exists_references_eq rightCarried same
  rw [leftAttached _ leftNeeded, rightAttached _ rightNeeded]
    at sameReferences
  have sameReference :=
    congrArg (fun map => map.get? "permissionSetArn") sameReferences
  simp only [attachmentReferences, KeyMap.get?_ofList,
    List.reverse_singleton, KeyMap.lookup_cons_ite, ↓reduceIte,
    Option.some.injEq, Reference.draft.injEq] at sameReference
  exact distinct.permissionSet_eq leftDeclared rightDeclared sameReference.1

/-- Memberships whose drafts are the same are one membership. -/
private theorem membership_eq_of_same
    (distinct : scope.spec.DistinctNames)
    {leftMember leftContainer rightMember rightContainer : String}
    (leftAsked : scope.spec.Asks (membership leftMember leftContainer))
    (rightAsked : scope.spec.Asks (membership rightMember rightContainer))
    (leftCarried :
      (membership leftMember leftContainer).CarriedBy scope leftDraft)
    (rightCarried :
      (membership rightMember rightContainer).CarriedBy scope rightDraft)
    (same : leftDraft.same rightDraft = true) :
    leftMember = rightMember ∧ leftContainer = rightContainer := by
  obtain ⟨leftGroup, leftStands, leftHeld, leftUserHeld⟩ :=
    leftCarried.membership_references
  obtain ⟨rightGroup, rightStands, rightHeld, rightUserHeld⟩ :=
    rightCarried.membership_references
  rw [Draft.references_eq_of_same same, rightHeld,
    Option.some.injEq] at leftHeld
  rw [Draft.references_eq_of_same same, rightUserHeld, Option.some.injEq,
    Reference.draft.injEq] at leftUserHeld
  obtain ⟨leftUser, leftDeclared, leftName, _⟩ := leftAsked
  obtain ⟨rightUser, rightDeclared, rightName, _⟩ := rightAsked
  subst leftName rightName leftHeld
  constructor
  · rw [distinct.user_eq leftDeclared rightDeclared leftUserHeld.1.symm]
  · exact leftStands.name_eq distinct rightStands

/-- Assignments whose drafts are the same bind the same. -/
private theorem assignment_identity_eq_of_same
    (distinct : scope.spec.DistinctNames)
    {left right : Assignment}
    (leftCarried : (assignment left).CarriedBy scope leftDraft)
    (rightCarried : (assignment right).CarriedBy scope rightDraft)
    (same : leftDraft.same rightDraft = true) :
    (assignment left).identity = (assignment right).identity := by
  have leftFields := leftCarried.fields
  have rightFields := rightCarried.fields
  simp only [identifyingFields, List.forall_mem_cons]
    at leftFields rightFields
  have sameKind : left.principalKind = right.principalKind :=
    PrincipalKind.eq_of_name_eq
      (Draft.text_eq_of_same same leftFields.1 rightFields.1)
  have sameAccount : left.account = right.account :=
    Draft.text_eq_of_same same leftFields.2.1 rightFields.2.1
  obtain ⟨leftPrincipal, leftSet, leftStands, leftSetStands,
    leftHeld, leftSetHeld⟩ := leftCarried.assignment_references
  obtain ⟨rightPrincipal, rightSet, rightStands, rightSetStands,
    rightHeld, rightSetHeld⟩ := rightCarried.assignment_references
  rw [Draft.references_eq_of_same same, rightHeld,
    Option.some.injEq] at leftHeld
  rw [Draft.references_eq_of_same same, rightSetHeld,
    Option.some.injEq] at leftSetHeld
  subst leftHeld leftSetHeld
  rw [← sameKind] at rightStands
  rw [identity, identity, sameKind, sameAccount,
    leftStands.name_eq distinct rightStands,
    leftSetStands.name_eq distinct rightSetStands]

/--
Where declared names are distinct, declarations whose drafts are the same have
one identity.
-/
theorem identity_eq_of_same
    (distinct : scope.spec.DistinctNames)
    {left right : Declaration}
    (leftAsked : scope.spec.Asks left)
    (rightAsked : scope.spec.Asks right)
    (leftCarried : left.CarriedBy scope leftDraft)
    (rightCarried : right.CarriedBy scope rightDraft)
    (same : leftDraft.same rightDraft = true) :
    left.identity = right.identity := by
  have sameKind : left.kind = right.kind :=
    leftCarried.kind.symm.trans
      ((Draft.kind_eq_of_same same).trans rightCarried.kind)
  have sameKey : left.key = right.key :=
    leftCarried.key.symm.trans
      ((Draft.key_eq_of_same same).trans rightCarried.key)
  have sameSet :
      ∀ {leftSet rightSet : PermissionSet},
        leftSet ∈ scope.spec.permissionSets →
        rightSet ∈ scope.spec.permissionSets →
        (∀ references,
          left.HasReferences scope references →
            references = attachmentReferences leftSet) →
        (∀ references,
          right.HasReferences scope references →
            references = attachmentReferences rightSet) →
          leftSet = rightSet :=
    set_eq_of_same distinct leftCarried rightCarried same
  have leftFields := leftCarried.fields
  have rightFields := rightCarried.fields
  cases left with
  | group declared =>
      cases right with
      | group other =>
          rw [distinct.group_eq leftAsked rightAsked sameKey]
      | _ =>
          cases sameKind
  | user declared =>
      cases right with
      | user other =>
          rw [distinct.user_eq leftAsked rightAsked sameKey]
      | _ =>
          cases sameKind
  | membership member container =>
      cases right with
      | membership otherMember otherContainer =>
          obtain ⟨sameMember, sameContainer⟩ :=
            membership_eq_of_same distinct leftAsked rightAsked
              leftCarried rightCarried same
          rw [sameMember, sameContainer]
      | _ =>
          cases sameKind
  | permissionSet set =>
      cases right with
      | permissionSet other =>
          rw [distinct.permissionSet_eq leftAsked rightAsked sameKey]
      | _ =>
          cases sameKind
  | inlinePolicy set document =>
      cases right with
      | inlinePolicy other otherDocument =>
          rw [identity, identity,
            sameSet leftAsked.1 rightAsked.1
              (fun _ needed => needed) (fun _ needed => needed)]
      | _ =>
          cases sameKind
  | managedPolicy set arn =>
      cases right with
      | managedPolicy other otherArn =>
          simp only [identifyingFields, List.forall_mem_singleton]
            at leftFields rightFields
          have sameArn : arn = otherArn :=
            Draft.text_eq_of_same same leftFields rightFields
          rw [identity, identity, sameArn,
            sameSet leftAsked.1 rightAsked.1
              (fun _ needed => needed) (fun _ needed => needed)]
      | _ =>
          cases sameKind
  | customerPolicy set policy =>
      cases right with
      | customerPolicy other otherPolicy =>
          simp only [identifyingFields, List.forall_mem_singleton]
            at leftFields rightFields
          have samePolicy :=
            Draft.same_get?_of_same same leftFields rightFields
          simp only [Json.same, Json.sameMembers, Bool.and_eq_true,
            beq_iff_eq, and_true, true_and] at samePolicy
          rw [identity, identity, samePolicy.1, samePolicy.2,
            sameSet leftAsked.1 rightAsked.1
              (fun _ needed => needed) (fun _ needed => needed)]
      | _ =>
          cases sameKind
  | assignment binding =>
      cases right with
      | assignment other =>
          exact assignment_identity_eq_of_same distinct leftCarried
            rightCarried same
      | _ =>
          cases sameKind

end Drafts

/-- Declarations whose drafts come out the same have one identity. -/
theorem identity_eq_of_same_compiled
    (distinct : scope.spec.DistinctNames)
    {left right : Declaration}
    (leftAsked : scope.spec.Asks left)
    (rightAsked : scope.spec.Asks right)
    (leftResolves : left.Resolves scope)
    (rightResolves : right.Resolves scope)
    (same :
      (left.compiled scope observations).same
        (right.compiled scope observations) = true) :
    left.identity = right.identity :=
  identity_eq_of_same distinct leftAsked rightAsked
    (carriedBy_compiled leftResolves) (carriedBy_compiled rightResolves) same

end Declaration

end AccessTopology
