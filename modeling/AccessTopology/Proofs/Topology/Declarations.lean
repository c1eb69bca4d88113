import AccessTopology.Proofs.Repeats
import AccessTopology.Proofs.Validation.DistinctNames
import AccessTopology.Topology.Stage

namespace AccessTopology

/-!
# The declarations of a topology

A topology's declarations are written down in the order of the stages.  Each
has an identity: its kind and the names and texts that say which resource it
asks for.  Where declared names are distinct, two declarations with one
identity are one declaration.
-/

/-- Which resource a declaration asks for. -/
inductive ResourceIdentity
  | group (name : String)
  | user (name : String)
  | membership (member container : String)
  | permissionSet (name : String)
  | inlinePolicy (permissionSet : String)
  | managedPolicy (permissionSet arn : String)
  | customerPolicy (permissionSet path name : String)
  | assignment
      (permissionSet : String)
      (principalKind : PrincipalKind)
      (principal account : String)
  deriving Repr, DecidableEq

/-- The identity of a declaration. -/
def Declaration.identity : Declaration → ResourceIdentity
  | group declared => .group declared.name
  | user declared => .user declared.name
  | membership member container => .membership member container
  | permissionSet set => .permissionSet set.name
  | inlinePolicy set _ => .inlinePolicy set.name
  | managedPolicy set arn => .managedPolicy set.name arn
  | customerPolicy set policy =>
      .customerPolicy set.name policy.path policy.name
  | assignment binding =>
      .assignment binding.permissionSet binding.principalKind
        binding.principal binding.account

/-- Assignments bind the same exactly when they have one identity. -/
theorem Assignment.sameBinding_iff
    {left right : Assignment} :
    left.sameBinding right = true ↔
      (Declaration.assignment left).identity =
        (Declaration.assignment right).identity := by
  simp [sameBinding, Declaration.identity, and_assoc]

/-- The key of an assignment depends on its identity only. -/
theorem Assignment.key_eq_of_identity_eq
    {left right : Assignment}
    (same :
      (Declaration.assignment left).identity =
        (Declaration.assignment right).identity) :
    left.key = right.key := by
  simp only [Declaration.identity, ResourceIdentity.assignment.injEq] at same
  simp [key, same]

namespace Spec

/--
Every declaration of a topology, in the order of the stages; principals are
among them only with an identity store.
-/
def declarations (spec : Spec) : List Declaration :=
  (if spec.identityStoreId?.isSome then spec.principalDeclarations else []) ++
    spec.permissionSetDeclarations ++
    spec.expandAssignments.map .assignment

/-- A topology holds what a declaration asks for. -/
def Asks (spec : Spec) : Declaration → Prop
  | .group declared => declared ∈ spec.groups
  | .user declared => declared ∈ spec.users
  | .membership member container =>
      ∃ user ∈ spec.users, user.name = member ∧ container ∈ user.groups
  | .permissionSet set => set ∈ spec.permissionSets
  | .inlinePolicy set document =>
      set ∈ spec.permissionSets ∧ set.inlinePolicyText? = some document
  | .managedPolicy set arn =>
      set ∈ spec.permissionSets ∧ arn ∈ set.managedPolicies
  | .customerPolicy set policy =>
      set ∈ spec.permissionSets ∧ policy ∈ set.customerPolicies
  | .assignment binding => binding ∈ spec.expandAssignments

theorem mem_principalDeclarations_iff
    {spec : Spec}
    {declaration : Declaration} :
    declaration ∈ spec.principalDeclarations ↔
      declaration.kind.service = .identityStore ∧
        spec.Asks declaration := by
  cases declaration with
  | group | user =>
      simp [principalDeclarations, User.declarations, Declaration.kind,
        ResourceKind.service, Asks]
  | membership member container =>
      simp only [principalDeclarations, User.declarations, List.mem_append,
        List.mem_map, List.mem_flatMap, List.mem_cons, reduceCtorEq,
        and_false, exists_false, false_or, Declaration.membership.injEq,
        Declaration.kind, ResourceKind.service, true_and, Asks]
      constructor
      · rintro ⟨user, declared, group, listed, sameMember, sameGroup⟩
        exact ⟨user, declared, sameMember, sameGroup ▸ listed⟩
      · rintro ⟨user, declared, sameMember, listed⟩
        exact ⟨user, declared, container, listed, sameMember, rfl⟩
  | permissionSet | inlinePolicy | managedPolicy | customerPolicy |
      assignment =>
      simp [principalDeclarations, User.declarations, Declaration.kind,
        ResourceKind.service]

theorem mem_permissionSetDeclarations_iff
    {spec : Spec}
    {declaration : Declaration} :
    declaration ∈ spec.permissionSetDeclarations ↔
      declaration.kind.service = .ssoAdmin ∧
        declaration.kind ≠ .accountAssignment ∧
          spec.Asks declaration := by
  cases declaration with
  | group | user | membership | assignment =>
      simp [permissionSetDeclarations, PermissionSet.declarations,
        Declaration.kind, ResourceKind.service]
  | permissionSet | inlinePolicy | managedPolicy | customerPolicy =>
      simp [permissionSetDeclarations, PermissionSet.declarations,
        Declaration.kind, ResourceKind.service, Asks]

/-- What a topology's declarations are, whatever their order. -/
theorem mem_declarations_iff
    {spec : Spec}
    {declaration : Declaration} :
    declaration ∈ spec.declarations ↔
      (declaration.kind.service = .identityStore →
          spec.identityStoreId?.isSome = true) ∧
        spec.Asks declaration := by
  have principals :
      declaration ∈
          (if spec.identityStoreId?.isSome then spec.principalDeclarations
            else []) ↔
        spec.identityStoreId?.isSome = true ∧
          declaration.kind.service = .identityStore ∧
            spec.Asks declaration := by
    split
    · rename_i managed
      simp [managed, mem_principalDeclarations_iff]
    · rename_i unmanaged
      simp [unmanaged]
  have assignments :
      declaration ∈ spec.expandAssignments.map Declaration.assignment ↔
        declaration.kind = .accountAssignment ∧
          spec.Asks declaration := by
    cases declaration <;> simp [Declaration.kind, Asks]
  rw [declarations, List.mem_append, List.mem_append, principals,
    mem_permissionSetDeclarations_iff, assignments]
  cases service : declaration.kind.service with
  | identityStore =>
      have notAssignment : declaration.kind ≠ .accountAssignment := by
        intro same
        rw [same] at service
        cases service
      simp [notAssignment]
  | ssoAdmin =>
      by_cases isAssignment : declaration.kind = .accountAssignment
      · simp [isAssignment]
      · simp [isAssignment]

/-- The declarations of a kind are those of its list in the topology. -/
theorem mem_declarations_group_iff
    {spec : Spec}
    (managed : spec.identityStoreId?.isSome = true)
    {declaration : Declaration} :
    declaration ∈ spec.declarations ∧ declaration.kind = .group ↔
      ∃ group ∈ spec.groups, .group group = declaration := by
  cases declaration <;>
    simp [mem_declarations_iff, Declaration.kind, Asks, managed]

theorem mem_declarations_user_iff
    {spec : Spec}
    (managed : spec.identityStoreId?.isSome = true)
    {declaration : Declaration} :
    declaration ∈ spec.declarations ∧ declaration.kind = .user ↔
      ∃ user ∈ spec.users, .user user = declaration := by
  cases declaration <;>
    simp [mem_declarations_iff, Declaration.kind, Asks, managed]

theorem mem_declarations_permissionSet_iff
    {spec : Spec}
    {declaration : Declaration} :
    declaration ∈ spec.declarations ∧ declaration.kind = .permissionSet ↔
      ∃ set ∈ spec.permissionSets, .permissionSet set = declaration := by
  cases declaration <;>
    simp [mem_declarations_iff, Declaration.kind, ResourceKind.service,
      Asks]

theorem mem_declarations_assignment_iff
    {spec : Spec}
    {declaration : Declaration} :
    declaration ∈ spec.declarations ∧
        declaration.kind = .accountAssignment ↔
      ∃ binding ∈ spec.expandAssignments,
        .assignment binding = declaration := by
  cases declaration <;>
    simp [mem_declarations_iff, Declaration.kind, ResourceKind.service,
      Asks]

/-- The tags of an assignment are those of the permission set that it names. -/
theorem tags_of_mem_expandAssignments
    {spec : Spec}
    (distinct : spec.DistinctNames)
    {binding : Assignment}
    (asked : binding ∈ spec.expandAssignments) :
    binding.tags =
      ((spec.permissionSet? binding.permissionSet).map
        PermissionSet.tags).getD .empty := by
  rw [expandAssignments, List.mem_append] at asked
  rcases asked with expanded | direct
  · obtain ⟨set, declared, listed⟩ := List.mem_flatMap.mp expanded
    rw [PermissionSet.assignments, List.mem_flatMap] at listed
    obtain ⟨principal, _, onAccount⟩ := listed
    obtain ⟨account, _, isBinding⟩ := List.mem_map.mp onAccount
    subst isBinding
    rw [distinct.permissionSet?_eq declared]
    rfl
  · obtain ⟨declared, _, isBinding⟩ := List.mem_map.mp direct
    subst isBinding
    rfl

/-- Where declared names are distinct, an identity belongs to one declaration. -/
theorem eq_of_identity_eq
    {spec : Spec}
    (distinct : spec.DistinctNames)
    {left right : Declaration}
    (leftAsked : spec.Asks left)
    (rightAsked : spec.Asks right)
    (same : left.identity = right.identity) :
    left = right := by
  cases left with
  | group declared =>
      cases right with
      | group other =>
          rw [Declaration.identity, Declaration.identity,
            ResourceIdentity.group.injEq] at same
          rw [distinct.group_eq leftAsked rightAsked (by rw [same])]
      | _ =>
          cases same
  | user declared =>
      cases right with
      | user other =>
          rw [Declaration.identity, Declaration.identity,
            ResourceIdentity.user.injEq] at same
          rw [distinct.user_eq leftAsked rightAsked (by rw [same])]
      | _ =>
          cases same
  | membership member container =>
      cases right with
      | membership otherMember otherContainer =>
          cases same
          rfl
      | _ =>
          cases same
  | permissionSet set =>
      cases right with
      | permissionSet other =>
          rw [Declaration.identity, Declaration.identity,
            ResourceIdentity.permissionSet.injEq] at same
          rw [distinct.permissionSet_eq leftAsked rightAsked (by rw [same])]
      | _ =>
          cases same
  | inlinePolicy set document =>
      cases right with
      | inlinePolicy other otherDocument =>
          rw [Declaration.identity, Declaration.identity,
            ResourceIdentity.inlinePolicy.injEq] at same
          have sameSet : set = other :=
            distinct.permissionSet_eq leftAsked.1 rightAsked.1 (by rw [same])
          subst sameSet
          have sameDocument : document = otherDocument :=
            Option.some.inj (leftAsked.2.symm.trans rightAsked.2)
          rw [sameDocument]
      | _ =>
          cases same
  | managedPolicy set arn =>
      cases right with
      | managedPolicy other otherArn =>
          rw [Declaration.identity, Declaration.identity,
            ResourceIdentity.managedPolicy.injEq] at same
          rw [distinct.permissionSet_eq leftAsked.1 rightAsked.1
            (by rw [same.1]), same.2]
      | _ =>
          cases same
  | customerPolicy set policy =>
      cases right with
      | customerPolicy other otherPolicy =>
          rw [Declaration.identity, Declaration.identity,
            ResourceIdentity.customerPolicy.injEq] at same
          obtain ⟨sameName, samePath, samePolicyName⟩ := same
          have samePolicy : policy = otherPolicy := by
            cases policy
            cases otherPolicy
            simp_all
          rw [distinct.permissionSet_eq leftAsked.1 rightAsked.1
            (by rw [sameName]), samePolicy]
      | _ =>
          cases same
  | assignment binding =>
      cases right with
      | assignment other =>
          have leftTags := tags_of_mem_expandAssignments distinct leftAsked
          have rightTags := tags_of_mem_expandAssignments distinct rightAsked
          cases binding
          cases other
          simp_all [Declaration.identity]
      | _ =>
          cases same

/-- Where declared names are distinct, every declaration is kept. -/
theorem mem_dropRepeats_declarations_iff
    {spec : Spec}
    (distinct : spec.DistinctNames)
    {declarations : List Declaration}
    (asked : ∀ declaration ∈ declarations, spec.Asks declaration)
    {declaration : Declaration} :
    declaration ∈ dropRepeats Declaration.identity declarations ↔
      declaration ∈ declarations := by
  refine mem_dropRepeats ?_
  intro left leftMember right rightMember
  exact eq_of_identity_eq distinct (asked left leftMember)
    (asked right rightMember)

/-- Where declared names are distinct, what is kept has all images. -/
theorem mem_map_dropRepeats_declarations_iff
    {spec : Spec}
    (distinct : spec.DistinctNames)
    {declarations : List Declaration}
    (asked : ∀ declaration ∈ declarations, spec.Asks declaration)
    {image : Declaration → α}
    {value : α} :
    value ∈ (dropRepeats Declaration.identity declarations).map image ↔
      ∃ declaration ∈ declarations, image declaration = value := by
  simp only [List.mem_map, mem_dropRepeats_declarations_iff distinct asked]

end Spec

namespace Declaration

/-- No two declarations of different identity share a key. -/
def KeysApart (declarations : List Declaration) : Prop :=
  ∀ left ∈ declarations,
    ∀ right ∈ declarations,
      left.key = right.key → left.identity = right.identity

theorem KeysApart.mono
    {smaller larger : List Declaration}
    (apart : KeysApart larger)
    (subset : smaller ⊆ larger) :
    KeysApart smaller :=
  fun left leftMember right rightMember =>
    apart left (subset leftMember) right (subset rightMember)

theorem KeysApart.of_same
    {declarations others : List Declaration}
    (apart : KeysApart declarations)
    (standsIn :
      ∀ other ∈ others,
        ∃ declaration ∈ declarations,
          declaration.key = other.key ∧
            declaration.identity = other.identity) :
    KeysApart others := by
  intro left leftMember right rightMember sameKey
  obtain ⟨leftSame, leftListed, leftKey, leftIdentity⟩ :=
    standsIn left leftMember
  obtain ⟨rightSame, rightListed, rightKey, rightIdentity⟩ :=
    standsIn right rightMember
  rw [← leftIdentity, ← rightIdentity]
  exact apart leftSame leftListed rightSame rightListed
    (leftKey.trans (sameKey.trans rightKey.symm))

theorem KeysApart.concat
    {declarations : List Declaration}
    {last : Declaration}
    (apart : KeysApart declarations)
    (new : ∀ declaration ∈ declarations, declaration.key ≠ last.key) :
    KeysApart (declarations ++ [last]) := by
  intro left leftMember right rightMember sameKey
  rcases List.mem_append.mp leftMember with leftBefore | leftLast
  · rcases List.mem_append.mp rightMember with rightBefore | rightLast
    · exact apart left leftBefore right rightBefore sameKey
    · rw [List.mem_singleton.mp rightLast] at sameKey
      exact absurd sameKey (new left leftBefore)
  · rcases List.mem_append.mp rightMember with rightBefore | rightLast
    · rw [List.mem_singleton.mp leftLast] at sameKey
      exact absurd sameKey.symm (new right rightBefore)
    · rw [List.mem_singleton.mp leftLast, List.mem_singleton.mp rightLast]

/-- Where keys keep identities apart, both tell the same repeats. -/
theorem dropRepeats_key_eq
    {spec : Spec}
    (distinct : spec.DistinctNames)
    {declarations : List Declaration}
    (asked : ∀ declaration ∈ declarations, spec.Asks declaration)
    (apart : KeysApart declarations) :
    dropRepeats key declarations = dropRepeats identity declarations := by
  refine dropRepeats_congr ?_
  intro left leftMember right rightMember
  constructor
  · exact apart left leftMember right rightMember
  · intro sameIdentity
    rw [Spec.eq_of_identity_eq distinct (asked left leftMember)
      (asked right rightMember) sameIdentity]

end Declaration

end AccessTopology
