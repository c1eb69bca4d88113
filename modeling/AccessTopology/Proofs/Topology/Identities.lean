import AccessTopology.Proofs.Topology.Pass
import AccessTopology.Proofs.Validation.SameNames

namespace AccessTopology

/-!
# What identities decide

The identity of a declaration decides the kind, the key and the references of
its draft.  The identities of a topology and the names that it declares
therefore decide whether a pass completes: no attribute of a declaration keeps
a name from resolving or makes two declarations share a key.
-/

namespace ResourceIdentity

/-- The kind of a resource. -/
def kind : ResourceIdentity → ResourceKind
  | group _ => .group
  | user _ => .user
  | membership _ _ => .groupMembership
  | permissionSet _ => .permissionSet
  | inlinePolicy _ => .inlinePolicy
  | managedPolicy _ _ => .managedPolicyAttachment
  | customerPolicy _ _ _ => .customerPolicyAttachment
  | assignment _ _ _ _ => .accountAssignment

/-- The key of a resource. -/
def key : ResourceIdentity → LogicalKey
  | group name => .group name
  | user name => .user name
  | membership member container => .membership member container
  | permissionSet name => .permissionSet name
  | inlinePolicy set => .inlinePolicy set
  | managedPolicy set arn => .managedPolicy set arn
  | customerPolicy set path name => .customerPolicy set path name
  | assignment set principalKind principal account =>
      .assignment set principalKind principal account

/-- The reference of an attachment to the permission set of a name. -/
def attachmentReferences (set : String) : List (String × Reference) :=
  [("permissionSetArn", .draft (.permissionSet set) "arn")]

/-- The references of a resource's draft. -/
def references
    (scope : Scope) :
    ResourceIdentity → Except RenderError (List (String × Reference))
  | group _ => .ok []
  | user _ => .ok []
  | membership member container => do
      let containerReference ← scope.resolvePrincipal .group container
      return [("groupId", containerReference),
        ("memberId", .draft (.user member) "userId")]
  | permissionSet _ => .ok []
  | inlinePolicy set => .ok (attachmentReferences set)
  | managedPolicy set _ => .ok (attachmentReferences set)
  | customerPolicy set _ _ => .ok (attachmentReferences set)
  | assignment set principalKind principal _ => do
      let principalReference ←
        scope.resolvePrincipal principalKind principal
      let setReference ← scope.resolvePermissionSet set
      return [("principalId", principalReference),
        ("permissionSetArn", setReference)]

end ResourceIdentity

namespace Declaration

theorem kind_identity (declaration : Declaration) :
    declaration.identity.kind = declaration.kind := by
  cases declaration <;> rfl

theorem key_identity (declaration : Declaration) :
    declaration.identity.key = declaration.key := by
  cases declaration <;> rfl

theorem references_identity
    (scope : Scope)
    (declaration : Declaration) :
    declaration.identity.references scope = declaration.references scope := by
  cases declaration <;> rfl

/-- Whether a declaration's names resolve depends on its identity. -/
theorem resolves_iff
    {scope : Scope}
    {declaration : Declaration} :
    declaration.Resolves scope ↔
      ∃ references,
        declaration.identity.references scope = .ok references := by
  simp only [Resolves, references_identity, references_eq_ok_iff]

end Declaration

namespace Scope

/-- Two scopes of topologies with the same names. -/
structure SameNames (left right : Scope) : Prop where
  leftFaithful : left.Faithful
  rightFaithful : right.Faithful
  spec : left.spec.SameNames right.spec

namespace SameNames

variable {left right : Scope}

theorem managesPrincipals_eq
    (same : left.SameNames right) :
    left.managesPrincipals = right.managesPrincipals := by
  rw [managesPrincipals, managesPrincipals,
    same.leftFaithful.identityStoreId, same.rightFaithful.identityStoreId,
    same.spec.managed]

theorem resolvePrincipal_eq
    (same : left.SameNames right)
    (kind : PrincipalKind)
    (name : String) :
    left.resolvePrincipal kind name = right.resolvePrincipal kind name := by
  have declares :
      left.declaresPrincipal kind name = right.declaresPrincipal kind name := by
    rw [Bool.eq_iff_iff, declaresPrincipal_iff, declaresPrincipal_iff]
    exact same.spec.declares_iff kind name
  rw [resolvePrincipal, resolvePrincipal, declares, same.managesPrincipals_eq]

theorem resolvePermissionSet_eq
    (same : left.SameNames right)
    (name : String) :
    left.resolvePermissionSet name = right.resolvePermissionSet name := by
  have declares :
      left.declaresPermissionSet name = right.declaresPermissionSet name := by
    rw [Bool.eq_iff_iff, declaresPermissionSet_iff, declaresPermissionSet_iff]
    exact same.spec.declaresPermissionSet_iff name
  rw [resolvePermissionSet, resolvePermissionSet, declares]

/-- In scopes with the same names an identity has the same references. -/
theorem references_eq
    (same : left.SameNames right)
    (identity : ResourceIdentity) :
    identity.references left = identity.references right := by
  cases identity with
  | membership member container =>
      rw [ResourceIdentity.references, ResourceIdentity.references,
        same.resolvePrincipal_eq]
  | assignment set principalKind principal account =>
      rw [ResourceIdentity.references, ResourceIdentity.references,
        same.resolvePrincipal_eq, same.resolvePermissionSet_eq]
  | group | user | permissionSet | inlinePolicy | managedPolicy |
      customerPolicy =>
      rfl

end SameNames

end Scope

/-- The identities of a topology's declarations, in their order. -/
def Spec.identities (spec : Spec) : List ResourceIdentity :=
  spec.declarations.map Declaration.identity

/--
A pass completes where it does in a scope with the same names and all of its
identities.
-/
theorem Scope.Completes.of_sameNames
    {left right : Scope}
    (same : left.SameNames right)
    (subset : right.spec.identities ⊆ left.spec.identities)
    (completes : left.Completes Stage.all) :
    right.Completes Stage.all := by
  have standsIn :
      ∀ declaration ∈ right.spec.declarationsIn Stage.all,
        ∃ other ∈ left.spec.declarationsIn Stage.all,
          other.identity = declaration.identity := by
    simp only [Spec.declarationsIn_all]
    intro declaration listed
    exact List.mem_map.mp (subset (List.mem_map_of_mem listed))
  constructor
  · intro declaration listed
    obtain ⟨other, otherListed, sameIdentity⟩ := standsIn declaration listed
    have otherResolves := completes.resolves other otherListed
    rw [Declaration.resolves_iff, sameIdentity, same.references_eq]
      at otherResolves
    exact Declaration.resolves_iff.mpr otherResolves
  · refine completes.keysApart.of_same ?_
    intro declaration listed
    obtain ⟨other, otherListed, sameIdentity⟩ := standsIn declaration listed
    refine ⟨other, otherListed, ?_, sameIdentity⟩
    rw [← other.key_identity, sameIdentity, declaration.key_identity]

end AccessTopology
