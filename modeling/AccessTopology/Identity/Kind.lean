namespace AccessTopology

/-!
# Kinds of resources

What a topology is made of, how the provider names each kind, and which
identifier of a kind other resources bind to.
-/

/-- The provider service that owns a resource. -/
inductive Service
  | identityStore
  | ssoAdmin
  deriving Repr, DecidableEq

/-- Kinds of managed resources. -/
inductive ResourceKind
  | group
  | user
  | groupMembership
  | permissionSet
  | inlinePolicy
  | managedPolicyAttachment
  | customerPolicyAttachment
  | accountAssignment
  deriving Repr, DecidableEq

/-- Principals that an assignment can bind. -/
inductive PrincipalKind
  | group
  | user
  deriving Repr, DecidableEq

namespace Service

/-- API group and version of a service's resources. -/
def apiVersion : Service → String
  | identityStore => "identitystore.aws.upbound.io/v1beta1"
  | ssoAdmin => "ssoadmin.aws.upbound.io/v1beta1"

/-- The field that says where a service's resources live. -/
def homeField : Service → String
  | identityStore => "identityStoreId"
  | ssoAdmin => "instanceArn"

end Service

namespace ResourceKind

/-- Every kind, in the order of declaration. -/
def all : List ResourceKind :=
  [group, user, groupMembership, permissionSet, inlinePolicy,
    managedPolicyAttachment, customerPolicyAttachment, accountAssignment]

/-- The name of a kind in manifests. -/
def name : ResourceKind → String
  | group => "Group"
  | user => "User"
  | groupMembership => "GroupMembership"
  | permissionSet => "PermissionSet"
  | inlinePolicy => "PermissionSetInlinePolicy"
  | managedPolicyAttachment => "ManagedPolicyAttachment"
  | customerPolicyAttachment => "CustomerManagedPolicyAttachment"
  | accountAssignment => "AccountAssignment"

/-- The text that every key of a kind starts with. -/
def keyPrefix : ResourceKind → String
  | group => "identity-center-group"
  | user => "identity-center-user"
  | groupMembership => "identity-center-group-membership"
  | permissionSet => "permission-set"
  | inlinePolicy => "permission-set-inline-policy"
  | managedPolicyAttachment => "permission-set-managed-policy"
  | customerPolicyAttachment => "permission-set-customer-policy"
  | accountAssignment => "account-assignment"

/-- The service that owns a kind. -/
def service : ResourceKind → Service
  | group | user | groupMembership => .identityStore
  | _ => .ssoAdmin

/-- API group and version of a kind. -/
def apiVersion (kind : ResourceKind) : String :=
  kind.service.apiVersion

/-- The provider's field that holds the identifier other resources bind to. -/
def identifierField? : ResourceKind → Option String
  | group => some "groupId"
  | user => some "userId"
  | permissionSet => some "arn"
  | _ => none

end ResourceKind

namespace PrincipalKind

/-- Every principal kind, in the order of declaration. -/
def all : List PrincipalKind :=
  [group, user]

/-- The name of a principal kind in assignments. -/
def name : PrincipalKind → String
  | group => "GROUP"
  | user => "USER"

/-- The part of an assignment's key that stands for the principal kind. -/
def keyPart : PrincipalKind → String
  | group => "group"
  | user => "user"

/-- The resource kind of a principal. -/
def resourceKind : PrincipalKind → ResourceKind
  | group => .group
  | user => .user

/-- The provider's field that holds a principal's identifier. -/
def identifierField : PrincipalKind → String
  | group => "groupId"
  | user => "userId"

/-- A principal's identifier field is the one of its resource kind. -/
theorem identifierField?_resourceKind (kind : PrincipalKind) :
    kind.resourceKind.identifierField? = some kind.identifierField := by
  cases kind <;> rfl

end PrincipalKind

end AccessTopology
