import AccessTopology.Identity.Kind
import AccessTopology.Json.Value

namespace AccessTopology

/-!
# Declared topologies

What a caller declares: principals, permission sets with their policies, and
who is assigned what on which account. Every attribute keeps the form in which
it was given; defaults are settled later, in a `Scope`.
-/

/-- Tags of a resource. -/
abbrev TagMap : Type :=
  KeyMap String

/-- A declared group. -/
structure Group where
  name : String
  displayName : Option String := none
  description : Option String := none
  tags : TagMap := .empty
  deriving DecidableEq

/-- A declared user and the groups, by name or id, that the user belongs to. -/
structure User where
  name : String
  displayName : Option String := none
  givenName : Option String := none
  familyName : Option String := none
  email : Option String := none
  groups : List String := []
  tags : TagMap := .empty
  deriving DecidableEq

/-- A customer-managed policy, which is known by its path and name. -/
structure CustomerPolicy where
  name : String
  path : String := "/"
  deriving Repr, DecidableEq

/--
A declared permission set, its policies, and the accounts on which its groups
and users hold it. The inline policy is a document or the text of one.
-/
structure PermissionSet where
  name : String
  description : Option String := none
  sessionDuration : Option String := none
  relayState : Option String := none
  inlinePolicy : Option Json := none
  managedPolicies : List String := []
  customerPolicies : List CustomerPolicy := []
  accounts : List String := []
  groups : List String := []
  users : List String := []
  tags : TagMap := .empty

/-- An assignment declared on its own. -/
structure DirectAssignment where
  principal : String
  principalKind : PrincipalKind
  permissionSet : String
  account : String
  deriving Repr, DecidableEq

/-- The provider configuration that a composite asks for. -/
structure ProviderConfigRef where
  name : Option String := none
  deriving Repr, DecidableEq

/-- The Identity Center instance of a composite. -/
structure IdentityCenterRef where
  instanceArn : Option String := none
  deriving Repr, DecidableEq

/-- The identity store of a composite. -/
structure IdentityStoreRef where
  id : Option String := none
  deriving Repr, DecidableEq

/-- A declared topology. -/
structure Spec where
  organizationName : Option String := none
  managementPolicies : Option (List String) := none
  providerConfigRef : Option ProviderConfigRef := none
  identityCenter : Option IdentityCenterRef := none
  identityStore : Option IdentityStoreRef := none
  groups : List Group := []
  users : List User := []
  permissionSets : List PermissionSet := []
  assignments : List DirectAssignment := []
  tags : TagMap := .empty
  externalIdentityProvider : Option Json := none

/-- What a composite is called. -/
structure Metadata where
  name : String := ""
  deriving Repr, DecidableEq

/--
One pass's input: a declared topology, the objects observed last, and the
oldest engine that names resources as the topology needs.
-/
structure Composite where
  metadata : Metadata := {}
  spec : Spec := {}
  observed : List Json := []
  engineMinVersion : Option String := none

end AccessTopology
