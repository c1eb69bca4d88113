import AccessTopology.Settings
import AccessTopology.Text.Blank

namespace AccessTopology

/-!
# The scope of a pass

Everything that a topology leaves open is settled here, once: names fall back to
the composite's name, policies to the settings, and tags are layered. Blank
identifiers count as absent.
-/

/-- What all drafts of one pass share. -/
structure Scope where
  spec : Spec
  compositeName : String
  organizationName : String
  managementPolicies : List String
  providerConfigName : String
  instanceArn : Option String
  identityStoreId : Option String
  tags : TagMap
  sessionDuration : String

namespace Spec

/-- The organization's name, unless it is blank. -/
def organization? (spec : Spec) : Option String :=
  spec.organizationName.bind Text.nonBlank?

/-- The provider configuration's name, unless it is blank. -/
def providerConfig? (spec : Spec) : Option String :=
  (spec.providerConfigRef.bind ProviderConfigRef.name).bind Text.nonBlank?

/-- The instance's ARN, unless it is blank. -/
def instanceArn? (spec : Spec) : Option String :=
  (spec.identityCenter.bind IdentityCenterRef.instanceArn).bind Text.nonBlank?

/-- The identity store's id, unless it is blank. -/
def identityStoreId? (spec : Spec) : Option String :=
  (spec.identityStore.bind IdentityStoreRef.id).bind Text.nonBlank?

/-- The management policies, unless there are none. -/
def managementPolicies? (spec : Spec) : Option (List String) :=
  match spec.managementPolicies with
  | some (policy :: policies) => some (policy :: policies)
  | _ => none

end Spec

namespace Scope

/-- Tags of every draft: the settings' tags, the organization's name, the topology's tags. -/
def sharedTags
    (spec : Spec)
    (organizationName : String)
    (settings : Settings) :
    TagMap :=
  (settings.baseTags.insert "organization" organizationName).overlay spec.tags

/-- The scope of a named topology under some settings. -/
def build
    (compositeName : String)
    (spec : Spec)
    (settings : Settings) :
    Scope :=
  let organizationName := spec.organization?.getD compositeName
  { spec := spec
    compositeName := compositeName
    organizationName := organizationName
    managementPolicies :=
      spec.managementPolicies?.getD settings.managementPolicies
    providerConfigName := spec.providerConfig?.getD compositeName
    instanceArn := spec.instanceArn?
    identityStoreId := spec.identityStoreId?
    tags := sharedTags spec organizationName settings
    sessionDuration := settings.sessionDuration }

/-- Whether principals are managed in this pass. -/
def managesPrincipals (scope : Scope) : Bool :=
  scope.identityStoreId.isSome

/-- The shared tags under a resource's own. -/
def tagsFor
    (scope : Scope)
    (own : TagMap) :
    TagMap :=
  scope.tags.overlay own

/-- Whether a group of this name is declared. -/
def declaresGroup
    (scope : Scope)
    (name : String) :
    Bool :=
  scope.spec.groups.any (·.name = name)

/-- Whether a user of this name is declared. -/
def declaresUser
    (scope : Scope)
    (name : String) :
    Bool :=
  scope.spec.users.any (·.name = name)

/-- Whether a principal of this kind and name is declared. -/
def declaresPrincipal (scope : Scope) : PrincipalKind → String → Bool
  | .group, name => scope.declaresGroup name
  | .user, name => scope.declaresUser name

/-- Whether a permission set of this name is declared. -/
def declaresPermissionSet
    (scope : Scope)
    (name : String) :
    Bool :=
  scope.spec.permissionSets.any (·.name = name)

end Scope

end AccessTopology
