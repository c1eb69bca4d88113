import AccessTopology.Document.Reader
import AccessTopology.Spec.Basic

namespace AccessTopology

/-!
# Documents of declared topologies

How each declaration is read from a document and written as one. A record lists
its fields in the order in which they are written.
-/

/-- Null, or the written form of a value. -/
def Json.ofOption
    (write : α → Json) :
    Option α → Json
  | none => .null
  | some value => write value

/-- The array of the written forms of some values. -/
def Json.ofList
    (write : α → Json)
    (values : List α) :
    Json :=
  .array (values.map write)

/-- The object of a map, with each value in its written form. -/
def Json.ofKeyMap
    (write : α → Json)
    (map : KeyMap α) :
    Json :=
  .object (map.entries.map (fun entry => (entry.1, write entry.2)))

namespace TagMap

/-- Read tags. -/
def reader : Reader TagMap :=
  .map .string

/-- Tags as a document. -/
def toJson (tags : TagMap) : Json :=
  Json.ofKeyMap .string tags

end TagMap

namespace PrincipalKind

/-- Read a principal kind by its name. -/
def reader : Reader PrincipalKind :=
  .cases (all.map (fun kind => (kind.name, kind)))

/-- A principal kind as a document. -/
def toJson (kind : PrincipalKind) : Json :=
  .string kind.name

end PrincipalKind

namespace ResourceKind

/-- Read a resource kind by its name. -/
def reader : Reader ResourceKind :=
  .cases (all.map (fun kind => (kind.name, kind)))

/-- A resource kind as a document. -/
def toJson (kind : ResourceKind) : Json :=
  .string kind.name

end ResourceKind

namespace Group

/-- Fields of a group. -/
def fields : List (Field Group) :=
  [.required "name" .string (fun group value => { group with name := value }),
    .defaulted "displayName" (.option .string)
      (fun group value => { group with displayName := value }),
    .defaulted "description" (.option .string)
      (fun group value => { group with description := value }),
    .defaulted "tags" TagMap.reader
      (fun group value => { group with tags := value })]

/-- Read a group. -/
def reader : Reader Group :=
  .record fields { name := "" }

/-- A group as a document. -/
def toJson (group : Group) : Json :=
  .object
    [("name", .string group.name),
      ("displayName", .ofString? group.displayName),
      ("description", .ofString? group.description),
      ("tags", TagMap.toJson group.tags)]

end Group

namespace User

/-- Fields of a user. -/
def fields : List (Field User) :=
  [.required "name" .string (fun user value => { user with name := value }),
    .defaulted "displayName" (.option .string)
      (fun user value => { user with displayName := value }),
    .defaulted "givenName" (.option .string)
      (fun user value => { user with givenName := value }),
    .defaulted "familyName" (.option .string)
      (fun user value => { user with familyName := value }),
    .defaulted "email" (.option .string)
      (fun user value => { user with email := value }),
    .defaulted "groups" (.list .string)
      (fun user value => { user with groups := value }),
    .defaulted "tags" TagMap.reader
      (fun user value => { user with tags := value })]

/-- Read a user. -/
def reader : Reader User :=
  .record fields { name := "" }

/-- A user as a document. -/
def toJson (user : User) : Json :=
  .object
    [("name", .string user.name),
      ("displayName", .ofString? user.displayName),
      ("givenName", .ofString? user.givenName),
      ("familyName", .ofString? user.familyName),
      ("email", .ofString? user.email),
      ("groups", .ofStrings user.groups),
      ("tags", TagMap.toJson user.tags)]

end User

namespace CustomerPolicy

/-- Fields of a customer policy. -/
def fields : List (Field CustomerPolicy) :=
  [.required "name" .string
      (fun policy value => { policy with name := value }),
    .defaulted "path" .string
      (fun policy value => { policy with path := value })]

/-- Read a customer policy. -/
def reader : Reader CustomerPolicy :=
  .record fields { name := "" }

/-- A customer policy as a document. -/
def toJson (policy : CustomerPolicy) : Json :=
  .object
    [("name", .string policy.name), ("path", .string policy.path)]

end CustomerPolicy

namespace PermissionSet

/-- Fields of a permission set. -/
def fields : List (Field PermissionSet) :=
  [.required "name" .string (fun set value => { set with name := value }),
    .defaulted "description" (.option .string)
      (fun set value => { set with description := value }),
    .defaulted "sessionDuration" (.option .string)
      (fun set value => { set with sessionDuration := value }),
    .defaulted "relayState" (.option .string)
      (fun set value => { set with relayState := value }),
    .defaulted "inlinePolicy" (.option .any)
      (fun set value => { set with inlinePolicy := value }),
    .defaulted "managedPolicies" (.list .string)
      (fun set value => { set with managedPolicies := value }),
    .defaulted "customerManagedPolicies" (.list CustomerPolicy.reader)
      (fun set value => { set with customerPolicies := value }),
    .defaulted "assignToAccounts" (.list .string)
      (fun set value => { set with accounts := value }),
    .defaulted "assignToGroups" (.list .string)
      (fun set value => { set with groups := value }),
    .defaulted "assignToUsers" (.list .string)
      (fun set value => { set with users := value }),
    .defaulted "tags" TagMap.reader
      (fun set value => { set with tags := value })]

/-- Read a permission set. -/
def reader : Reader PermissionSet :=
  .record fields { name := "" }

/-- A permission set as a document. -/
def toJson (set : PermissionSet) : Json :=
  .object
    [("name", .string set.name),
      ("description", .ofString? set.description),
      ("sessionDuration", .ofString? set.sessionDuration),
      ("relayState", .ofString? set.relayState),
      ("inlinePolicy", .ofOption id set.inlinePolicy),
      ("managedPolicies", .ofStrings set.managedPolicies),
      ("customerManagedPolicies",
        .ofList CustomerPolicy.toJson set.customerPolicies),
      ("assignToAccounts", .ofStrings set.accounts),
      ("assignToGroups", .ofStrings set.groups),
      ("assignToUsers", .ofStrings set.users),
      ("tags", TagMap.toJson set.tags)]

end PermissionSet

namespace DirectAssignment

/-- Fields of an assignment declared on its own. -/
def fields : List (Field DirectAssignment) :=
  [.required "principalName" .string
      (fun assignment value => { assignment with principal := value }),
    .required "principalType" PrincipalKind.reader
      (fun assignment value => { assignment with principalKind := value }),
    .required "permissionSetName" .string
      (fun assignment value => { assignment with permissionSet := value }),
    .required "accountId" .string
      (fun assignment value => { assignment with account := value })]

/-- Read an assignment declared on its own. -/
def reader : Reader DirectAssignment :=
  .record fields
    { principal := "", principalKind := .group,
      permissionSet := "", account := "" }

/-- An assignment declared on its own as a document. -/
def toJson (assignment : DirectAssignment) : Json :=
  .object
    [("principalName", .string assignment.principal),
      ("principalType", assignment.principalKind.toJson),
      ("permissionSetName", .string assignment.permissionSet),
      ("accountId", .string assignment.account)]

end DirectAssignment

namespace ProviderConfigRef

/-- Fields of a provider configuration reference. -/
def fields : List (Field ProviderConfigRef) :=
  [.defaulted "name" (.option .string) (fun _ value => { name := value })]

/-- Read a provider configuration reference. -/
def reader : Reader ProviderConfigRef :=
  .record fields {}

/-- A provider configuration reference as a document. -/
def toJson (config : ProviderConfigRef) : Json :=
  .object [("name", .ofString? config.name)]

end ProviderConfigRef

namespace IdentityCenterRef

/-- Fields of an Identity Center reference. -/
def fields : List (Field IdentityCenterRef) :=
  [.defaulted "instanceArn" (.option .string)
    (fun _ value => { instanceArn := value })]

/-- Read an Identity Center reference. -/
def reader : Reader IdentityCenterRef :=
  .record fields {}

/-- An Identity Center reference as a document. -/
def toJson (center : IdentityCenterRef) : Json :=
  .object [("instanceArn", .ofString? center.instanceArn)]

end IdentityCenterRef

namespace IdentityStoreRef

/-- Fields of an identity store reference. -/
def fields : List (Field IdentityStoreRef) :=
  [.defaulted "id" (.option .string) (fun _ value => { id := value })]

/-- Read an identity store reference. -/
def reader : Reader IdentityStoreRef :=
  .record fields {}

/-- An identity store reference as a document. -/
def toJson (store : IdentityStoreRef) : Json :=
  .object [("id", .ofString? store.id)]

end IdentityStoreRef

namespace Spec

/-- Fields of a declared topology. -/
def fields : List (Field Spec) :=
  [.defaulted "organizationName" (.option .string)
      (fun spec value => { spec with organizationName := value }),
    .defaulted "managementPolicies" (.option (.list .string))
      (fun spec value => { spec with managementPolicies := value }),
    .defaulted "providerConfigRef" (.option ProviderConfigRef.reader)
      (fun spec value => { spec with providerConfigRef := value }),
    .defaulted "identityCenter" (.option IdentityCenterRef.reader)
      (fun spec value => { spec with identityCenter := value }),
    .defaulted "identityStore" (.option IdentityStoreRef.reader)
      (fun spec value => { spec with identityStore := value }),
    .defaulted "groups" (.list Group.reader)
      (fun spec value => { spec with groups := value }),
    .defaulted "users" (.list User.reader)
      (fun spec value => { spec with users := value }),
    .defaulted "permissionSets" (.list PermissionSet.reader)
      (fun spec value => { spec with permissionSets := value }),
    .defaulted "assignments" (.list DirectAssignment.reader)
      (fun spec value => { spec with assignments := value }),
    .defaulted "tags" TagMap.reader
      (fun spec value => { spec with tags := value }),
    .defaulted "externalIdentityProvider" (.option .any)
      (fun spec value => { spec with externalIdentityProvider := value })]

/-- Read a declared topology. -/
def reader : Reader Spec :=
  .record fields {}

/-- A declared topology as a document. -/
def toJson (spec : Spec) : Json :=
  .object
    [("organizationName", .ofString? spec.organizationName),
      ("managementPolicies", .ofOption Json.ofStrings spec.managementPolicies),
      ("providerConfigRef",
        .ofOption ProviderConfigRef.toJson spec.providerConfigRef),
      ("identityCenter",
        .ofOption IdentityCenterRef.toJson spec.identityCenter),
      ("identityStore",
        .ofOption IdentityStoreRef.toJson spec.identityStore),
      ("groups", .ofList Group.toJson spec.groups),
      ("users", .ofList User.toJson spec.users),
      ("permissionSets", .ofList PermissionSet.toJson spec.permissionSets),
      ("assignments", .ofList DirectAssignment.toJson spec.assignments),
      ("tags", TagMap.toJson spec.tags),
      ("externalIdentityProvider", .ofOption id spec.externalIdentityProvider)]

end Spec

namespace Metadata

/-- Fields of a composite's metadata. -/
def fields : List (Field Metadata) :=
  [.defaulted "name" .string (fun _ value => { name := value })]

/-- Read a composite's metadata. -/
def reader : Reader Metadata :=
  .record fields {}

/-- A composite's metadata as a document. -/
def toJson (metadata : Metadata) : Json :=
  .object [("name", .string metadata.name)]

end Metadata

namespace Composite

/-- Fields of a composite. -/
def fields : List (Field Composite) :=
  [.defaulted "metadata" Metadata.reader
      (fun composite value => { composite with metadata := value }),
    .defaulted "spec" Spec.reader
      (fun composite value => { composite with spec := value }),
    .defaulted "observed" (.list .any)
      (fun composite value => { composite with observed := value }),
    .defaulted "engineMinVersion" (.option .string)
      (fun composite value => { composite with engineMinVersion := value })]

/-- Read a composite. -/
def reader : Reader Composite :=
  .record fields {}

/-- A composite as a document. -/
def toJson (composite : Composite) : Json :=
  .object
    [("metadata", composite.metadata.toJson),
      ("spec", composite.spec.toJson),
      ("observed", .array composite.observed),
      ("engineMinVersion", .ofString? composite.engineMinVersion)]

end Composite

end AccessTopology
