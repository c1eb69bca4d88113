import AccessTopology.Proofs.Document.Record
import AccessTopology.Settings

namespace AccessTopology

/-!
# Declared topologies and settings read back

For each kind of declaration, the members that a document may leave out and what
they are left out for, the columns of its records, and its codec.  A declaration
reads back if the values that it takes as they are list the members of their
objects by increasing name, as every value does that was read, and are not null
where there may be no value.
-/

namespace Codec

/-- Tags. -/
def tags : Codec TagMap :=
  text.keyMap

@[simp] theorem keeps_tags (map : TagMap) :
    tags.Keeps map :=
  fun _ _ => trivial

/-- Principal kinds. -/
def principalKind : Codec PrincipalKind :=
  named (PrincipalKind.all.map (fun kind => (kind.name, kind)))
    PrincipalKind.name
    (fun kind => by cases kind <;> decide)

@[simp] theorem keeps_principalKind (kind : PrincipalKind) :
    principalKind.Keeps kind :=
  trivial

end Codec

namespace Group

/-- What the document of a group may leave out. -/
def layout : Layout :=
  .record
    [("name", .fixed, none),
      ("displayName", .fixed, some .null),
      ("description", .fixed, some .null),
      ("tags", .fixed, some (.object []))]

/-- Columns of groups. -/
def columns : List (Column Group) :=
  [.kept .required "name" .text Group.name
      (fun group value => { group with name := value }),
    .defaulted none "displayName" .text? Group.displayName
      (fun group value => { group with displayName := value })
      (Codec.keeps_text? none),
    .defaulted none "description" .text? Group.description
      (fun group value => { group with description := value })
      (Codec.keeps_text? none),
    .defaulted .empty "tags" .tags Group.tags
      (fun group value => { group with tags := value })
      (Codec.keeps_tags .empty)]

/-- The table of groups. -/
def table : Table Group where
  initial := { name := "" }
  columns := columns
  starts := by
    simp [columns]
  distinct := by
    decide
  commute := by
    simp [columns, Column.Commute]
  rebuilt := by
    simp [columns, Column.putAll]

/-- Groups. -/
def codec : Codec Group where
  reader := reader
  write := toJson
  layout := layout
  Keeps _ := True
  reads := by
    intro group _ shorter abridges
    apply table.reads _ abridges
    simp [Table.Keeps, table, columns]

@[simp] theorem keeps_codec (group : Group) :
    codec.Keeps group :=
  trivial

end Group

namespace User

/-- What the document of a user may leave out. -/
def layout : Layout :=
  .record
    [("name", .fixed, none),
      ("displayName", .fixed, some .null),
      ("givenName", .fixed, some .null),
      ("familyName", .fixed, some .null),
      ("email", .fixed, some .null),
      ("groups", .fixed, some (.array [])),
      ("tags", .fixed, some (.object []))]

/-- Columns of users. -/
def columns : List (Column User) :=
  [.kept .required "name" .text User.name
      (fun user value => { user with name := value }),
    .defaulted none "displayName" .text? User.displayName
      (fun user value => { user with displayName := value })
      (Codec.keeps_text? none),
    .defaulted none "givenName" .text? User.givenName
      (fun user value => { user with givenName := value })
      (Codec.keeps_text? none),
    .defaulted none "familyName" .text? User.familyName
      (fun user value => { user with familyName := value })
      (Codec.keeps_text? none),
    .defaulted none "email" .text? User.email
      (fun user value => { user with email := value })
      (Codec.keeps_text? none),
    .defaulted [] "groups" .texts User.groups
      (fun user value => { user with groups := value })
      (Codec.keeps_texts []),
    .defaulted .empty "tags" .tags User.tags
      (fun user value => { user with tags := value })
      (Codec.keeps_tags .empty)]

/-- The table of users. -/
def table : Table User where
  initial := { name := "" }
  columns := columns
  starts := by
    simp [columns]
  distinct := by
    decide
  commute := by
    simp [columns, Column.Commute]
  rebuilt := by
    simp [columns, Column.putAll]

/-- Users. -/
def codec : Codec User where
  reader := reader
  write := toJson
  layout := layout
  Keeps _ := True
  reads := by
    intro user _ shorter abridges
    apply table.reads _ abridges
    simp [Table.Keeps, table, columns]

@[simp] theorem keeps_codec (user : User) :
    codec.Keeps user :=
  trivial

end User

namespace CustomerPolicy

/-- What the document of a customer policy may leave out. -/
def layout : Layout :=
  .record
    [("name", .fixed, none),
      ("path", .fixed, some (.string "/"))]

/-- Columns of customer policies. -/
def columns : List (Column CustomerPolicy) :=
  [.kept .required "name" .text CustomerPolicy.name
      (fun policy value => { policy with name := value }),
    .defaulted "/" "path" .text CustomerPolicy.path
      (fun policy value => { policy with path := value })
      (Codec.keeps_text "/")]

/-- The table of customer policies. -/
def table : Table CustomerPolicy where
  initial := { name := "" }
  columns := columns
  starts := by
    simp [columns]
  distinct := by
    decide
  commute := by
    simp [columns, Column.Commute]
  rebuilt := by
    simp [columns, Column.putAll]

/-- Customer policies. -/
def codec : Codec CustomerPolicy where
  reader := reader
  write := toJson
  layout := layout
  Keeps _ := True
  reads := by
    intro policy _ shorter abridges
    apply table.reads _ abridges
    simp [Table.Keeps, table, columns]

@[simp] theorem keeps_codec (policy : CustomerPolicy) :
    codec.Keeps policy :=
  trivial

end CustomerPolicy

namespace PermissionSet

/-- What the document of a permission set may leave out. -/
def layout : Layout :=
  .record
    [("name", .fixed, none),
      ("description", .fixed, some .null),
      ("sessionDuration", .fixed, some .null),
      ("relayState", .fixed, some .null),
      ("inlinePolicy", .fixed, some .null),
      ("managedPolicies", .fixed, some (.array [])),
      ("customerManagedPolicies", .items CustomerPolicy.layout,
        some (.array [])),
      ("assignToAccounts", .fixed, some (.array [])),
      ("assignToGroups", .fixed, some (.array [])),
      ("assignToUsers", .fixed, some (.array [])),
      ("tags", .fixed, some (.object []))]

/-- Columns of permission sets. -/
def columns : List (Column PermissionSet) :=
  [.kept .required "name" .text PermissionSet.name
      (fun set value => { set with name := value }),
    .defaulted none "description" .text? PermissionSet.description
      (fun set value => { set with description := value })
      (Codec.keeps_text? none),
    .defaulted none "sessionDuration" .text? PermissionSet.sessionDuration
      (fun set value => { set with sessionDuration := value })
      (Codec.keeps_text? none),
    .defaulted none "relayState" .text? PermissionSet.relayState
      (fun set value => { set with relayState := value })
      (Codec.keeps_text? none),
    .defaulted none "inlinePolicy" Codec.any.option
      PermissionSet.inlinePolicy
      (fun set value => { set with inlinePolicy := value })
      Codec.any.keeps_none,
    .defaulted [] "managedPolicies" .texts PermissionSet.managedPolicies
      (fun set value => { set with managedPolicies := value })
      (Codec.keeps_texts []),
    .defaulted [] "customerManagedPolicies" CustomerPolicy.codec.list
      PermissionSet.customerPolicies
      (fun set value => { set with customerPolicies := value })
      CustomerPolicy.codec.keeps_nil,
    .defaulted [] "assignToAccounts" .texts PermissionSet.accounts
      (fun set value => { set with accounts := value })
      (Codec.keeps_texts []),
    .defaulted [] "assignToGroups" .texts PermissionSet.groups
      (fun set value => { set with groups := value })
      (Codec.keeps_texts []),
    .defaulted [] "assignToUsers" .texts PermissionSet.users
      (fun set value => { set with users := value })
      (Codec.keeps_texts []),
    .defaulted .empty "tags" .tags PermissionSet.tags
      (fun set value => { set with tags := value })
      (Codec.keeps_tags .empty)]

/-- The table of permission sets. -/
def table : Table PermissionSet where
  initial := { name := "" }
  columns := columns
  starts := by
    simp [columns]
  distinct := by
    decide
  commute := by
    simp [columns, Column.Commute]
  rebuilt := by
    simp [columns, Column.putAll]

/-- The inline policy, if any, is in canonical form and is not null. -/
def Spelled (set : PermissionSet) : Prop :=
  ∀ policy ∈ set.inlinePolicy, policy.KeysIncrease ∧ policy ≠ .null

/-- Permission sets. -/
def codec : Codec PermissionSet where
  reader := reader
  write := toJson
  layout := layout
  Keeps := Spelled
  reads := by
    intro set spelled shorter abridges
    apply table.reads _ abridges
    simpa [Table.Keeps, table, columns, Spelled] using spelled

@[simp] theorem keeps_codec (set : PermissionSet) :
    codec.Keeps set ↔ set.Spelled :=
  .rfl

end PermissionSet

namespace DirectAssignment

/-- Nothing in the document of an assignment may be left out. -/
def layout : Layout :=
  .record
    [("principalName", .fixed, none),
      ("principalType", .fixed, none),
      ("permissionSetName", .fixed, none),
      ("accountId", .fixed, none)]

/-- Columns of assignments. -/
def columns : List (Column DirectAssignment) :=
  [.kept .required "principalName" .text DirectAssignment.principal
      (fun assignment value => { assignment with principal := value }),
    .kept .required "principalType" .principalKind
      DirectAssignment.principalKind
      (fun assignment value => { assignment with principalKind := value }),
    .kept .required "permissionSetName" .text DirectAssignment.permissionSet
      (fun assignment value => { assignment with permissionSet := value }),
    .kept .required "accountId" .text DirectAssignment.account
      (fun assignment value => { assignment with account := value })]

/-- The table of assignments. -/
def table : Table DirectAssignment where
  initial :=
    { principal := "", principalKind := .group,
      permissionSet := "", account := "" }
  columns := columns
  starts := by
    simp [columns]
  distinct := by
    decide
  commute := by
    simp [columns, Column.Commute]
  rebuilt := by
    simp [columns, Column.putAll]

/-- Assignments. -/
def codec : Codec DirectAssignment where
  reader := reader
  write := toJson
  layout := layout
  Keeps _ := True
  reads := by
    intro assignment _ shorter abridges
    apply table.reads _ abridges
    simp [Table.Keeps, table, columns]

@[simp] theorem keeps_codec (assignment : DirectAssignment) :
    codec.Keeps assignment :=
  trivial

end DirectAssignment

namespace ProviderConfigRef

/-- What the document of a provider configuration reference may leave out. -/
def layout : Layout :=
  .record [("name", .fixed, some .null)]

/-- Columns of provider configuration references. -/
def columns : List (Column ProviderConfigRef) :=
  [.defaulted none "name" .text? ProviderConfigRef.name
    (fun _ value => { name := value }) (Codec.keeps_text? none)]

/-- The table of provider configuration references. -/
def table : Table ProviderConfigRef where
  initial := {}
  columns := columns
  starts := by
    simp [columns]
  distinct := by
    decide
  commute := by
    simp [columns]
  rebuilt := by
    simp [columns, Column.putAll]

/-- Provider configuration references. -/
def codec : Codec ProviderConfigRef where
  reader := reader
  write := toJson
  layout := layout
  Keeps _ := True
  reads := by
    intro config _ shorter abridges
    apply table.reads _ abridges
    simp [Table.Keeps, table, columns]

@[simp] theorem keeps_codec (config : ProviderConfigRef) :
    codec.Keeps config :=
  trivial

@[simp] theorem write_codec (config : ProviderConfigRef) :
    codec.write config ≠ .null :=
  nofun

end ProviderConfigRef

namespace IdentityCenterRef

/-- What the document of an Identity Center reference may leave out. -/
def layout : Layout :=
  .record [("instanceArn", .fixed, some .null)]

/-- Columns of Identity Center references. -/
def columns : List (Column IdentityCenterRef) :=
  [.defaulted none "instanceArn" .text? IdentityCenterRef.instanceArn
    (fun _ value => { instanceArn := value }) (Codec.keeps_text? none)]

/-- The table of Identity Center references. -/
def table : Table IdentityCenterRef where
  initial := {}
  columns := columns
  starts := by
    simp [columns]
  distinct := by
    decide
  commute := by
    simp [columns]
  rebuilt := by
    simp [columns, Column.putAll]

/-- Identity Center references. -/
def codec : Codec IdentityCenterRef where
  reader := reader
  write := toJson
  layout := layout
  Keeps _ := True
  reads := by
    intro center _ shorter abridges
    apply table.reads _ abridges
    simp [Table.Keeps, table, columns]

@[simp] theorem keeps_codec (center : IdentityCenterRef) :
    codec.Keeps center :=
  trivial

@[simp] theorem write_codec (center : IdentityCenterRef) :
    codec.write center ≠ .null :=
  nofun

end IdentityCenterRef

namespace IdentityStoreRef

/-- What the document of an identity store reference may leave out. -/
def layout : Layout :=
  .record [("id", .fixed, some .null)]

/-- Columns of identity store references. -/
def columns : List (Column IdentityStoreRef) :=
  [.defaulted none "id" .text? IdentityStoreRef.id
    (fun _ value => { id := value }) (Codec.keeps_text? none)]

/-- The table of identity store references. -/
def table : Table IdentityStoreRef where
  initial := {}
  columns := columns
  starts := by
    simp [columns]
  distinct := by
    decide
  commute := by
    simp [columns]
  rebuilt := by
    simp [columns, Column.putAll]

/-- Identity store references. -/
def codec : Codec IdentityStoreRef where
  reader := reader
  write := toJson
  layout := layout
  Keeps _ := True
  reads := by
    intro store _ shorter abridges
    apply table.reads _ abridges
    simp [Table.Keeps, table, columns]

@[simp] theorem keeps_codec (store : IdentityStoreRef) :
    codec.Keeps store :=
  trivial

@[simp] theorem write_codec (store : IdentityStoreRef) :
    codec.write store ≠ .null :=
  nofun

end IdentityStoreRef

namespace Metadata

/-- What the document of a composite's metadata may leave out. -/
def layout : Layout :=
  .record [("name", .fixed, some (.string ""))]

/-- Columns of metadata. -/
def columns : List (Column Metadata) :=
  [.defaulted "" "name" .text Metadata.name
    (fun _ value => { name := value }) (Codec.keeps_text "")]

/-- The table of metadata. -/
def table : Table Metadata where
  initial := {}
  columns := columns
  starts := by
    simp [columns]
  distinct := by
    decide
  commute := by
    simp [columns]
  rebuilt := by
    simp [columns, Column.putAll]

/-- Metadata. -/
def codec : Codec Metadata where
  reader := reader
  write := toJson
  layout := layout
  Keeps _ := True
  reads := by
    intro metadata _ shorter abridges
    apply table.reads _ abridges
    simp [Table.Keeps, table, columns]

@[simp] theorem keeps_codec (metadata : Metadata) :
    codec.Keeps metadata :=
  trivial

end Metadata

namespace Spec

/-- What the document of a topology may leave out. -/
def layout : Layout :=
  .record
    [("organizationName", .fixed, some .null),
      ("managementPolicies", .fixed, some .null),
      ("providerConfigRef", ProviderConfigRef.layout, some .null),
      ("identityCenter", IdentityCenterRef.layout, some .null),
      ("identityStore", IdentityStoreRef.layout, some .null),
      ("groups", .items Group.layout, some (.array [])),
      ("users", .items User.layout, some (.array [])),
      ("permissionSets", .items PermissionSet.layout, some (.array [])),
      ("assignments", .items DirectAssignment.layout, some (.array [])),
      ("tags", .fixed, some (.object [])),
      ("externalIdentityProvider", .fixed, some .null)]

/-- Columns of topologies. -/
def columns : List (Column Spec) :=
  [.defaulted none "organizationName" .text? Spec.organizationName
      (fun spec value => { spec with organizationName := value })
      (Codec.keeps_text? none),
    .defaulted none "managementPolicies" Codec.texts.option
      Spec.managementPolicies
      (fun spec value => { spec with managementPolicies := value })
      Codec.texts.keeps_none,
    .defaulted none "providerConfigRef" ProviderConfigRef.codec.option
      Spec.providerConfigRef
      (fun spec value => { spec with providerConfigRef := value })
      ProviderConfigRef.codec.keeps_none,
    .defaulted none "identityCenter" IdentityCenterRef.codec.option
      Spec.identityCenter
      (fun spec value => { spec with identityCenter := value })
      IdentityCenterRef.codec.keeps_none,
    .defaulted none "identityStore" IdentityStoreRef.codec.option
      Spec.identityStore
      (fun spec value => { spec with identityStore := value })
      IdentityStoreRef.codec.keeps_none,
    .defaulted [] "groups" Group.codec.list Spec.groups
      (fun spec value => { spec with groups := value })
      Group.codec.keeps_nil,
    .defaulted [] "users" User.codec.list Spec.users
      (fun spec value => { spec with users := value })
      User.codec.keeps_nil,
    .defaulted [] "permissionSets" PermissionSet.codec.list
      Spec.permissionSets
      (fun spec value => { spec with permissionSets := value })
      PermissionSet.codec.keeps_nil,
    .defaulted [] "assignments" DirectAssignment.codec.list Spec.assignments
      (fun spec value => { spec with assignments := value })
      DirectAssignment.codec.keeps_nil,
    .defaulted .empty "tags" .tags Spec.tags
      (fun spec value => { spec with tags := value })
      (Codec.keeps_tags .empty),
    .defaulted none "externalIdentityProvider" Codec.any.option
      Spec.externalIdentityProvider
      (fun spec value => { spec with externalIdentityProvider := value })
      Codec.any.keeps_none]

/-- The table of topologies. -/
def table : Table Spec where
  initial := {}
  columns := columns
  starts := by
    simp [columns]
  distinct := by
    decide
  commute := by
    simp [columns, Column.Commute]
  rebuilt := by
    simp [columns, Column.putAll]

/--
The inline policies and the identity provider, as far as there are any, are in
canonical form and not null.
-/
structure Spelled (spec : Spec) : Prop where
  permissionSets :
    ∀ set ∈ spec.permissionSets, set.Spelled
  externalIdentityProvider :
    ∀ provider ∈ spec.externalIdentityProvider,
      provider.KeysIncrease ∧ provider ≠ .null

/-- Topologies. -/
def codec : Codec Spec where
  reader := reader
  write := toJson
  layout := layout
  Keeps := Spelled
  reads := by
    intro spec spelled shorter abridges
    apply table.reads _ abridges
    simpa [Table.Keeps, table, columns] using
      And.intro spelled.permissionSets spelled.externalIdentityProvider

@[simp] theorem keeps_codec (spec : Spec) :
    codec.Keeps spec ↔ spec.Spelled :=
  .rfl

theorem keeps_empty : codec.Keeps {} :=
  ⟨nofun, nofun⟩

end Spec

namespace Composite

/-- What the document of a composite may leave out. -/
def layout : Layout :=
  .record
    [("metadata", Metadata.layout, some (Metadata.toJson {})),
      ("spec", Spec.layout, some (Spec.toJson {})),
      ("observed", .fixed, some (.array [])),
      ("engineMinVersion", .fixed, some .null)]

/-- Columns of composites. -/
def columns : List (Column Composite) :=
  [.defaulted {} "metadata" Metadata.codec Composite.metadata
      (fun composite value => { composite with metadata := value })
      (Metadata.keeps_codec {}),
    .defaulted {} "spec" Spec.codec Composite.spec
      (fun composite value => { composite with spec := value })
      Spec.keeps_empty,
    .defaulted [] "observed" .values Composite.observed
      (fun composite value => { composite with observed := value })
      Codec.keeps_no_values,
    .defaulted none "engineMinVersion" .text? Composite.engineMinVersion
      (fun composite value => { composite with engineMinVersion := value })
      (Codec.keeps_text? none)]

/-- The table of composites. -/
def table : Table Composite where
  initial := {}
  columns := columns
  starts := by
    simp [columns]
  distinct := by
    decide
  commute := by
    simp [columns, Column.Commute]
  rebuilt := by
    simp [columns, Column.putAll]

/--
What a composite takes as it is is in canonical form, and no inline policy or
identity provider is null.
-/
structure Spelled (composite : Composite) : Prop where
  spec :
    composite.spec.Spelled
  observed :
    ∀ object ∈ composite.observed, object.KeysIncrease

/-- Composites. -/
def codec : Codec Composite where
  reader := reader
  write := toJson
  layout := layout
  Keeps := Spelled
  reads := by
    intro composite spelled shorter abridges
    apply table.reads _ abridges
    simpa [Table.Keeps, table, columns] using
      And.intro spelled.spec spelled.observed

end Composite

namespace Settings

/-- What the document of settings may leave out. -/
def layout : Layout :=
  .record
    [("baseTags", .fixed,
        some (.object [("managed-by", .string "idc-render")])),
      ("namingAnnotation", .fixed,
        some (.string "crossplane.io/composition-resource-name")),
      ("externalNameAnnotation", .fixed,
        some (.string "crossplane.io/external-name")),
      ("defaultSessionDuration", .fixed, some (.string "PT1H")),
      ("defaultManagementPolicies", .fixed,
        some (.array [.string "*"]))]

/-- Columns of settings. -/
def columns : List (Column Settings) :=
  [.defaulted (.ofList [("managed-by", "idc-render")]) "baseTags" .tags
      Settings.baseTags
      (fun settings value => { settings with baseTags := value })
      (Codec.keeps_tags _),
    .defaulted "crossplane.io/composition-resource-name" "namingAnnotation"
      .text Settings.namingMarker
      (fun settings value => { settings with namingMarker := value })
      (Codec.keeps_text _),
    .defaulted "crossplane.io/external-name" "externalNameAnnotation" .text
      Settings.externalNameMarker
      (fun settings value => { settings with externalNameMarker := value })
      (Codec.keeps_text _),
    .defaulted "PT1H" "defaultSessionDuration" .text Settings.sessionDuration
      (fun settings value => { settings with sessionDuration := value })
      (Codec.keeps_text _),
    .defaulted ["*"] "defaultManagementPolicies" .texts
      Settings.managementPolicies
      (fun settings value => { settings with managementPolicies := value })
      (Codec.keeps_texts _)]

/-- The table of settings. -/
def table : Table Settings where
  initial := {}
  columns := columns
  starts := by
    simp [columns]
  distinct := by
    decide
  commute := by
    simp [columns, Column.Commute]
  rebuilt := by
    simp [columns, Column.putAll]

/-- Settings. -/
def codec : Codec Settings where
  reader := reader
  write := toJson
  layout := layout
  Keeps _ := True
  reads := by
    intro settings _ shorter abridges
    apply table.reads _ abridges
    simp [Table.Keeps, table, columns]

end Settings

end AccessTopology
