import AccessTopology.Proofs.Topology.Identities

namespace AccessTopology

/-!
# The outline of a topology

An outline has the names of a topology and who holds what where, and leaves out
every attribute: texts shown to people, tags, durations, the contents of
policies and the identifiers of instance and identity store.  It decides which
identities a topology has, and in which order.
-/

/-- The name of a user and the groups that the user belongs to. -/
structure User.Outline where
  name : String
  groups : List String
  deriving DecidableEq

/--
The name of a permission set, its policies by name, and who holds it on which
accounts.
-/
structure PermissionSet.Outline where
  name : String
  draftsInlinePolicy : Bool
  managedPolicies : List String
  customerPolicies : List CustomerPolicy
  accounts : List String
  groups : List String
  users : List String
  deriving DecidableEq

/-- The names of a topology and who holds what where. -/
structure Spec.Outline where
  groups : List String
  users : List User.Outline
  permissionSets : List PermissionSet.Outline
  assignments : List DirectAssignment
  hasIdentityStore : Bool
  hasInstance : Bool
  deriving DecidableEq

def User.outline (user : User) : User.Outline :=
  { name := user.name
    groups := user.groups }

/-- An inline policy is drafted unless it is absent, null or a blank text. -/
def PermissionSet.draftsInlinePolicy (set : PermissionSet) : Bool :=
  match set.inlinePolicy with
  | none => false
  | some .null => false
  | some (.string text) => Text.trim text ≠ ""
  | some _ => true

def PermissionSet.outline (set : PermissionSet) : PermissionSet.Outline :=
  { name := set.name
    draftsInlinePolicy := set.draftsInlinePolicy
    managedPolicies := set.managedPolicies
    customerPolicies := set.customerPolicies
    accounts := set.accounts
    groups := set.groups
    users := set.users }

def Spec.outline (spec : Spec) : Spec.Outline :=
  { groups := spec.groups.map Group.name
    users := spec.users.map User.outline
    permissionSets := spec.permissionSets.map PermissionSet.outline
    assignments := spec.assignments
    hasIdentityStore := spec.identityStoreId?.isSome
    hasInstance := spec.instanceArn?.isSome }

namespace User

/-- The identities of a user and of the user's memberships. -/
def Outline.identities (outline : Outline) : List ResourceIdentity :=
  .user outline.name ::
    outline.groups.map (ResourceIdentity.membership outline.name)

theorem identities_outline (user : User) :
    user.declarations.map Declaration.identity =
      user.outline.identities := by
  rw [declarations, List.map_cons, List.map_map]
  rfl

end User

namespace PermissionSet

/-- The identities of a permission set and of its policies. -/
def Outline.identities (outline : Outline) : List ResourceIdentity :=
  .permissionSet outline.name ::
    (if outline.draftsInlinePolicy then [.inlinePolicy outline.name]
      else []) ++
      outline.managedPolicies.map
        (ResourceIdentity.managedPolicy outline.name) ++
      outline.customerPolicies.map
        (fun policy =>
          .customerPolicy outline.name policy.path policy.name)

/-- The identities of a permission set's assignments. -/
def Outline.bindings (outline : Outline) : List ResourceIdentity :=
  (outline.groups.map (PrincipalKind.group, ·) ++
      outline.users.map (PrincipalKind.user, ·)).flatMap
    (fun (kind, principal) =>
      outline.accounts.map
        (ResourceIdentity.assignment outline.name kind principal))

/-- An inline policy is drafted exactly when it has a text. -/
theorem draftsInlinePolicy_eq (set : PermissionSet) :
    set.draftsInlinePolicy = set.inlinePolicyText?.isSome := by
  cases held : set.inlinePolicy with
  | none =>
      simp [draftsInlinePolicy, inlinePolicyText?, held]
  | some document =>
      cases document with
      | string text =>
          by_cases blank : Text.trim text = ""
          · simp [draftsInlinePolicy, inlinePolicyText?, held, blank]
          · simp [draftsInlinePolicy, inlinePolicyText?, held, blank]
      | null | bool | number | array | object =>
          simp [draftsInlinePolicy, inlinePolicyText?, held]

theorem identities_outline (set : PermissionSet) :
    set.declarations.map Declaration.identity =
      set.outline.identities := by
  have inlinePolicies :
      (set.inlinePolicyText?.map
          (Declaration.inlinePolicy set)).toList.map Declaration.identity =
        if set.draftsInlinePolicy then [.inlinePolicy set.name] else [] := by
    rw [draftsInlinePolicy_eq]
    cases set.inlinePolicyText? <;> rfl
  simp only [declarations, List.map_append, List.map_cons, List.map_map,
    inlinePolicies]
  rfl

theorem bindings_outline (set : PermissionSet) :
    (set.assignments.map Declaration.assignment).map Declaration.identity =
      set.outline.bindings := by
  simp only [assignments, List.map_flatMap, List.map_map]
  rfl

end PermissionSet

/-- The identity of an assignment declared on its own. -/
def DirectAssignment.identity
    (direct : DirectAssignment) :
    ResourceIdentity :=
  .assignment direct.permissionSet direct.principalKind direct.principal
    direct.account

namespace Spec

/-- The identities of every assignment that a topology asks for. -/
def Outline.bindings (outline : Outline) : List ResourceIdentity :=
  outline.permissionSets.flatMap PermissionSet.Outline.bindings ++
    outline.assignments.map DirectAssignment.identity

/-- The identities of all declarations of a topology. -/
def Outline.identities (outline : Outline) : List ResourceIdentity :=
  (if outline.hasIdentityStore then
    outline.groups.map .group ++
      outline.users.flatMap User.Outline.identities
  else
    []) ++
    outline.permissionSets.flatMap PermissionSet.Outline.identities ++
    outline.bindings

theorem bindings_outline (spec : Spec) :
    (spec.expandAssignments.map Declaration.assignment).map
        Declaration.identity =
      spec.outline.bindings := by
  have expanded :
      ((spec.permissionSets.flatMap PermissionSet.assignments).map
          Declaration.assignment).map Declaration.identity =
        spec.outline.permissionSets.flatMap
          PermissionSet.Outline.bindings := by
    simp only [List.map_flatMap, PermissionSet.bindings_outline, outline,
      List.flatMap_map]
  rw [expandAssignments, List.map_append, List.map_append, expanded,
    List.map_map, List.map_map]
  rfl

/-- The identities of a topology depend on its outline only. -/
theorem identities_outline (spec : Spec) :
    spec.identities = spec.outline.identities := by
  have principals :
      spec.principalDeclarations.map Declaration.identity =
        spec.outline.groups.map .group ++
          spec.outline.users.flatMap User.Outline.identities := by
    simp only [principalDeclarations, List.map_append, List.map_map,
      List.map_flatMap, User.identities_outline, outline, List.flatMap_map]
    rfl
  have permissionSets :
      spec.permissionSetDeclarations.map Declaration.identity =
        spec.outline.permissionSets.flatMap
          PermissionSet.Outline.identities := by
    simp only [permissionSetDeclarations, List.map_flatMap,
      PermissionSet.identities_outline, outline, List.flatMap_map]
  rw [identities, declarations, List.map_append, List.map_append,
    permissionSets, bindings_outline, Outline.identities]
  congr 2
  by_cases managed : spec.identityStoreId?.isSome = true
  · simp only [outline, managed, ↓reduceIte]
    exact principals
  · simp only [outline, managed, Bool.false_eq_true, ↓reduceIte,
      List.map_nil]

theorem keys_groups (spec : Spec) :
    spec.groups.map (fun group => LogicalKey.group group.name) =
      spec.outline.groups.map LogicalKey.group := by
  rw [outline, List.map_map]
  rfl

theorem keys_users (spec : Spec) :
    spec.users.map (fun user => LogicalKey.user user.name) =
      spec.outline.users.map
        (fun outline => LogicalKey.user outline.name) := by
  rw [outline, List.map_map]
  rfl

theorem keys_permissionSets (spec : Spec) :
    spec.permissionSets.map (fun set => LogicalKey.permissionSet set.name) =
      spec.outline.permissionSets.map
        (fun outline => LogicalKey.permissionSet outline.name) := by
  rw [outline, List.map_map]
  rfl

/-- The keys of all assignments depend on the outline only. -/
theorem keys_expandAssignments (spec : Spec) :
    spec.expandAssignments.map Assignment.key =
      spec.outline.bindings.map ResourceIdentity.key := by
  rw [← bindings_outline, List.map_map, List.map_map]
  refine List.map_congr_left ?_
  intro binding _
  exact (Declaration.assignment binding).key_identity.symm

theorem accounts_outline (spec : Spec) :
    spec.accounts =
      spec.outline.permissionSets.flatMap PermissionSet.Outline.accounts ++
        spec.outline.assignments.map DirectAssignment.account := by
  rw [accounts, outline, List.flatMap_map]
  rfl

/-- Topologies with one outline have the same names. -/
theorem sameNames_of_outline_eq
    {left right : Spec}
    (same : left.outline = right.outline) :
    left.SameNames right where
  groups := by
    have groups := congrArg Outline.groups same
    exact .of_eq groups
  users := by
    have users :=
      congrArg (fun outline => outline.users.map User.Outline.name) same
    simp only [outline, List.map_map] at users
    exact .of_eq users
  permissionSets := by
    have permissionSets :=
      congrArg
        (fun outline =>
          outline.permissionSets.map PermissionSet.Outline.name)
        same
    simp only [outline, List.map_map] at permissionSets
    exact .of_eq permissionSets
  assignments := .of_eq (congrArg Outline.assignments same)
  accounts := by
    intro account
    rw [accounts_outline, accounts_outline, same]
  managed := congrArg Outline.hasIdentityStore same
  placed := congrArg Outline.hasInstance same

end Spec

end AccessTopology
