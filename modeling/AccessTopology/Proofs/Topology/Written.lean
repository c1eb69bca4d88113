import AccessTopology.Proofs.Text.Blank
import AccessTopology.Proofs.Topology.Identities

namespace AccessTopology

/-!
# The written list of a topology

A topology's declarations written down from what the topology itself holds:
groups and users with their memberships where an identity store is given, then
permission sets with their policies, then every assignment.  The stages of a
pass go through this list.
-/

/-- A user, then a membership for each of the user's groups. -/
def User.written (user : User) : List Declaration :=
  .user user ::
    user.groups.map (fun group => .membership user.name group)

namespace PermissionSet

/--
The inline policy of a permission set, unless it is absent, null or a blank
text: a text stands as it is, a document in canonical form.
-/
def writtenInlinePolicy (set : PermissionSet) : List Declaration :=
  match set.inlinePolicy with
  | none => []
  | some .null => []
  | some (.string text) =>
      if Text.allBlank text then [] else [.inlinePolicy set text]
  | some document => [.inlinePolicy set document.canonicalText]

/-- A permission set, then its inline, managed and customer policies. -/
def written (set : PermissionSet) : List Declaration :=
  .permissionSet set :: set.writtenInlinePolicy ++
    set.managedPolicies.map (fun arn => .managedPolicy set arn) ++
      set.customerPolicies.map (fun policy => .customerPolicy set policy)

/-- What a permission set asks for on behalf of one principal. -/
def writtenFor
    (set : PermissionSet)
    (kind : PrincipalKind)
    (principal : String) :
    List Declaration :=
  set.accounts.map
    (fun account =>
      .assignment ⟨set.name, kind, principal, account, set.tags⟩)

/-- The assignments of a permission set, those of its groups first. -/
def writtenAssignments (set : PermissionSet) : List Declaration :=
  set.groups.flatMap (set.writtenFor .group) ++
    set.users.flatMap (set.writtenFor .user)

end PermissionSet

namespace Spec

/-- Whether a topology gives an identity store that is not blank. -/
def givesIdentityStore (spec : Spec) : Bool :=
  match spec.identityStore with
  | some ⟨some store⟩ => !Text.allBlank store
  | _ => false

/-- The tags of the first permission set of a name, or none. -/
def tagsOfPermissionSet (spec : Spec) (name : String) : TagMap :=
  match spec.permissionSets.filter (·.name = name) with
  | [] => .empty
  | set :: _ => set.tags

/-- An assignment that a topology declares on its own. -/
def writtenDirect
    (spec : Spec)
    (direct : DirectAssignment) :
    Declaration :=
  .assignment
    ⟨direct.permissionSet, direct.principalKind, direct.principal,
      direct.account, spec.tagsOfPermissionSet direct.permissionSet⟩

/-- Every declaration of a topology, written down in the order of the stages. -/
def written (spec : Spec) : List Declaration :=
  (if spec.givesIdentityStore then
      spec.groups.map (fun group => .group group) ++
        spec.users.flatMap User.written
    else []) ++
    spec.permissionSets.flatMap PermissionSet.written ++
      (spec.permissionSets.flatMap PermissionSet.writtenAssignments ++
        spec.assignments.map spec.writtenDirect)

end Spec

/-- What is written for an inline policy is what has a text. -/
theorem PermissionSet.writtenInlinePolicy_eq (set : PermissionSet) :
    set.writtenInlinePolicy =
      (set.inlinePolicyText?.map (Declaration.inlinePolicy set)).toList := by
  cases held : set.inlinePolicy with
  | none =>
      simp [writtenInlinePolicy, inlinePolicyText?, held]
  | some document =>
      cases document with
      | string text =>
          simp only [writtenInlinePolicy, inlinePolicyText?, held,
            Text.trim_eq_empty_iff]
          split <;> rfl
      | null | bool | number | array | object =>
          simp [writtenInlinePolicy, inlinePolicyText?, held]

theorem PermissionSet.written_eq (set : PermissionSet) :
    set.written = set.declarations := by
  rw [written, writtenInlinePolicy_eq, declarations]

theorem PermissionSet.writtenAssignments_eq (set : PermissionSet) :
    set.writtenAssignments = set.assignments.map .assignment := by
  rw [writtenAssignments, assignments, principals, List.flatMap_append,
    List.map_append, List.flatMap_map, List.flatMap_map, List.map_flatMap,
    List.map_flatMap]
  simp only [List.map_map]
  rfl

namespace Spec

variable {spec : Spec}

theorem givesIdentityStore_eq (spec : Spec) :
    spec.givesIdentityStore = spec.identityStoreId?.isSome := by
  rw [givesIdentityStore, identityStoreId?]
  cases spec.identityStore with
  | none =>
      rfl
  | some store =>
      obtain ⟨_ | id⟩ := store
      · rfl
      · simp only [Option.bind_some, Text.isSome_nonBlank?]

theorem writtenDirect_eq
    (spec : Spec)
    (direct : DirectAssignment) :
    spec.writtenDirect direct =
      .assignment (direct.toAssignment spec) := by
  have sameTags :
      spec.tagsOfPermissionSet direct.permissionSet =
        ((spec.permissionSet? direct.permissionSet).map
          PermissionSet.tags).getD .empty := by
    rw [tagsOfPermissionSet, permissionSet?, ← List.head?_filter]
    cases spec.permissionSets.filter (·.name = direct.permissionSet) <;> rfl
  rw [writtenDirect, sameTags, DirectAssignment.toAssignment]

/-- The stages of a pass go through the written list. -/
theorem written_eq_declarations (spec : Spec) :
    spec.written = spec.declarations := by
  have sets :
      spec.permissionSets.flatMap PermissionSet.written =
        spec.permissionSetDeclarations :=
    List.flatMap_congr fun set _ => set.written_eq
  have expanded :
      spec.permissionSets.flatMap PermissionSet.writtenAssignments =
        (spec.permissionSets.flatMap PermissionSet.assignments).map
          .assignment := by
    rw [List.map_flatMap]
    exact List.flatMap_congr fun set _ => set.writtenAssignments_eq
  have direct :
      spec.assignments.map spec.writtenDirect =
        (spec.assignments.map (DirectAssignment.toAssignment spec)).map
          .assignment := by
    rw [List.map_map]
    exact List.map_congr_left fun direct _ => spec.writtenDirect_eq direct
  rw [written, declarations, givesIdentityStore_eq, sets, expanded, direct,
    ← List.map_append]
  rfl

end Spec

end AccessTopology
