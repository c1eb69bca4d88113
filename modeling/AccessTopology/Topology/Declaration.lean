import AccessTopology.Draft.Basic
import AccessTopology.Json.Text
import AccessTopology.Topology.Assignment
import AccessTopology.Topology.Resolution

namespace AccessTopology

/-!
# Declarations

One declaration per resource that a topology asks for. A declaration knows its
kind, its key, its own tags, what it is called in messages, and the draft it
becomes in a scope.
-/

/-- A resource that a topology asks for. -/
inductive Declaration
  | group (declared : Group)
  | user (declared : User)
  | membership (member container : String)
  | permissionSet (set : PermissionSet)
  | inlinePolicy (set : PermissionSet) (document : String)
  | managedPolicy (set : PermissionSet) (arn : String)
  | customerPolicy (set : PermissionSet) (policy : CustomerPolicy)
  | assignment (binding : Assignment)

/--
The name a user is shown under: the display name, else the given and family
names there are, else the user's name.
-/
def User.shownName (user : User) : String :=
  match user.displayName, user.givenName, user.familyName with
  | some display, _, _ => display
  | none, some given, some family => given ++ " " ++ family
  | none, some given, none => given
  | none, none, some family => family
  | none, none, none => user.name

/-- The given and family names there are, by field. -/
def User.nameParts (user : User) : KeyMap Json :=
  .ofList
    ((user.givenName.map (fun given => ("givenName", .string given))).toList ++
      (user.familyName.map
        (fun family => ("familyName", .string family))).toList)

/--
The text of a permission set's inline policy: a text as it is unless it is
blank, a document in canonical form.
-/
def PermissionSet.inlinePolicyText? (set : PermissionSet) : Option String :=
  match set.inlinePolicy with
  | none => none
  | some .null => none
  | some (.string text) =>
      if Text.trim text = "" then none else some text
  | some document => some document.canonicalText

namespace Declaration

/-- The kind of resource that a declaration asks for. -/
def kind : Declaration → ResourceKind
  | group _ => .group
  | user _ => .user
  | membership _ _ => .groupMembership
  | permissionSet _ => .permissionSet
  | inlinePolicy _ _ => .inlinePolicy
  | managedPolicy _ _ => .managedPolicyAttachment
  | customerPolicy _ _ => .customerPolicyAttachment
  | assignment _ => .accountAssignment

/-- The key of the resource that a declaration asks for. -/
def key : Declaration → LogicalKey
  | group declared => .group declared.name
  | user declared => .user declared.name
  | membership member container => .membership member container
  | permissionSet set => .permissionSet set.name
  | inlinePolicy set _ => .inlinePolicy set.name
  | managedPolicy set arn => .managedPolicy set.name arn
  | customerPolicy set policy =>
      .customerPolicy set.name policy.path policy.name
  | assignment binding => binding.key

/-- What a declaration is called in messages. -/
def describe : Declaration → String
  | group declared => "group '" ++ declared.name ++ "'"
  | user declared => "user '" ++ declared.name ++ "'"
  | membership member container =>
      "membership of user '" ++ member ++ "' in group '" ++ container ++ "'"
  | permissionSet set => "permission set '" ++ set.name ++ "'"
  | inlinePolicy set _ =>
      "inline policy of permission set '" ++ set.name ++ "'"
  | managedPolicy set arn =>
      "managed policy '" ++ arn ++ "' on permission set '" ++ set.name ++ "'"
  | customerPolicy set policy =>
      "customer policy '" ++ policy.path ++ policy.name ++
        "' on permission set '" ++ set.name ++ "'"
  | assignment binding => binding.describe

/-- The tags that a declaration gives its resource. -/
def ownTags : Declaration → TagMap
  | group declared => declared.tags
  | user declared => declared.tags
  | membership _ _ => .empty
  | permissionSet set => set.tags
  | inlinePolicy set _ => set.tags
  | managedPolicy set _ => set.tags
  | customerPolicy set _ => set.tags
  | assignment binding => binding.tags

/-- The fields of a declaration's draft, where its service keeps it apart. -/
def fields
    (scope : Scope) :
    Declaration → List (String × Json)
  | group declared =>
      ("displayName", .string (declared.displayName.getD declared.name)) ::
        (declared.description.map
          (fun text => ("description", .string text))).toList
  | user declared =>
      [("userName", .string declared.name),
        ("displayName", .string declared.shownName)] ++
        (if declared.nameParts.entries.isEmpty then []
          else [("name", .ofMap declared.nameParts)]) ++
        (declared.email.map
          (fun email =>
            ("emails",
              .array
                [.object
                  [("primary", .bool true), ("value", .string email)]]))).toList
  | membership _ _ => []
  | permissionSet set =>
      [("name", .string set.name),
        ("sessionDuration",
          .string (set.sessionDuration.getD scope.sessionDuration))] ++
        (set.description.map
          (fun text => ("description", .string text))).toList ++
        (set.relayState.map (fun text => ("relayState", .string text))).toList
  | inlinePolicy _ document => [("inlinePolicy", .string document)]
  | managedPolicy _ arn => [("managedPolicyArn", .string arn)]
  | customerPolicy _ policy =>
      [("customerManagedPolicyReference", policy.toJson)]
  | assignment binding =>
      [("principalType", .string binding.principalKind.name),
        ("targetId", .string binding.account),
        ("targetType", .string "AWS_ACCOUNT")]

/-- The reference of an attachment to its permission set. -/
def attachmentReferences
    (set : PermissionSet) :
    List (String × Reference) :=
  [("permissionSetArn", .draft (.permissionSet set.name) "arn")]

/-- The references of a declaration's draft. -/
def references
    (scope : Scope) :
    Declaration → Except RenderError (List (String × Reference))
  | group _ => .ok []
  | user _ => .ok []
  | membership member container => do
      let containerReference ← scope.resolvePrincipal .group container
      return [("groupId", containerReference),
        ("memberId", .draft (.user member) "userId")]
  | permissionSet _ => .ok []
  | inlinePolicy set _ => .ok (attachmentReferences set)
  | managedPolicy set _ => .ok (attachmentReferences set)
  | customerPolicy set _ => .ok (attachmentReferences set)
  | assignment binding => do
      let principal ←
        scope.resolvePrincipal binding.principalKind binding.principal
      let set ← scope.resolvePermissionSet binding.permissionSet
      return [("principalId", principal), ("permissionSetArn", set)]

/--
The draft of a declaration whose service keeps it in `home`, given its
references.
-/
def draftWith
    (scope : Scope)
    (observations : Observations)
    (home : String)
    (declaration : Declaration)
    (references : List (String × Reference)) :
    Draft :=
  let kind := declaration.kind
  { Draft.start scope observations kind declaration.key
      (scope.tagsFor declaration.ownTags) with
    forProvider :=
      .ofList
        ((kind.service.homeField, .string home) :: declaration.fields scope)
    references := .ofList references }

/-- The draft of a declaration, or why one of its references does not resolve. -/
def draft
    (scope : Scope)
    (observations : Observations)
    (home : String)
    (declaration : Declaration) :
    Except RenderError Draft :=
  (declaration.references scope).map
    (declaration.draftWith scope observations home)

end Declaration

end AccessTopology
