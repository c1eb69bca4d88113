import AccessTopology.Identity.Kind
import AccessTopology.Text.Blank
import AccessTopology.Text.Search
import AccessTopology.Text.Slug

namespace AccessTopology

/-!
# Logical keys

A resource is known by its kind and the names its declaration chose: the kind's
prefix, then the slug of each name, joined by hyphens. The same key finds the
resource's observed counterpart in the next pass.
-/

/-- The identity of a resource across passes. -/
structure LogicalKey where
  text : String
  deriving Repr, DecidableEq

namespace LogicalKey

theorem text_inj
    {left right : LogicalKey} :
    left.text = right.text ↔ left = right := by
  cases left
  cases right
  simp

/-- What one name adds to a key: nothing when its slug is empty. -/
def segment (name : String) : String :=
  let slug := Text.slugify name
  if slug = "" then "" else "-" ++ slug

/-- What a list of names adds to a key. -/
def segments : List String → String
  | [] => ""
  | name :: rest => segment name ++ segments rest

/-- The key of a kind and the names that identify one of its resources. -/
def compose
    (kind : ResourceKind)
    (names : List String) :
    LogicalKey :=
  ⟨kind.keyPrefix ++ segments names⟩

/-- Key of a group. -/
def group (name : String) : LogicalKey :=
  compose .group [name]

/-- Key of a user. -/
def user (name : String) : LogicalKey :=
  compose .user [name]

/-- Key of a principal of either kind. -/
def principal : PrincipalKind → String → LogicalKey
  | .group, name => group name
  | .user, name => user name

/-- Key of a user's membership in a group. -/
def membership (user group : String) : LogicalKey :=
  compose .groupMembership [user, group]

/-- Key of a permission set. -/
def permissionSet (name : String) : LogicalKey :=
  compose .permissionSet [name]

/-- Key of a permission set's inline policy. -/
def inlinePolicy (permissionSet : String) : LogicalKey :=
  compose .inlinePolicy [permissionSet]

/-- The part of a policy ARN after `:policy/`, or all of a text without it. -/
def policyPath (arn : String) : String :=
  match Text.splitFirst? ":policy/".toList arn.toList with
  | some (_, path) => String.ofList path
  | none => arn

/-- Key of a managed policy on a permission set. -/
def managedPolicy (permissionSet arn : String) : LogicalKey :=
  compose .managedPolicyAttachment [permissionSet, policyPath arn]

/-- Key of a customer policy on a permission set. -/
def customerPolicy (permissionSet path name : String) : LogicalKey :=
  compose .customerPolicyAttachment [permissionSet, path, name]

/-- Key of a principal's assignment to an account. -/
def assignment
    (permissionSet : String)
    (kind : PrincipalKind)
    (principal account : String) :
    LogicalKey :=
  compose .accountAssignment
    [permissionSet, kind.keyPart, principal, account]

/-- A key read back from an observed object: its trimmed text, unless blank. -/
def ofObserved? (text : String) : Option LogicalKey :=
  (Text.nonBlank? text).map LogicalKey.mk

end LogicalKey

end AccessTopology
