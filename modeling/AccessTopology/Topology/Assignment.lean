import AccessTopology.Identity.LogicalKey
import AccessTopology.Spec.Basic

namespace AccessTopology

/-!
# Assignments

A permission set is held by each of its groups and users on each of its
accounts; assignments declared on their own come after these. Repeated
assignments are listed as often as they are asked for.
-/

/-- A principal holds a permission set on an account. -/
structure Assignment where
  permissionSet : String
  principalKind : PrincipalKind
  principal : String
  account : String
  tags : TagMap
  deriving DecidableEq

namespace Assignment

/-- Whether two assignments bind the same, whatever their tags. -/
def sameBinding (left right : Assignment) : Bool :=
  left.permissionSet == right.permissionSet &&
    left.principalKind == right.principalKind &&
    left.principal == right.principal &&
    left.account == right.account

/-- An assignment in words. -/
def describe (assignment : Assignment) : String :=
  assignment.principalKind.name ++ " '" ++ assignment.principal ++
    "' assigned '" ++ assignment.permissionSet ++ "' on " ++ assignment.account

/-- The key of an assignment. -/
def key (assignment : Assignment) : LogicalKey :=
  .assignment assignment.permissionSet assignment.principalKind
    assignment.principal assignment.account

end Assignment

/-- The principals of a permission set, groups first. -/
def PermissionSet.principals
    (set : PermissionSet) :
    List (PrincipalKind × String) :=
  set.groups.map (fun name => (.group, name)) ++
    set.users.map (fun name => (.user, name))

/-- The assignments of a permission set: its principals on its accounts. -/
def PermissionSet.assignments (set : PermissionSet) : List Assignment :=
  set.principals.flatMap
    (fun (kind, principal) =>
      set.accounts.map
        (fun account =>
          { permissionSet := set.name
            principalKind := kind
            principal := principal
            account := account
            tags := set.tags }))

/-- The first declared permission set of a name. -/
def Spec.permissionSet?
    (spec : Spec)
    (name : String) :
    Option PermissionSet :=
  spec.permissionSets.find? (·.name = name)

/--
A direct assignment as an assignment, with the tags of the permission set it
names, if that is declared.
-/
def DirectAssignment.toAssignment
    (spec : Spec)
    (direct : DirectAssignment) :
    Assignment :=
  { permissionSet := direct.permissionSet
    principalKind := direct.principalKind
    principal := direct.principal
    account := direct.account
    tags :=
      ((spec.permissionSet? direct.permissionSet).map PermissionSet.tags).getD
        .empty }

/-- Every assignment a topology asks for, those of permission sets first. -/
def Spec.expandAssignments (spec : Spec) : List Assignment :=
  spec.permissionSets.flatMap PermissionSet.assignments ++
    spec.assignments.map (DirectAssignment.toAssignment spec)

end AccessTopology
