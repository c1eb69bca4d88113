import AccessTopology.Draft.Ledger
import AccessTopology.Topology.Declaration

namespace AccessTopology

/-!
# Stages

A pass runs stages one after the other against one ledger. What a stage does
depends on the scope and the observations only: it is a list of steps, and the
ledger takes them.
-/

/-- The stages of a pass. -/
inductive Stage
  | principals
  | permissionSets
  | assignments
  | federation
  deriving Repr, DecidableEq

/-- The step that drafts a declaration. -/
def Declaration.step
    (scope : Scope)
    (observations : Observations)
    (home : String)
    (declaration : Declaration) :
    Step :=
  match declaration.draft scope observations home with
  | .ok draft => .draft draft declaration.describe
  | .error error => .fault error

/-- A user, then the user's memberships. -/
def User.declarations (user : User) : List Declaration :=
  .user user :: user.groups.map (Declaration.membership user.name)

/-- A permission set, then its policies. -/
def PermissionSet.declarations (set : PermissionSet) : List Declaration :=
  .permissionSet set ::
    (set.inlinePolicyText?.map (Declaration.inlinePolicy set)).toList ++
      set.managedPolicies.map (Declaration.managedPolicy set) ++
      set.customerPolicies.map (Declaration.customerPolicy set)

namespace Spec

/-- The declarations of principals: groups, then users with their memberships. -/
def principalDeclarations (spec : Spec) : List Declaration :=
  spec.groups.map .group ++ spec.users.flatMap User.declarations

/-- The declarations of permission sets and their policies. -/
def permissionSetDeclarations (spec : Spec) : List Declaration :=
  spec.permissionSets.flatMap PermissionSet.declarations

end Spec

namespace Stage

/-- The stages of a pass, in their usual order. -/
def all : List Stage :=
  [principals, permissionSets, assignments, federation]

/-- The name of a stage. -/
def name : Stage → String
  | principals => "principals"
  | permissionSets => "permission_sets"
  | assignments => "assignments"
  | federation => "federation"

/-- The stage of a name. -/
def ofName? (name : String) : Option Stage :=
  all.find? (fun stage => stage.name = name)

/-- Steps for principals; there are none unless the scope has an identity store. -/
def principalSteps
    (scope : Scope)
    (observations : Observations) :
    List Step :=
  match scope.identityStoreId with
  | none => []
  | some store =>
      scope.spec.principalDeclarations.map
        (Declaration.step scope observations store)

/-- Steps for permission sets, which need an instance. -/
def permissionSetSteps
    (scope : Scope)
    (observations : Observations) :
    List Step :=
  if scope.spec.permissionSets.isEmpty then []
  else
    match scope.instanceArn with
    | none => [.fault (.configuration (.missingInstanceArn "permission sets"))]
    | some instanceArn =>
        scope.spec.permissionSetDeclarations.map
          (Declaration.step scope observations instanceArn)

/--
Steps for assignments after those in `met`. One that binds the same as an
earlier one is left out, one that only shares its key with an earlier one
fails.
-/
def assignmentStepsAfter
    (scope : Scope)
    (observations : Observations)
    (instanceArn : String) :
    (met : List Assignment) →
    List Assignment →
    List Step
  | _, [] => []
  | met, assignment :: rest =>
      match met.find? (fun earlier => earlier.key = assignment.key) with
      | some earlier =>
          if earlier.sameBinding assignment then
            assignmentStepsAfter scope observations instanceArn met rest
          else
            [.fault
              (.configuration
                (.keyConflict earlier.describe assignment.describe
                  assignment.key))]
      | none =>
          Declaration.step scope observations instanceArn
              (.assignment assignment) ::
            assignmentStepsAfter scope observations instanceArn
              (met ++ [assignment]) rest

/-- Steps for assignments, which need an instance. -/
def assignmentSteps
    (scope : Scope)
    (observations : Observations) :
    List Step :=
  let assignments := scope.spec.expandAssignments
  if assignments.isEmpty then []
  else
    match scope.instanceArn with
    | none =>
        [.fault (.configuration (.missingInstanceArn "account assignments"))]
    | some instanceArn =>
        assignmentStepsAfter scope observations instanceArn [] assignments

/-- What a stage does. Federation with an external provider drafts nothing. -/
def steps
    (stage : Stage)
    (scope : Scope)
    (observations : Observations) :
    List Step :=
  match stage with
  | principals => principalSteps scope observations
  | permissionSets => permissionSetSteps scope observations
  | assignments => assignmentSteps scope observations
  | federation => []

end Stage

/-- Run stages one after the other, up to the first that fails. -/
def Ledger.runStages
    (scope : Scope)
    (observations : Observations) :
    Ledger → List Stage → Ledger × Option RenderError
  | ledger, [] => (ledger, none)
  | ledger, stage :: stages =>
      match ledger.run (stage.steps scope observations) with
      | (ledger, none) => runStages scope observations ledger stages
      | (ledger, some error) => (ledger, some error)

end AccessTopology
