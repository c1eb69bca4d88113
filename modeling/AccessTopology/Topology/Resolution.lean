import AccessTopology.Draft.Reference
import AccessTopology.Identity.Literal
import AccessTopology.RenderError
import AccessTopology.Scope

namespace AccessTopology.Scope

/-!
# Resolving names

A name that a declaration uses becomes a reference: to the draft of this pass
that declares it, or to the identifier that the name itself is.
-/

/-- The reference that a principal's name stands for. -/
def resolvePrincipal
    (scope : Scope)
    (kind : PrincipalKind)
    (name : String) :
    Except RenderError Reference :=
  let declared := scope.declaresPrincipal kind name
  if declared && scope.managesPrincipals then
    .ok (.draft (.principal kind name) kind.identifierField)
  else if isPrincipalId name then
    .ok (.external name)
  else if declared then
    .error (.configuration (.unmanagedPrincipal kind name))
  else
    .error (.configuration (.unknownPrincipal kind name))

/-- The reference that a permission set's name stands for. -/
def resolvePermissionSet
    (scope : Scope)
    (name : String) :
    Except RenderError Reference :=
  if scope.declaresPermissionSet name then
    .ok (.draft (.permissionSet name) "arn")
  else if isPermissionSetArn name then
    .ok (.external name)
  else
    .error (.configuration (.unknownPermissionSet name))

end AccessTopology.Scope
