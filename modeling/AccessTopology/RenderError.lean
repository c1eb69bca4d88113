import AccessTopology.Identity.LogicalKey

namespace AccessTopology

/-!
# Why a pass fails

Each way in which a topology cannot be rendered, and the one place where it is
put into words.
-/

/-- What is wrong with a topology itself. -/
inductive TopologyFault
  | rejected (violations : List (String × String))
  | keyConflict (earlier later : String) (key : LogicalKey)
  | unmanagedPrincipal (kind : PrincipalKind) (name : String)
  | unknownPrincipal (kind : PrincipalKind) (name : String)
  | unknownPermissionSet (name : String)
  | missingInstanceArn (what : String)
  deriving Repr, DecidableEq

/-- Why a pass fails. -/
inductive RenderError
  | configuration (fault : TopologyFault)
  | danglingReference (source target : LogicalKey)
  | engineTooOld (required current : String)
  | invalidVersion (text : String)
  deriving Repr, DecidableEq

/-- A fault in words. -/
def TopologyFault.message : TopologyFault → String
  | rejected violations =>
      "; ".intercalate
        (violations.map (fun violation => violation.1 ++ ": " ++ violation.2))
  | keyConflict earlier later key =>
      earlier ++ " and " ++ later ++ " both map to resource key '" ++
        key.text ++ "'"
  | unmanagedPrincipal kind name =>
      kind.name ++ " principal '" ++ name ++
        "' is declared but no identity store is configured"
  | unknownPrincipal kind name =>
      kind.name ++ " principal '" ++ name ++
        "' is not declared and is not a literal principal id"
  | unknownPermissionSet name =>
      "permission set '" ++ name ++
        "' is not declared and is not a permission set ARN"
  | missingInstanceArn what =>
      what ++ " require identityCenter.instanceArn"

/-- An error in words. -/
def RenderError.message : RenderError → String
  | configuration fault => "Configuration error: " ++ fault.message
  | danglingReference source target =>
      "Unresolved reference: " ++ source.text ++ " points at " ++ target.text ++
        ", which was not drafted"
  | engineTooOld required current =>
      "Composite requires engine >= " ++ required ++ ", current is " ++ current
  | invalidVersion text => "Invalid version '" ++ text ++ "'"

end AccessTopology
