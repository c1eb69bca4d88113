import AccessTopology.Scope
import AccessTopology.Identity.LogicalKey
import AccessTopology.Validation.Report

namespace AccessTopology

/-!
# Validation rules

Each rule looks at the topology alone. Together they make sure that names give
distinct keys, accounts are well formed and what is needed is there.
-/

/-- The rules. -/
inductive Rule
  | names
  | uniqueNames
  | accountId
  | instanceArn
  | externalIdentityProvider
  deriving Repr, DecidableEq

/-- Whether a text is an account id: twelve ASCII digits. -/
def isAccountId (text : String) : Bool :=
  text.toList.length = 12 && text.toList.all Char.isDigit

/-- The values that some earlier value in the list has the same key as. -/
def repeats
    (key : α → LogicalKey) :
    (met : List LogicalKey) →
    List α →
    List α
  | _, [] => []
  | met, value :: rest =>
      if key value ∈ met then value :: repeats key met rest
      else repeats key (met ++ [key value]) rest

namespace Spec

/-- Declared names with what they name, in the order of declaration. -/
def declaredNames (spec : Spec) : List (String × String) :=
  spec.groups.map (fun group => ("group", group.name)) ++
    spec.users.map (fun user => ("user", user.name)) ++
    spec.permissionSets.map (fun set => ("permission set", set.name))

/-- Keys of declared names with the names, in the order of declaration. -/
def declaredKeys (spec : Spec) : List (LogicalKey × String) :=
  spec.groups.map (fun group => (.group group.name, group.name)) ++
    spec.users.map (fun user => (.user user.name, user.name)) ++
    spec.permissionSets.map (fun set => (.permissionSet set.name, set.name))

/-- The accounts that assignments name, in the order of declaration. -/
def accounts (spec : Spec) : List String :=
  spec.permissionSets.flatMap PermissionSet.accounts ++
    spec.assignments.map DirectAssignment.account

end Spec

namespace Rule

/-- Every rule, in the order in which they are applied. -/
def all : List Rule :=
  [names, uniqueNames, accountId, instanceArn, externalIdentityProvider]

/-- The name of a rule. -/
def name : Rule → String
  | names => "names"
  | uniqueNames => "unique_names"
  | accountId => "account_id"
  | instanceArn => "instance_arn"
  | externalIdentityProvider => "external_identity_provider"

/-- The rule of a name. -/
def ofName? (name : String) : Option Rule :=
  all.find? (fun rule => rule.name = name)

/-- An error about a subject, and what to do about it. -/
def error
    (rule : Rule)
    (subject message remedy : String) :
    Violation :=
  { rule := rule.name
    severity := .error
    message := message
    subject := some subject
    remediation := [remedy] }

/-- Names without a slug, which would share the bare prefix as their key. -/
def nameViolations (spec : Spec) : List Violation :=
  (spec.declaredNames.filter
      (fun (_, name) => Text.slugify name = "")).map
    (fun (what, subject) =>
      error names subject
        (what ++ " name '" ++ subject ++ "' has no letters or digits")
        "Use a name containing at least one ASCII letter or digit")

/-- Names whose key an earlier name has. -/
def uniqueNameViolations (spec : Spec) : List Violation :=
  (repeats Prod.fst [] spec.declaredKeys).map
    (fun (key, subject) =>
      error uniqueNames subject
        ("'" ++ subject ++ "' collides with another declaration on key " ++
          key.text)
        "Rename one of the declarations")

/-- Accounts that are no account ids. -/
def accountViolations (spec : Spec) : List Violation :=
  (spec.accounts.filter (fun account => !isAccountId account)).map
    (fun account =>
      error accountId account
        ("'" ++ account ++ "' is not a 12-digit AWS account id")
        "Quote account ids so leading zeros survive")

/-- A missing instance where permission sets or assignments need one. -/
def instanceViolations (spec : Spec) : List Violation :=
  let needed :=
    !spec.permissionSets.isEmpty || !spec.assignments.isEmpty
  if needed && spec.instanceArn?.isNone then
    [error instanceArn "identityCenter.instanceArn"
      "permission sets and assignments need an Identity Center instance"
      "Set identityCenter.instanceArn"]
  else
    []

/-- A warning that federation is not rendered. -/
def federationViolations (spec : Spec) : List Violation :=
  if spec.externalIdentityProvider.isSome then
    [{ rule := externalIdentityProvider.name
       severity := .warning
       message := "externalIdentityProvider is accepted but not rendered"
       subject := some "externalIdentityProvider"
       remediation := [] }]
  else
    []

/-- What a rule says about a topology. -/
def violations : Rule → Spec → List Violation
  | names => nameViolations
  | uniqueNames => uniqueNameViolations
  | accountId => accountViolations
  | instanceArn => instanceViolations
  | externalIdentityProvider => federationViolations

end Rule

/-- The report of all rules on a topology. -/
def Spec.report (spec : Spec) : Report :=
  .ofViolations (Rule.all.flatMap (fun rule => rule.violations spec))

end AccessTopology
