import AccessTopology.Text.Search
import AccessTopology.Text.Uuid

namespace AccessTopology

/-!
# Literal identifiers

Identifiers of the provider that a declaration may give in place of a declared
name: principal ids and permission-set ARNs.
-/

/-- Whether a text is ten hexadecimal digits. -/
def isStorePrefix (text : List Char) : Bool :=
  Text.dropHexDigits? 10 text == some []

/--
Whether a text is an identity-store principal id: a UUID, which ten hexadecimal
digits and a hyphen may precede.
-/
def isPrincipalId (text : String) : Bool :=
  match Text.splitFirst? ['-'] text.toList with
  | some (head, rest) =>
      if isStorePrefix head then Text.isUuid rest
      else Text.isUuid text.toList
  | none => Text.isUuid text.toList

/-- Whether a text is a permission-set ARN. -/
def isPermissionSetArn (text : String) : Bool :=
  "arn:".toList.isPrefixOf text.toList &&
    Text.occurs ":permissionSet/".toList text.toList

end AccessTopology
