import AccessTopology.Draft.Reference
import AccessTopology.Observation
import AccessTopology.Scope

namespace AccessTopology

/-!
# Resource drafts

A draft is one desired resource as the provider's controller takes it: its own
fields, the references it waits for, and what every resource of the pass
carries.
-/

/-- The provider configuration that a draft names. -/
structure ProviderConfigName where
  name : String
  deriving Repr, DecidableEq

/-- One desired resource. -/
structure Draft where
  kind : ResourceKind
  apiVersion : String
  key : LogicalKey
  forProvider : KeyMap Json
  references : KeyMap Reference
  managementPolicies : List String
  providerConfig : ProviderConfigName
  tags : TagMap
  externalName : Option String

namespace Draft

/-- A draft without fields or references, carrying what every draft carries. -/
def start
    (scope : Scope)
    (observations : Observations)
    (kind : ResourceKind)
    (key : LogicalKey)
    (tags : TagMap) :
    Draft :=
  { kind := kind
    apiVersion := kind.apiVersion
    key := key
    forProvider := .empty
    references := .empty
    managementPolicies := scope.managementPolicies
    providerConfig := ⟨scope.providerConfigName⟩
    tags := tags
    externalName := (observations.get? key).bind Observation.externalName }

/-- The draft with a field set. -/
def withField
    (draft : Draft)
    (name : String)
    (value : Json) :
    Draft :=
  { draft with forProvider := draft.forProvider.insert name value }

/-- The draft with a text field set, if there is a text. -/
def withField?
    (draft : Draft)
    (name : String) :
    Option String → Draft
  | some text => draft.withField name (.string text)
  | none => draft

/-- The draft with a reference set. -/
def withReference
    (draft : Draft)
    (name : String)
    (reference : Reference) :
    Draft :=
  { draft with references := draft.references.insert name reference }

/--
Whether two drafts ask for the same resource: equal in every field, where the
two zeros among numbers are equal.
-/
def same (left right : Draft) : Bool :=
  left.kind == right.kind &&
    left.apiVersion == right.apiVersion &&
    left.key == right.key &&
    Json.sameMembers left.forProvider.entries right.forProvider.entries &&
    left.references == right.references &&
    left.managementPolicies == right.managementPolicies &&
    left.providerConfig == right.providerConfig &&
    left.tags == right.tags &&
    left.externalName == right.externalName

/-- Keys of the drafts that a draft points at, by the names of its references. -/
def targets (draft : Draft) : List LogicalKey :=
  draft.references.values.filterMap Reference.draftKey?

end Draft

namespace ProviderConfigName

/-- Fields of a provider configuration's name. -/
def fields : List (Field ProviderConfigName) :=
  [.required "name" .string (fun _ value => ⟨value⟩)]

/-- Read a provider configuration's name. -/
def reader : Reader ProviderConfigName :=
  .record fields ⟨""⟩

/-- A provider configuration's name as a document. -/
def toJson (config : ProviderConfigName) : Json :=
  .object [("name", .string config.name)]

end ProviderConfigName

namespace Draft

/-- Fields of a draft. -/
def fields : List (Field Draft) :=
  [.required "kind" ResourceKind.reader
      (fun draft value => { draft with kind := value }),
    .required "apiVersion" .string
      (fun draft value => { draft with apiVersion := value }),
    .required "key" LogicalKey.reader
      (fun draft value => { draft with key := value }),
    .required "forProvider" (.map .any)
      (fun draft value => { draft with forProvider := value }),
    .defaulted "references" (.map Reference.reader)
      (fun draft value => { draft with references := value }),
    .required "managementPolicies" (.list .string)
      (fun draft value => { draft with managementPolicies := value }),
    .required "providerConfigRef" ProviderConfigName.reader
      (fun draft value => { draft with providerConfig := value }),
    .required "tags" TagMap.reader
      (fun draft value => { draft with tags := value }),
    .defaulted "externalName" (.option .string)
      (fun draft value => { draft with externalName := value })]

/-- Read a draft. -/
def reader : Reader Draft :=
  .record fields
    { kind := .group, apiVersion := "", key := ⟨""⟩, forProvider := .empty,
      references := .empty, managementPolicies := [], providerConfig := ⟨""⟩,
      tags := .empty, externalName := none }

/-- A draft as a document; only a known external name is written. -/
def toJson (draft : Draft) : Json :=
  .object
    ([("kind", draft.kind.toJson),
      ("apiVersion", .string draft.apiVersion),
      ("key", .string draft.key.text),
      ("forProvider", .ofMap draft.forProvider),
      ("references", .ofKeyMap Reference.toJson draft.references),
      ("managementPolicies", .ofStrings draft.managementPolicies),
      ("providerConfigRef", draft.providerConfig.toJson),
      ("tags", TagMap.toJson draft.tags)] ++
      (draft.externalName.map (fun name => ("externalName", .string name))).toList)

end Draft

end AccessTopology
