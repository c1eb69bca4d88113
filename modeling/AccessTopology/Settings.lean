import AccessTopology.Spec.Document

namespace AccessTopology

/-!
# Renderer settings

What a pass falls back to where a topology leaves something open, and the names
of the annotations that mark observed objects.
-/

/-- Settings of the renderer. -/
structure Settings where
  baseTags : TagMap := .ofList [("managed-by", "idc-render")]
  namingMarker : String := "crossplane.io/composition-resource-name"
  externalNameMarker : String := "crossplane.io/external-name"
  sessionDuration : String := "PT1H"
  managementPolicies : List String := ["*"]
  deriving DecidableEq

namespace Settings

/-- Fields of the settings. -/
def fields : List (Field Settings) :=
  [.defaulted "baseTags" TagMap.reader
      (fun settings value => { settings with baseTags := value }),
    .defaulted "namingAnnotation" .string
      (fun settings value => { settings with namingMarker := value }),
    .defaulted "externalNameAnnotation" .string
      (fun settings value => { settings with externalNameMarker := value }),
    .defaulted "defaultSessionDuration" .string
      (fun settings value => { settings with sessionDuration := value }),
    .defaulted "defaultManagementPolicies" (.list .string)
      (fun settings value => { settings with managementPolicies := value })]

/-- Read settings. -/
def reader : Reader Settings :=
  .record fields {}

/-- Settings as a document. -/
def toJson (settings : Settings) : Json :=
  .object
    [("baseTags", TagMap.toJson settings.baseTags),
      ("namingAnnotation", .string settings.namingMarker),
      ("externalNameAnnotation", .string settings.externalNameMarker),
      ("defaultSessionDuration", .string settings.sessionDuration),
      ("defaultManagementPolicies", .ofStrings settings.managementPolicies)]

end Settings

end AccessTopology
