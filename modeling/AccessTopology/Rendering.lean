import AccessTopology.Digest.Sha256
import AccessTopology.Readiness
import AccessTopology.Topology.Stage
import AccessTopology.Validation.Rule
import AccessTopology.Version

namespace AccessTopology

/-!
# Rendering a composite

A pass answers with every draft, or with the first error and no draft at all.
It checks the engine's version and the rules before it drafts anything.
-/

/-- The version of this engine, in words. -/
def engineVersionText : String :=
  "1.0.0"

/-- The version of this engine. -/
def engineVersion : Version :=
  ⟨1, 0, 0, [], []⟩

/-- The outcome of a pass. -/
structure Rendering where
  drafts : List Draft
  status : StatusSummary
  digest : String

/-- The drafts of a list as one document. -/
def Draft.listToJson (drafts : List Draft) : Json :=
  .ofList Draft.toJson drafts

/-- The digest of a document: the SHA-256 of its canonical text. -/
def Json.digest (value : Json) : String :=
  Digest.ofText value.canonicalText

namespace Composite

/-- The scope of a composite under some settings. -/
def scope
    (composite : Composite)
    (settings : Settings) :
    Scope :=
  .build composite.metadata.name composite.spec settings

/-- What a composite's observed objects tell. -/
def observations
    (composite : Composite)
    (settings : Settings) :
    Observations :=
  .ofObjects settings composite.observed

/-- Refuse a composite that asks for a later engine. -/
def checkEngine (composite : Composite) : Except RenderError Unit :=
  match composite.engineMinVersion with
  | none => .ok ()
  | some required =>
      match Version.parse? required with
      | none => .error (.invalidVersion required)
      | some version =>
          if engineVersion.order version = .lt then
            .error (.engineTooOld required engineVersionText)
          else
            .ok ()

/-- What the rules say about a composite that this engine may render. -/
def validate (composite : Composite) : Except RenderError Report := do
  composite.checkEngine
  return composite.spec.report

/-- The state of a composite's topology. -/
def status
    (composite : Composite)
    (settings : Settings) :
    StatusSummary :=
  .ofScope (composite.scope settings) (composite.observations settings)

/-- Refuse a topology that some rule finds invalid. -/
def checkReport (report : Report) : Except RenderError Unit :=
  if report.hasErrors then
    .error
      (.configuration
        (.rejected
          (report.errors.map
            (fun violation => (violation.rule, violation.message)))))
  else
    .ok ()

/-- The ledger of a composite's stages, if none fails and no reference dangles. -/
def ledger
    (composite : Composite)
    (settings : Settings)
    (stages : List Stage) :
    Except RenderError Ledger :=
  match
    Ledger.runStages (composite.scope settings)
      (composite.observations settings) .empty stages with
  | (_, some error) => .error error
  | (ledger, none) =>
      match ledger.dangling? with
      | some (source, target) => .error (.danglingReference source target)
      | none => .ok ledger

/-- Render a composite in some stages. -/
def renderIn
    (composite : Composite)
    (settings : Settings)
    (stages : List Stage) :
    Except RenderError Rendering := do
  let report ← composite.validate
  checkReport report
  let ledger ← composite.ledger settings stages
  return {
    drafts := ledger.drafts
    status := composite.status settings
    digest := (Draft.listToJson ledger.drafts).digest }

/-- Render a composite in the usual stages. -/
def render
    (composite : Composite)
    (settings : Settings) :
    Except RenderError Rendering :=
  composite.renderIn settings Stage.all

end Composite

namespace Rendering

/-- Fields of a rendering. -/
def fields : List (Field Rendering) :=
  [.required "resources" (.list Draft.reader)
      (fun rendering value => { rendering with drafts := value }),
    .required "status" StatusSummary.reader
      (fun rendering value => { rendering with status := value }),
    .required "digest" .string
      (fun rendering value => { rendering with digest := value })]

/-- Read a rendering. -/
def reader : Reader Rendering :=
  .record fields
    { drafts := []
      status :=
        { instanceArn := none, identityStoreId := none,
          managementPolicies := [], principals := .empty,
          permissionSets := .empty, assignments := .empty,
          counts := ⟨0, 0, 0⟩, ready := false }
      digest := "" }

/-- A rendering as a document. -/
def toJson (rendering : Rendering) : Json :=
  .object
    [("resources", Draft.listToJson rendering.drafts),
      ("status", rendering.status.toJson),
      ("digest", .string rendering.digest)]

end Rendering

end AccessTopology
