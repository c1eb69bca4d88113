import AccessTopology.Proofs.Draft.ReadingBack
import AccessTopology.Proofs.Readiness.ReadingBack
import AccessTopology.Proofs.Validation.ReadingBack
import AccessTopology.Rendering

namespace AccessTopology

/-!
# Documents read back

Whatever is exchanged with a caller reads back from what it is written as:
composites and settings, also from documents that leave out members which hold
their default, and drafts, references, status summaries, reports and renderings.
-/

namespace Rendering

/-- Columns of renderings. -/
def columns : List (Column Rendering) :=
  [.kept .required "resources" Draft.codec.list Rendering.drafts
      (fun rendering value => { rendering with drafts := value }),
    .kept .required "status" StatusSummary.codec Rendering.status
      (fun rendering value => { rendering with status := value }),
    .kept .required "digest" .text Rendering.digest
      (fun rendering value => { rendering with digest := value })]

/-- The table of renderings. -/
def table : Table Rendering where
  initial :=
    { drafts := []
      status :=
        { instanceArn := none, identityStoreId := none,
          managementPolicies := [], principals := .empty,
          permissionSets := .empty, assignments := .empty,
          counts := ⟨0, 0, 0⟩, ready := false }
      digest := "" }
  columns := columns
  starts := by
    simp [columns]
  distinct := by
    decide
  commute := by
    simp [columns, Column.Commute]
  rebuilt := by
    simp [columns, Column.putAll]

/-- The values of the drafts' own fields are in canonical form. -/
def Spelled (rendering : Rendering) : Prop :=
  ∀ draft ∈ rendering.drafts, draft.Spelled

/-- Renderings. -/
def codec : Codec Rendering where
  reader := reader
  write := toJson
  layout := table.layout
  Keeps := Spelled
  reads := by
    intro rendering spelled shorter abridges
    apply table.reads _ abridges
    simpa [Table.Keeps, table, columns, Spelled] using spelled

end Rendering

/--
What is exchanged with a caller reads back from what it is written as, however
that is listed.  From the documents of composites and settings any members may
be left out, at any depth, that hold what they default to.
-/
structure DocumentsReadBack : Prop where
  composites :
    ∀ composite : Composite,
      composite.Spelled →
        ∀ shorter,
          Composite.layout.Abridges composite.toJson shorter →
            Composite.reader.Reads shorter composite
  settings :
    ∀ (settings : Settings) (shorter : Json),
      Settings.layout.Abridges settings.toJson shorter →
        Settings.reader.Reads shorter settings
  references :
    ∀ reference : Reference,
      Reference.reader.Reads reference.toJson reference
  drafts :
    ∀ draft : Draft,
      draft.Spelled →
        Draft.reader.Reads draft.toJson draft
  summaries :
    ∀ summary : StatusSummary,
      StatusSummary.reader.Reads summary.toJson summary
  reports :
    ∀ report : Report,
      Report.reader.Reads report.toJson report
  renderings :
    ∀ rendering : Rendering,
      rendering.Spelled →
        Rendering.reader.Reads rendering.toJson rendering

/-- What is exchanged with a caller reads back. -/
theorem documents_read_back : DocumentsReadBack where
  composites _ spelled _ abridges :=
    Composite.codec.reads spelled abridges
  settings _ _ abridges :=
    Settings.codec.reads trivial abridges
  references _ :=
    Reference.codec.reads trivial (.whole _ _)
  drafts _ spelled :=
    Draft.codec.reads spelled (.whole _ _)
  summaries _ :=
    StatusSummary.codec.reads trivial (.whole _ _)
  reports _ :=
    Report.codec.reads trivial (.whole _ _)
  renderings _ spelled :=
    Rendering.codec.reads spelled (.whole _ _)

/-- A permission set with an inline policy and a customer policy. -/
def PermissionSet.auditor : PermissionSet where
  name := "auditor"
  inlinePolicy := some (.object [("Version", .string "2012-10-17")])
  customerPolicies := [{ name := "read-only" }]

/-- The document of a permission set, without what may be left out. -/
def PermissionSet.auditorInShort : Json :=
  .object
    [("name", .string "auditor"),
      ("inlinePolicy", .object [("Version", .string "2012-10-17")]),
      ("customerManagedPolicies",
        .array [.object [("name", .string "read-only")]])]

theorem PermissionSet.abridges_auditor :
    layout.Abridges auditor.toJson auditorInShort := by
  have policies :
      Layout.AbridgesItems CustomerPolicy.layout
        [CustomerPolicy.toJson { name := "read-only" }]
        [.object [("name", .string "read-only")]] :=
    .cons (.record (.kept rfl (.whole _ _) (.leftOut rfl (.nil _)))) (.nil _)
  refine .record (.kept rfl (.whole _ _) ?_)
  refine .leftOut rfl (.leftOut rfl (.leftOut rfl ?_))
  refine .kept rfl (.whole _ _) (.leftOut rfl ?_)
  refine .kept rfl (.items policies) ?_
  exact .leftOut rfl (.leftOut rfl (.leftOut rfl (.leftOut rfl (.nil _))))

theorem documents_read_back_sample :
    (Document.ofJson
        (.object
          [("spec", .object
            [("permissionSets",
              .array [PermissionSet.auditorInShort])])])).read
        Composite.reader =
      .ok { spec := { permissionSets := [PermissionSet.auditor] } } := by
  have spelled :
      Composite.Spelled
        { spec := { permissionSets := [PermissionSet.auditor] } } := by
    refine ⟨⟨?_, nofun⟩, nofun⟩
    rintro set isAuditor policy isPolicy
    obtain rfl := List.mem_singleton.mp isAuditor
    cases isPolicy
    refine ⟨.object (List.pairwise_singleton _ _) ?_, nofun⟩
    simpa using Json.KeysIncrease.string "2012-10-17"
  have abridgesSpec :
      Spec.layout.Abridges
        (Spec.toJson { permissionSets := [PermissionSet.auditor] })
        (.object
          [("permissionSets", .array [PermissionSet.auditorInShort])]) := by
    refine .record (.leftOut rfl (.leftOut rfl (.leftOut rfl ?_)))
    refine .leftOut rfl (.leftOut rfl (.leftOut rfl (.leftOut rfl ?_)))
    refine .kept rfl
      (.items (.cons PermissionSet.abridges_auditor (.nil _))) ?_
    exact .leftOut rfl (.leftOut rfl (.leftOut rfl (.nil _)))
  refine (documents_read_back.composites _ spelled _ ?_).read_document
  refine .record (.leftOut rfl (.kept rfl abridgesSpec ?_))
  exact .leftOut rfl (.leftOut rfl (.nil _))

end AccessTopology
