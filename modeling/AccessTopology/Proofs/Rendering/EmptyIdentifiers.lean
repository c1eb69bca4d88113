import AccessTopology.Proofs.Rendering.Marked
import AccessTopology.Proofs.Rendering.Observed

namespace AccessTopology

/-!
# Empty identifiers

No draft has an empty external name.  The identifier in a status is meant to be
the first text that is not empty among what the provider reports in the kind's
own field, the external name and what the provider reports as `id`.  It is the
first text of any length, however, so an empty one in the kind's own field
hides the others, and an empty `id` is taken where there is no other.  In every
other case the identifier is the one that is meant.
-/

namespace Text

/-- If the first of some texts is not empty, it is the first that is not empty. -/
theorem findSome?_filter_of_ne_empty
    {texts : List (Option String)}
    (written : texts.findSome? id ≠ some "") :
    texts.findSome? (Option.filter (· ≠ "")) = texts.findSome? id := by
  induction texts with
  | nil =>
      rfl
  | cons text? rest inductionHypothesis =>
      cases text? with
      | none =>
          exact inductionHypothesis written
      | some text =>
          have notEmpty : text ≠ "" := by
            simpa using written
          simp [notEmpty]

/-- The first of the texts that are not empty is not empty. -/
theorem findSome?_filter_ne_empty (texts : List (Option String)) :
    texts.findSome? (Option.filter (· ≠ "")) ≠ some "" := by
  intro found
  obtain ⟨text?, _, kept⟩ := List.exists_of_findSome?_eq_some found
  have written := (Option.filter_eq_some_iff.mp kept).2
  simp at written

end Text

namespace Json

/-- The texts in which an object may identify its resource, the best one first. -/
def identifiers
    (settings : Settings)
    (kind : ResourceKind)
    (object : Json) :
    List (Option String) :=
  [kind.identifierField?.bind
      (fun field => object.textAt? ["status", "atProvider", field]),
    object.givenName? settings,
    object.textAt? ["status", "atProvider", "id"]]

/-- The first of these texts that is not empty. -/
def firstWritten?
    (settings : Settings)
    (kind : ResourceKind)
    (object : Json) :
    Option String :=
  (object.identifiers settings kind).findSome? (Option.filter (· ≠ ""))

/-- The first of these texts is empty. -/
inductive LeadsWithEmpty
    (settings : Settings)
    (kind : ResourceKind)
    (object : Json) :
    Prop
  | ownField (field : String) :
      kind.identifierField? = some field →
      object.textAt? ["status", "atProvider", field] = some "" →
        LeadsWithEmpty settings kind object
  | onlyId :
      (∀ field,
        kind.identifierField? = some field →
          object.textAt? ["status", "atProvider", field] = none) →
      object.givenName? settings = none →
      object.textAt? ["status", "atProvider", "id"] = some "" →
        LeadsWithEmpty settings kind object

variable {settings : Settings} {kind : ResourceKind} {object : Json}

/-- No object gives an empty external name. -/
theorem givenName?_ne_empty : object.givenName? settings ≠ some "" := by
  intro given
  have written := (Option.filter_eq_some_iff.mp given).2
  simp at written

/-- An object's identifier is empty where its first text is. -/
theorem firstIdentifier?_eq_empty_iff :
    object.firstIdentifier? settings kind = some "" ↔
      object.LeadsWithEmpty settings kind := by
  have firstOf :
      object.firstIdentifier? settings kind =
        (object.identifiers settings kind).findSome? id :=
    rfl
  rw [firstOf, identifiers]
  constructor
  · intro found
    cases own : kind.identifierField?.bind
        (fun field => object.textAt? ["status", "atProvider", field]) with
    | some text =>
        obtain ⟨field, isField, reported⟩ := Option.bind_eq_some_iff.mp own
        simp only [own, List.findSome?_cons, id_eq, Option.some.injEq]
          at found
        exact .ownField field isField (found ▸ reported)
    | none =>
        have unreported :
            ∀ field,
              kind.identifierField? = some field →
                object.textAt? ["status", "atProvider", field] = none :=
          Option.bind_eq_none_iff.mp own
        cases given : object.givenName? settings with
        | some name =>
            simp only [own, given, List.findSome?_cons, id_eq,
              Option.some.injEq] at found
            exact absurd (found ▸ given) givenName?_ne_empty
        | none =>
            exact .onlyId unreported given (by simpa [own, given] using found)
  · intro leads
    cases leads with
    | ownField field isField reported =>
        simp [isField, reported]
    | onlyId unreported unnamed reported =>
        have noOwn := Option.bind_eq_none_iff.mpr unreported
        simp [noOwn, unnamed, reported]

/-- An object's identifier is the one that is meant unless its first text is empty. -/
theorem firstIdentifier?_eq_firstWritten?_iff :
    object.firstIdentifier? settings kind =
        object.firstWritten? settings kind ↔
      ¬object.LeadsWithEmpty settings kind := by
  rw [← firstIdentifier?_eq_empty_iff]
  constructor
  · intro meant
    rw [meant]
    exact Text.findSome?_filter_ne_empty _
  · intro written
    exact (Text.findSome?_filter_of_ne_empty written).symm

end Json

/--
Where the identifier in a status comes from, and where it is not the one that is
meant.
-/
structure ResourceStatus.IdentifiedFrom
    (settings : Settings)
    (kind : ResourceKind)
    (text : String)
    (objects : List Json)
    (status : ResourceStatus) :
    Prop where
  unobserved :
    (∀ object ∈ objects, object.marker? settings ≠ some text) →
      status.id = none
  meant_iff :
    ∀ object, Json.LastMarked settings text objects object →
      (status.id = object.firstWritten? settings kind ↔
        ¬object.LeadsWithEmpty settings kind)
  empty_iff :
    status.id = some "" ↔
      ∃ object,
        Json.LastMarked settings text objects object ∧
          object.LeadsWithEmpty settings kind

/-- A status that is read from objects is identified from them. -/
theorem ResourceStatus.ReadFrom.identifiedFrom
    {settings : Settings}
    {kind : ResourceKind}
    {text : String}
    {objects : List Json}
    {status : ResourceStatus}
    (read : status.ReadFrom settings kind text objects) :
    status.IdentifiedFrom settings kind text objects := by
  have unobserved :
      (∀ object ∈ objects, object.marker? settings ≠ some text) →
        status.id = none :=
    fun unmarked => (read.pending_iff.mpr unmarked).2
  refine ⟨unobserved, ?_, ?_⟩
  · intro object last
    rw [read.id_eq object last]
    exact Json.firstIdentifier?_eq_firstWritten?_iff
  · constructor
    · intro empty
      by_cases marked : ∃ object ∈ objects, object.marker? settings = some text
      · obtain ⟨object, last⟩ := read.marked marked
        rw [read.id_eq object last, Json.firstIdentifier?_eq_empty_iff]
          at empty
        exact ⟨object, last, empty⟩
      · have absent := unobserved fun object listed isMarked =>
          marked ⟨object, listed, isMarked⟩
        rw [absent] at empty
        cases empty
    · rintro ⟨object, last, leads⟩
      rw [read.id_eq object last]
      exact Json.firstIdentifier?_eq_empty_iff.mpr leads

/-- No empty external name is observed under any key. -/
theorem Observations.externalName?_ne_empty
    (settings : Settings)
    (objects : List Json)
    (key : LogicalKey) :
    (ofObjects settings objects).externalName? key ≠ some "" := by
  intro observed
  rw [externalName?, get?_ofObjects, Option.bind_eq_some_iff] at observed
  obtain ⟨observation, told, named⟩ := observed
  obtain ⟨object, _, rfl⟩ := Option.map_eq_some_iff.mp told
  exact Json.givenName?_ne_empty named

namespace Composite

/-- Drafts have the external names that were observed for their keys. -/
theorem externalName_of_renderIn
    {composite : Composite}
    {settings : Settings}
    {stages : List Stage}
    {rendering : Rendering}
    (rendered : composite.renderIn settings stages = .ok rendering)
    {draft : Draft}
    (listed : draft ∈ rendering.drafts) :
    draft.externalName =
      (composite.observations settings).externalName? draft.key := by
  obtain ⟨_, _, ledger, made, rfl⟩ := renderIn_eq_ok_iff.mp rendered
  have inLedger : draft ∈ ledger.drafts := listed
  rw [← named_of_ledger made, Ledger.drafts_named] at inLedger
  obtain ⟨drafted, _, rfl⟩ := List.mem_map.mp inLedger
  rfl

/-- A resource that is reported is identified from the observed objects. -/
theorem identifiedFrom_of_reported
    {composite : Composite}
    {settings : Settings}
    {kind : ResourceKind}
    {key : LogicalKey}
    (reported : key ∈ (composite.scope settings).reportedKeys kind) :
    (ResourceStatus.ofObservations (composite.observations settings) kind
      key).IdentifiedFrom settings kind key.text composite.observed := by
  have written := Scope.written_of_reported reported
  exact (ResourceStatus.readFrom_ofObservations settings kind written
    composite.observed).identifiedFrom

/-- Which identifiers of a composite's status and drafts are empty. -/
structure IdentifiersTold
    (composite : Composite)
    (settings : Settings) :
    Prop where
  entries :
    ∀ entry ∈ (composite.status settings).entries,
      ∃ kind,
        ∃ key ∈ (composite.scope settings).reportedKeys kind,
          entry.1 = key.text ∧
            entry.2.IdentifiedFrom settings kind key.text composite.observed
  reported :
    ∀ kind,
      ∀ key ∈ (composite.scope settings).reportedKeys kind,
        ∃ status,
          ((composite.status settings).ofKind kind).get? key.text =
              some status ∧
            status.IdentifiedFrom settings kind key.text composite.observed
  rendered :
    ∀ stages rendering,
      composite.renderIn settings stages = .ok rendering →
        rendering.status = composite.status settings ∧
          ∀ draft ∈ rendering.drafts, draft.externalName ≠ some ""

/--
Whatever was observed, no draft has an empty external name, and a status has an
empty identifier exactly where the first text is empty that the last object
marked with the resource's key gives to identify it.  Otherwise the identifier
is the first of these texts that is not empty.
-/
theorem identifiers_told
    (composite : Composite)
    (settings : Settings) :
    composite.IdentifiersTold settings where
  entries := by
    intro entry listed
    obtain ⟨kind, key, reported, rfl⟩ :=
      StatusSummary.exists_key_of_mem_entries listed
    exact ⟨kind, key, reported, rfl, identifiedFrom_of_reported reported⟩
  reported := by
    intro kind key reported
    exact ⟨_, StatusSummary.get?_ofKind reported,
      identifiedFrom_of_reported reported⟩
  rendered := by
    intro stages rendering rendered
    constructor
    · obtain ⟨_, _, ledger, _, rfl⟩ := renderIn_eq_ok_iff.mp rendered
      rfl
    · intro draft listed
      rw [externalName_of_renderIn rendered listed]
      exact Observations.externalName?_ne_empty settings composite.observed
        draft.key

/-- A group's object with an external name whose own field is still empty. -/
def halfProvisioned : Json :=
  .object
    [("metadata",
        .object
          [("annotations",
            .object
              [("crossplane.io/composition-resource-name",
                  .string "identity-center-group-ops"),
                ("crossplane.io/external-name", .string "g-1")])]),
      ("status",
        .object [("atProvider", .object [("groupId", .string "")])])]

/-- A composite with the group of that object. -/
def observesHalfProvisioned : Composite :=
  { spec :=
      { identityStore := some { id := some "d-1234567890" }
        groups := [{ name := "ops" }] }
    observed := [halfProvisioned] }

/-- An empty own field hides the external name, and the identifier is empty. -/
theorem empty_field_hides_external_name :
    (observesHalfProvisioned.status {}).principals.get?
        "identity-center-group-ops" =
      some ⟨.provisioning, some ""⟩ ∧
      halfProvisioned.firstWritten? {} .group = some "g-1" ∧
      (observesHalfProvisioned.render {}).toOption.map
          (fun rendering =>
            (rendering.status.entries,
              rendering.drafts.map Draft.externalName)) =
        some
          ([("identity-center-group-ops", ⟨.provisioning, some ""⟩)],
            [some "g-1"]) := by
  decide +kernel

end Composite

end AccessTopology
