import AccessTopology.Proofs.Observation.Markers
import AccessTopology.Proofs.Readiness.Entries
import AccessTopology.Rendering

namespace AccessTopology

/-!
# Reading states and names off observed objects

The states of a topology and the external names of its drafts can be read off
the list of observed objects, without the index that a pass makes of it.  What
counts for a resource is the last object marked with its key: whether one of its
conditions says that it is ready, the identifiers that it reports, and the
external name in its annotation.
-/

namespace Json

/-- A condition of the object says that it is ready. -/
def SaysReady (object : Json) : Prop :=
  ∃ conditions,
    object.at? ["status", "conditions"] = some (.array conditions) ∧
      ∃ condition ∈ conditions,
        condition.member? "type" = some (.string "Ready") ∧
          condition.member? "status" = some (.string "True")

/-- The text in the external name annotation, unless it is empty. -/
def givenName?
    (settings : Settings)
    (object : Json) :
    Option String :=
  (object.textAt?
    ["metadata", "annotations", settings.externalNameMarker]).filter (· ≠ "")

/--
The first that exists of what the provider reports in the kind's own field, the
given name, and what the provider reports as `id`.
-/
def firstIdentifier?
    (settings : Settings)
    (kind : ResourceKind)
    (object : Json) :
    Option String :=
  [kind.identifierField?.bind
      (fun field => object.textAt? ["status", "atProvider", field]),
    object.givenName? settings,
    object.textAt? ["status", "atProvider", "id"]].findSome? id

variable {object : Json}

theorem asString?_eq_some_iff
    {value : Json}
    {text : String} :
    value.asString? = some text ↔ value = .string text := by
  cases value <;> simp [asString?]

theorem isReadyCondition_iff
    {condition : Json} :
    condition.isReadyCondition = true ↔
      condition.member? "type" = some (.string "Ready") ∧
        condition.member? "status" = some (.string "True") := by
  simp [isReadyCondition, Option.bind_eq_some_iff, asString?_eq_some_iff]

/-- The model's test agrees with what the conditions say. -/
theorem isReady_iff :
    object.isReady = true ↔ object.SaysReady := by
  rw [isReady, SaysReady]
  cases held : object.at? ["status", "conditions"] with
  | none =>
      simp
  | some conditions =>
      cases conditions with
      | array items =>
          simp [asArray?, isReadyCondition_iff]
      | _ =>
          simp [asArray?]

/-- A path may be followed in two parts. -/
theorem at?_append
    (object : Json)
    (path rest : List String) :
    object.at? (path ++ rest) = (object.at? path).bind (at? rest) := by
  induction path generalizing object with
  | nil =>
      rfl
  | cons name path inductionHypothesis =>
      rw [List.cons_append, at?, at?, Option.bind_assoc]
      congr 1
      funext member
      exact inductionHypothesis member

end Json

namespace Observation

variable {settings : Settings} {object : Json}

/-- What is reported under a name is text at the end of a path. -/
theorem reported?_ofJson
    (settings : Settings)
    (object : Json)
    (field : String) :
    (ofJson settings object).reported? field =
      object.textAt? ["status", "atProvider", field] := by
  have path := object.at?_append ["status", "atProvider"] [field]
  rw [reported?, ofJson, Json.textAt?]
  rw [List.cons_append, List.cons_append, List.nil_append] at path
  rw [path]
  cases object.at? ["status", "atProvider"] with
  | none =>
      rfl
  | some value =>
      cases held : value.member? field <;> simp [Json.at?, held]

/-- The identifier of an object is the first that it gives. -/
theorem identifier?_ofJson
    (settings : Settings)
    (object : Json)
    (kind : ResourceKind) :
    (ofJson settings object).identifier? kind.identifierField? =
      object.firstIdentifier? settings kind := by
  have name :
      (ofJson settings object).externalName = object.givenName? settings :=
    rfl
  simp only [identifier?, reported?_ofJson, name, Json.firstIdentifier?,
    List.findSome?_cons, id_eq]
  cases kind.identifierField?.bind
      (fun field => object.textAt? ["status", "atProvider", field]) <;>
    cases object.givenName? settings <;>
      cases object.textAt? ["status", "atProvider", "id"] <;> rfl

end Observation

namespace Json

/-- Of the objects marked with a text there is a last one. -/
theorem exists_lastMarked
    {settings : Settings}
    {text : String}
    {objects : List Json}
    (marked : ∃ object ∈ objects, object.marker? settings = some text) :
    ∃ object, LastMarked settings text objects object := by
  induction objects with
  | nil =>
      simp at marked
  | cons first rest inductionHypothesis =>
      by_cases inRest : ∃ object ∈ rest, object.marker? settings = some text
      · obtain ⟨object, before, after, rfl, isMarked, noLater⟩ :=
          inductionHypothesis inRest
        exact ⟨object, first :: before, after, rfl, isMarked, noLater⟩
      · have noneLater :
            ∀ later ∈ rest, later.marker? settings ≠ some text :=
          fun later isLater isMarked => inRest ⟨later, isLater, isMarked⟩
        obtain ⟨object, listed, isMarked⟩ := marked
        rcases List.mem_cons.mp listed with rfl | isLater
        · exact ⟨object, [], rest, rfl, isMarked, noneLater⟩
        · exact absurd isMarked (noneLater object isLater)

end Json

/-- A status says what a list of observed objects says about a resource. -/
structure ResourceStatus.ReadFrom
    (settings : Settings)
    (kind : ResourceKind)
    (text : String)
    (objects : List Json)
    (status : ResourceStatus) :
    Prop where
  pending_iff :
    status.state = .pending ∧ status.id = none ↔
      ∀ object ∈ objects, object.marker? settings ≠ some text
  marked :
    (∃ object ∈ objects, object.marker? settings = some text) →
      ∃ object, Json.LastMarked settings text objects object
  ready_iff :
    ∀ object, Json.LastMarked settings text objects object →
      (status.state = .ready ↔ object.SaysReady)
  provisioning_iff :
    ∀ object, Json.LastMarked settings text objects object →
      (status.state = .provisioning ↔ ¬object.SaysReady)
  id_eq :
    ∀ object, Json.LastMarked settings text objects object →
      status.id = object.firstIdentifier? settings kind

/-- A draft has the external name that observed objects give its resource. -/
structure Draft.NamedFrom
    (settings : Settings)
    (objects : List Json)
    (draft : Draft) :
    Prop where
  unnamed :
    (∀ object ∈ objects,
      object.marker? settings ≠ some draft.key.text) →
        draft.externalName = none
  named :
    ∀ object,
      Json.LastMarked settings draft.key.text objects object →
        draft.externalName = object.givenName? settings

/-- States are read off the last object marked with a resource's key. -/
theorem ResourceStatus.readFrom_ofObservations
    (settings : Settings)
    (kind : ResourceKind)
    {key : LogicalKey}
    (written : key.text ≠ "")
    (objects : List Json) :
    (ofObservations (.ofObjects settings objects) kind key).ReadFrom
      settings kind key.text objects := by
  have ofLast {object : Json}
      (last : Json.LastMarked settings key.text objects object) :
      ofObservations (.ofObjects settings objects) kind key =
        { state := if object.isReady then .ready else .provisioning
          id := object.firstIdentifier? settings kind } := by
    rw [ofObservations,
      Observations.get?_ofObjects_of_lastMarked written last,
      ← Observation.identifier?_ofJson]
    rfl
  constructor
  · rw [← Observations.get?_ofObjects_eq_none_iff written]
    constructor
    · rintro ⟨pending, _⟩
      exact (unobserved_of_pending pending).1
    · intro unobserved
      simp [ofObservations, unobserved]
  · exact Json.exists_lastMarked
  · intro object last
    rw [ofLast last, ← Json.isReady_iff]
    cases object.isReady <;> simp
  · intro object last
    rw [ofLast last, ← Json.isReady_iff]
    cases object.isReady <;> simp
  · intro object last
    rw [ofLast last]

/-- A draft is named after the last object marked with its key. -/
theorem Draft.namedFrom_start
    (settings : Settings)
    (objects : List Json)
    (scope : Scope)
    (kind : ResourceKind)
    {key : LogicalKey}
    (written : key.text ≠ "")
    (tags : TagMap) :
    (start scope (.ofObjects settings objects) kind key tags).NamedFrom
      settings objects := by
  constructor
  · intro unmarked
    have unobserved :=
      (Observations.get?_ofObjects_eq_none_iff written).mpr unmarked
    simp [start, unobserved]
  · intro object last
    have observed :=
      Observations.get?_ofObjects_of_lastMarked written last
    rw [start, observed]
    rfl

/-- No key that a status reports is empty. -/
theorem Scope.written_of_reported
    {scope : Scope}
    {kind : ResourceKind}
    {key : LogicalKey}
    (reported : key ∈ scope.reportedKeys kind) :
    key.text ≠ "" := by
  obtain ⟨names, rfl⟩ := exists_names_of_reported reported
  exact LogicalKey.compose_text_ne_empty kind names

namespace Composite

/--
What a composite's status and its drafts take from the observed objects, and
what is said of those that tell nothing.
-/
structure ReadsObserved
    (composite : Composite)
    (settings : Settings) :
    Prop where
  entries :
    ∀ entry ∈ (composite.status settings).entries,
      ∃ kind,
        ∃ key ∈ (composite.scope settings).reportedKeys kind,
          entry.1 = key.text ∧
            entry.2.ReadFrom settings kind key.text composite.observed
  reported :
    ∀ kind,
      ∀ key ∈ (composite.scope settings).reportedKeys kind,
        ∃ status,
          ((composite.status settings).ofKind kind).get? key.text =
              some status ∧
            status.ReadFrom settings kind key.text composite.observed
  drafts :
    ∀ scope kind key tags,
      key.text ≠ "" →
        (Draft.start scope (composite.observations settings) kind key
          tags).NamedFrom settings composite.observed
  skipped :
    (composite.observations settings).skipped =
      composite.observed.countP
        (fun object => object.usableMarker? settings = none)
  size :
    (composite.observations settings).size =
      (composite.observed.filterMap
        (Json.usableMarker? settings)).toFinset.card
  ignored :
    ∀ before object after,
      composite.observed = before ++ object :: after →
        object.usableMarker? settings = none →
          (composite.observations settings).entries =
              (Observations.ofObjects settings (before ++ after)).entries ∧
            (composite.observations settings).skipped =
              (Observations.ofObjects settings
                (before ++ after)).skipped + 1

/--
Whatever was observed and whether or not the topology is valid, states and
external names are those that the observed objects themselves say.
-/
theorem reads_observed
    (composite : Composite)
    (settings : Settings) :
    composite.ReadsObserved settings where
  entries := by
    intro entry listed
    obtain ⟨kind, key, reported, rfl⟩ :=
      StatusSummary.exists_key_of_mem_entries listed
    exact ⟨kind, key, reported, rfl,
      ResourceStatus.readFrom_ofObservations settings kind
        (Scope.written_of_reported reported) composite.observed⟩
  reported := by
    intro kind key reported
    exact ⟨_, StatusSummary.get?_ofKind reported,
      ResourceStatus.readFrom_ofObservations settings kind
        (Scope.written_of_reported reported) composite.observed⟩
  drafts := by
    intro scope kind key tags written
    exact Draft.namedFrom_start settings composite.observed scope kind
      written tags
  skipped := Observations.skipped_ofObjects settings composite.observed
  size := Observations.size_ofObjects settings composite.observed
  ignored := by
    intro before object after split unusable
    rw [observations, split, Observations.ofObjects_of_unusable unusable]
    exact ⟨rfl, rfl⟩

end Composite

end AccessTopology
