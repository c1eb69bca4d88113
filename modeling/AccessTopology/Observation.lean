import AccessTopology.Identity.LogicalKey
import AccessTopology.Settings

namespace AccessTopology

/-!
# Observed resources

Observed objects are JSON values of any shape. An object whose naming
annotation holds a key that is not blank tells its resource's external name,
whether it is ready, and what the provider reported; any other object counts
as skipped.
-/

/-- What an observed object tells about its resource. -/
structure Observation where
  externalName : Option String
  ready : Bool
  atProvider : Json

namespace Observation

/-- The text under a name in what the provider reported. -/
def reported?
    (observation : Observation)
    (field : String) :
    Option String :=
  (observation.atProvider.member? field).bind Json.asString?

/--
The identifier to bind to: the text in the kind's own field, else the external
name, else the provider's `id`.
-/
def identifier?
    (observation : Observation)
    (field : Option String) :
    Option String :=
  ((field.bind observation.reported?).or observation.externalName).or
    (observation.reported? "id")

end Observation

/-- Whether a condition says that its object is ready. -/
def Json.isReadyCondition (condition : Json) : Bool :=
  (condition.member? "type").bind Json.asString? = some "Ready" &&
    (condition.member? "status").bind Json.asString? = some "True"

/-- Whether an observed object has a condition that says it is ready. -/
def Json.isReady (object : Json) : Bool :=
  match (object.at? ["status", "conditions"]).bind Json.asArray? with
  | some conditions => conditions.any Json.isReadyCondition
  | none => false

/-- The text of an annotation of an observed object. -/
def Json.annotated?
    (object : Json)
    (name : String) :
    Option String :=
  (object.at? ["metadata", "annotations", name]).bind Json.asString?

namespace Observation

/-- The key in an observed object's naming annotation. -/
def key?
    (settings : Settings)
    (object : Json) :
    Option LogicalKey :=
  (object.annotated? settings.namingMarker).bind LogicalKey.ofObserved?

/-- The external name in an observed object's annotation, unless it is empty. -/
def externalName?
    (settings : Settings)
    (object : Json) :
    Option String :=
  (object.annotated? settings.externalNameMarker).filter (· ≠ "")

/-- What an observed object tells. -/
def ofJson
    (settings : Settings)
    (object : Json) :
    Observation :=
  { externalName := externalName? settings object
    ready := object.isReady
    atProvider := (object.at? ["status", "atProvider"]).getD .null }

end Observation

/-- Observations by key, and the number of objects without a usable key. -/
structure Observations where
  entries : KeyMap Observation
  skipped : Nat

namespace Observations

/-- No observations. -/
def empty : Observations :=
  ⟨.empty, 0⟩

/-- Add what one object tells, replacing what an earlier one told under its key. -/
def add
    (settings : Settings)
    (observations : Observations)
    (object : Json) :
    Observations :=
  match Observation.key? settings object with
  | some key =>
      { observations with
        entries :=
          observations.entries.insert key.text (.ofJson settings object) }
  | none => { observations with skipped := observations.skipped + 1 }

/-- What a list of observed objects tells. -/
def ofObjects
    (settings : Settings)
    (objects : List Json) :
    Observations :=
  objects.foldl (add settings) empty

/-- What was observed under a key. -/
def get?
    (observations : Observations)
    (key : LogicalKey) :
    Option Observation :=
  observations.entries.get? key.text

/-- Number of keys with an observation. -/
def size (observations : Observations) : Nat :=
  observations.entries.size

end Observations

end AccessTopology
