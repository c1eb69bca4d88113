import AccessTopology.KeyMap.Lookup
import AccessTopology.Observation
import AccessTopology.Proofs.Identity.ReadingBack

namespace AccessTopology

/-!
# What observed objects tell

Of several observed objects with one key the last one counts.  An object whose
naming annotation holds a key among blank characters tells about that key; it
tells the external name in its other annotation, and that its resource is ready
if it has a condition that says so.
-/

/-- Of the objects with some key the last tells what was observed under it. -/
theorem Observations.get?_ofObjects
    (settings : Settings)
    (objects : List Json)
    (key : LogicalKey) :
    (ofObjects settings objects).get? key =
      (objects.reverse.find?
        (fun object => Observation.key? settings object = some key)).map
          (Observation.ofJson settings) := by
  -- A later object overwrites what was told before, whatever that was.
  have afterOthers (start : Observations) :
      (objects.foldl (add settings) start).get? key =
        ((objects.reverse.find?
          (fun object => Observation.key? settings object = some key)).map
            (Observation.ofJson settings)).or (start.get? key) := by
    induction objects generalizing start with
    | nil =>
        rfl
    | cons object rest inductionHypothesis =>
        have added :
            (add settings start object).get? key =
              if Observation.key? settings object = some key then
                some (Observation.ofJson settings object)
              else
                start.get? key := by
          rw [add]
          cases told : Observation.key? settings object with
          | none =>
              rfl
          | some other =>
              simp only [get?, KeyMap.get?_insert, LogicalKey.text_inj,
                Option.some.injEq, eq_comm (a := key)]
        rw [List.foldl_cons, inductionHypothesis, added,
          List.reverse_cons, List.find?_append, Option.map_or,
          Option.or_assoc]
        by_cases tellsKey : Observation.key? settings object = some key
        · simp [tellsKey]
        · simp [tellsKey]
  have nothing : Observations.empty.get? key = none := rfl
  rw [ofObjects, afterOthers, nothing, Option.or_none]

namespace Json

/-- Whether an object says that the resource of a key is ready, and its name. -/
structure Reports
    (settings : Settings)
    (key : LogicalKey)
    (name : String)
    (object : Json) :
    Prop where
  marked :
    ∃ before after : String,
      before.toList.all Text.isBlank = true ∧
        after.toList.all Text.isBlank = true ∧
          object.at? ["metadata", "annotations", settings.namingMarker] =
            some (.string (before ++ key.text ++ after))
  named :
    object.at? ["metadata", "annotations", settings.externalNameMarker] =
      some (.string name)
  ready :
    ∃ conditions,
      object.at? ["status", "conditions"] = some (.array conditions) ∧
        ∃ condition ∈ conditions,
          condition.member? "type" = some (.string "Ready") ∧
            condition.member? "status" = some (.string "True")

/-- The condition that an object is ready. -/
def readyCondition : Json :=
  .object [("type", .string "Ready"), ("status", .string "True")]

/-- An object with two annotations and the condition that it is ready. -/
def annotatedReady
    (settings : Settings)
    (marker name : String) :
    Json :=
  .object
    [("metadata",
        .object
          [("annotations",
            .object
              [(settings.namingMarker, .string marker),
                (settings.externalNameMarker, .string name)])]),
      ("status", .object [("conditions", .array [readyCondition])])]

/-- Where the annotations have different names, an object can have both. -/
theorem reports_annotatedReady
    {settings : Settings}
    (markersDiffer : settings.namingMarker ≠ settings.externalNameMarker)
    {before after : String}
    (beforeBlank : before.toList.all Text.isBlank = true)
    (afterBlank : after.toList.all Text.isBlank = true)
    (key : LogicalKey)
    (name : String) :
    (annotatedReady settings (before ++ key.text ++ after) name).Reports
      settings key name where
  marked :=
    ⟨before, after, beforeBlank, afterBlank, by
      simp [annotatedReady, at?, member?]⟩
  named := by
    simp [annotatedReady, at?, member?, KeyMap.lookup_cons_ite,
      markersDiffer.symm]
  ready := by
    refine ⟨[readyCondition], ?_, readyCondition, List.mem_cons_self, ?_, ?_⟩
    · simp [annotatedReady, at?, member?, KeyMap.lookup_cons_ite]
    · simp [readyCondition, member?]
    · simp [readyCondition, member?, KeyMap.lookup_cons_ite]

namespace Reports

variable {settings : Settings} {name : String} {object : Json}

theorem key?_eq
    {kind : ResourceKind}
    {names : List String}
    (reports : object.Reports settings (.compose kind names) name) :
    Observation.key? settings object = some (.compose kind names) := by
  obtain ⟨before, after, beforeBlank, afterBlank, annotated⟩ :=
    reports.marked
  rw [Observation.key?, annotated?, annotated, Option.bind_some, asString?,
    Option.bind_some]
  exact LogicalKey.ofObserved?_padded (List.all_eq_true.mp beforeBlank)
    (List.all_eq_true.mp afterBlank) kind names

theorem externalName_eq
    {key : LogicalKey}
    (reports : object.Reports settings key name)
    (written : name ≠ "") :
    (Observation.ofJson settings object).externalName = some name := by
  simp [Observation.ofJson, Observation.externalName?, annotated?,
    reports.named, asString?, written]

theorem ready_eq
    {key : LogicalKey}
    (reports : object.Reports settings key name) :
    (Observation.ofJson settings object).ready = true := by
  obtain ⟨conditions, held, condition, listed, isReady, isTrue⟩ :=
    reports.ready
  have saysReady : condition.isReadyCondition = true := by
    simp [isReadyCondition, isReady, isTrue, asString?]
  have someReady : conditions.any isReadyCondition = true :=
    List.any_eq_true.mpr ⟨condition, listed, saysReady⟩
  simpa [Observation.ofJson, Json.isReady, held, asArray?] using someReady

end Reports

end Json

end AccessTopology
