import AccessTopology.Proofs.KeyMap.Entries
import AccessTopology.Proofs.Observation
import Mathlib.Data.Finset.Card

namespace AccessTopology

/-!
# Markers of observed objects

Observed objects are read one after the other, and a later object replaces what
an earlier one told under its key.  What comes of this can be told from the
list itself: under a key stands what the last object marked with it tells, and
nothing else of any object marked with it.  An object without a usable marker
is counted and otherwise ignored.
-/

namespace Json

/-- The text at the end of a path of member names. -/
def textAt?
    (object : Json)
    (path : List String) :
    Option String :=
  (object.at? path).bind asString?

/-- The text in the naming annotation, without the blanks around it. -/
def marker?
    (settings : Settings)
    (object : Json) :
    Option String :=
  (object.textAt? ["metadata", "annotations", settings.namingMarker]).map
    Text.trim

/-- The marker, unless nothing is left of it. -/
def usableMarker?
    (settings : Settings)
    (object : Json) :
    Option String :=
  (object.marker? settings).filter (· ≠ "")

/-- The last of some objects that is marked with a text. -/
def LastMarked
    (settings : Settings)
    (text : String)
    (objects : List Json)
    (object : Json) :
    Prop :=
  ∃ before after,
    objects = before ++ object :: after ∧
      object.marker? settings = some text ∧
        ∀ later ∈ after, later.marker? settings ≠ some text

end Json

namespace Observation

variable {settings : Settings} {object : Json}

/-- The key of an object is its usable marker. -/
theorem key?_eq_usableMarker?
    (settings : Settings)
    (object : Json) :
    key? settings object =
      (object.usableMarker? settings).map LogicalKey.mk := by
  rw [key?, Json.annotated?, Json.usableMarker?, Json.marker?, Json.textAt?]
  cases (object.at?
      ["metadata", "annotations", settings.namingMarker]).bind
        Json.asString? with
  | none =>
      rfl
  | some text =>
      by_cases blank : Text.trim text = "" <;>
        simp [LogicalKey.ofObserved?, Text.nonBlank?, blank]

/-- An object tells about a key, which is not blank, if it is marked with it. -/
theorem key?_eq_some_iff
    {key : LogicalKey}
    (written : key.text ≠ "") :
    key? settings object = some key ↔
      object.marker? settings = some key.text := by
  rw [key?_eq_usableMarker?, Json.usableMarker?, Option.map_eq_some_iff]
  constructor
  · rintro ⟨text, usable, rfl⟩
    exact (Option.filter_eq_some_iff.mp usable).1
  · intro marked
    exact ⟨key.text, by simp [marked, written], rfl⟩

end Observation

namespace Observations

variable {settings : Settings} {objects : List Json} {key : LogicalKey}

/-- Nothing is observed under a key that no object is marked with. -/
theorem get?_ofObjects_eq_none_iff
    (written : key.text ≠ "") :
    (ofObjects settings objects).get? key = none ↔
      ∀ object ∈ objects, object.marker? settings ≠ some key.text := by
  rw [get?_ofObjects, Option.map_eq_none_iff, List.find?_eq_none]
  simp only [List.mem_reverse, decide_eq_true_eq,
    Observation.key?_eq_some_iff written, ne_eq]

/-- The last object marked with a key tells what is observed under it. -/
theorem get?_ofObjects_of_lastMarked
    (written : key.text ≠ "")
    {object : Json}
    (last : Json.LastMarked settings key.text objects object) :
    (ofObjects settings objects).get? key =
      some (.ofJson settings object) := by
  obtain ⟨before, after, rfl, marked, noLater⟩ := last
  have absentLater :
      after.reverse.find?
        (fun later => Observation.key? settings later = some key) = none := by
    rw [List.find?_eq_none]
    intro later isLater
    rw [decide_eq_true_eq, Observation.key?_eq_some_iff written]
    exact noLater later (List.mem_reverse.mp isLater)
  have tells : Observation.key? settings object = some key :=
    (Observation.key?_eq_some_iff written).mpr marked
  rw [get?_ofObjects, List.reverse_append, List.reverse_cons,
    List.append_assoc, List.find?_append, absentLater, Option.none_or,
    List.singleton_append, List.find?_cons_of_pos (by simpa using tells)]
  rfl

/-- An object without a usable marker is counted. -/
theorem add_of_unusable
    {object : Json}
    (unusable : object.usableMarker? settings = none)
    (reached : Observations) :
    reached.add settings object =
      { reached with skipped := reached.skipped + 1 } := by
  rw [add, Observation.key?_eq_usableMarker?, unusable]
  rfl

/-- What an object tells is entered under its usable marker. -/
theorem add_of_usable
    {object : Json}
    {text : String}
    (usable : object.usableMarker? settings = some text)
    (reached : Observations) :
    reached.add settings object =
      { reached with
        entries := reached.entries.insert text (.ofJson settings object) } := by
  rw [add, Observation.key?_eq_usableMarker?, usable]
  rfl

/-- Reading objects enters what those with a usable marker tell, in turn. -/
theorem entries_ofObjects
    (settings : Settings)
    (objects : List Json) :
    (ofObjects settings objects).entries =
      .ofList
        (objects.filterMap
          (fun object =>
            (object.usableMarker? settings).map
              (fun text => (text, Observation.ofJson settings object)))) := by
  have afterOthers (start : Observations) :
      (objects.foldl (add settings) start).entries =
        start.entries.insertAll
          (objects.filterMap
            (fun object =>
              (object.usableMarker? settings).map
                (fun text =>
                  (text, Observation.ofJson settings object)))) := by
    induction objects generalizing start with
    | nil =>
        rfl
    | cons object rest inductionHypothesis =>
        rw [List.foldl_cons, inductionHypothesis]
        cases usable : object.usableMarker? settings with
        | none =>
            rw [add_of_unusable usable]
            simp [usable]
        | some text =>
            rw [add_of_usable usable]
            simp [usable, KeyMap.insertAll]
  exact afterOthers empty

/-- The objects without a usable marker are counted. -/
theorem skipped_ofObjects
    (settings : Settings)
    (objects : List Json) :
    (ofObjects settings objects).skipped =
      objects.countP (fun object => object.usableMarker? settings = none) := by
  have afterOthers (start : Observations) :
      (objects.foldl (add settings) start).skipped =
        start.skipped +
          objects.countP
            (fun object => object.usableMarker? settings = none) := by
    induction objects generalizing start with
    | nil =>
        rfl
    | cons object rest inductionHypothesis =>
        rw [List.foldl_cons, inductionHypothesis]
        cases usable : object.usableMarker? settings with
        | none =>
            rw [add_of_unusable usable, List.countP_cons]
            simp only [usable, decide_true, if_true]
            omega
        | some text =>
            rw [add_of_usable usable]
            simp [usable]
  exact (afterOthers empty).trans (Nat.zero_add _)

/-- An object without a usable marker adds one to the count and nothing else. -/
theorem ofObjects_of_unusable
    {object : Json}
    (unusable : object.usableMarker? settings = none)
    (before after : List Json) :
    ofObjects settings (before ++ object :: after) =
      { entries := (ofObjects settings (before ++ after)).entries
        skipped := (ofObjects settings (before ++ after)).skipped + 1 } := by
  have sameEntries :
      (ofObjects settings (before ++ object :: after)).entries =
        (ofObjects settings (before ++ after)).entries := by
    simp [entries_ofObjects, unusable]
  have oneMore :
      (ofObjects settings (before ++ object :: after)).skipped =
        (ofObjects settings (before ++ after)).skipped + 1 := by
    simp only [skipped_ofObjects, List.countP_append, List.countP_cons,
      unusable, decide_true, if_true]
    exact (Nat.add_assoc _ _ _).symm
  rw [← sameEntries, ← oneMore]

/-- There are as many keys as there are different usable markers. -/
theorem size_ofObjects
    (settings : Settings)
    (objects : List Json) :
    (ofObjects settings objects).size =
      (objects.filterMap (Json.usableMarker? settings)).toFinset.card := by
  have sameKeys :
      (ofObjects settings objects).entries.keys.toFinset =
        (objects.filterMap (Json.usableMarker? settings)).toFinset := by
    ext text
    rw [List.mem_toFinset, List.mem_toFinset, entries_ofObjects,
      KeyMap.mem_keys_ofList]
    simp
  rw [← sameKeys, List.toFinset_card_of_nodup (KeyMap.nodup_keys _),
    KeyMap.keys, List.length_map]
  rfl

end Observations

end AccessTopology
