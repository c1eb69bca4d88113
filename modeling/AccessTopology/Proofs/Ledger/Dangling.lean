import AccessTopology.KeyMap.Lookup
import AccessTopology.Proofs.Ledger.Run

namespace AccessTopology

/-!
# The dangling reference of a ledger

A ledger names one dangling reference, if it has any: that of the first draft
with one, in the order of drafts, and of this draft's dangling references the
one whose name comes first.
-/

/-- Of a map's entries, those before one of them have the smaller keys. -/
theorem KeyMap.mem_before_iff
    {map : KeyMap α}
    {before after : List (String × α)}
    {entry : String × α}
    (split : map.entries = before ++ entry :: after)
    {other : String × α} :
    other ∈ before ↔ other ∈ map.entries ∧ other.1 < entry.1 := by
  have ordered := map.ordered
  rw [split, List.pairwise_append, List.pairwise_cons] at ordered
  obtain ⟨_, ⟨entryFirst, _⟩, beforeFirst⟩ := ordered
  rw [split, List.mem_append, List.mem_cons]
  constructor
  · intro isBefore
    exact ⟨.inl isBefore,
      beforeFirst other isBefore entry List.mem_cons_self⟩
  · rintro ⟨isBefore | rfl | isAfter, smaller⟩
    · exact isBefore
    · exact absurd smaller (String.lt_irrefl _)
    · exact absurd (String.lt_trans smaller (entryFirst other isAfter))
        (String.lt_irrefl _)

/-- The reference of a name points at a key without a draft. -/
def Draft.Misses
    (draft : Draft)
    (ledger : Ledger)
    (name : String)
    (target : LogicalKey) :
    Prop :=
  ∃ field,
    draft.references.get? name = some (.draft target field) ∧
      ledger.contains target = false

namespace Draft

variable {draft : Draft} {ledger : Ledger}

/-- Whether a reference points at a key without a draft. -/
def missing
    (ledger : Ledger)
    (reference : Reference) :
    Bool :=
  reference.draftKey?.any (fun target => !ledger.contains target)

theorem misses_iff
    {name : String}
    {target : LogicalKey} :
    draft.Misses ledger name target ↔
      ∃ reference,
        (name, reference) ∈ draft.references.entries ∧
          missing ledger reference = true ∧
            reference.draftKey? = some target := by
  simp only [Misses, KeyMap.get?_eq_some_iff]
  constructor
  · rintro ⟨field, listed, absent⟩
    exact ⟨_, listed, by simp [missing, Reference.draftKey?, absent], rfl⟩
  · rintro ⟨reference, listed, isMissing, pointsAt⟩
    cases reference with
    | external value =>
        cases pointsAt
    | draft key field =>
        cases pointsAt
        exact ⟨field, listed, by simpa [missing, Reference.draftKey?]
          using isMissing⟩

theorem missing_iff
    {name : String}
    {reference : Reference}
    (listed : (name, reference) ∈ draft.references.entries) :
    missing ledger reference = true ↔
      ∃ target, draft.Misses ledger name target := by
  constructor
  · intro isMissing
    cases pointsAt : reference.draftKey? with
    | none =>
        simp [missing, pointsAt] at isMissing
    | some target =>
        exact ⟨target,
          misses_iff.mpr ⟨reference, listed, isMissing, pointsAt⟩⟩
  · rintro ⟨target, misses⟩
    obtain ⟨other, alsoListed, isMissing, _⟩ := misses_iff.mp misses
    have sameReference : reference = other :=
      Option.some.inj
        ((KeyMap.get?_eq_some_iff.mpr listed).symm.trans
          (KeyMap.get?_eq_some_iff.mpr alsoListed))
    exact sameReference ▸ isMissing

/-- The first target without a draft is found through the references' names. -/
theorem find?_targets
    (draft : Draft)
    (ledger : Ledger) :
    draft.targets.find? (fun target => !ledger.contains target) =
      (draft.references.entries.find?
        (fun entry => missing ledger entry.2)).bind
          (fun entry => entry.2.draftKey?) := by
  rw [targets, KeyMap.values, List.find?_filterMap, List.find?_map,
    Option.bind_map]
  rfl

/-- A draft points at no key without a draft if none of its references does. -/
theorem find?_targets_eq_none_iff :
    draft.targets.find? (fun target => !ledger.contains target) = none ↔
      ∀ name target, ¬draft.Misses ledger name target := by
  rw [find?_targets, Option.bind_eq_none_iff]
  constructor
  · intro noneFound name target misses
    obtain ⟨reference, listed, isMissing, _⟩ := misses_iff.mp misses
    have someFound :
        (draft.references.entries.find?
          (fun entry => missing ledger entry.2)).isSome = true :=
      List.find?_isSome.mpr ⟨_, listed, isMissing⟩
    obtain ⟨found, isFound⟩ := Option.isSome_iff_exists.mp someFound
    have foundMissing : missing ledger found.2 = true := by
      simpa using List.find?_some isFound
    simp [missing, noneFound found isFound] at foundMissing
  · intro noneMisses entry isFound
    have isMissing : missing ledger entry.2 = true := by
      simpa using List.find?_some isFound
    obtain ⟨target, misses⟩ :=
      (missing_iff (List.mem_of_find?_eq_some isFound)).mp isMissing
    exact absurd misses (noneMisses entry.1 target)

/-- A draft's first target without a draft is that of the first name. -/
theorem find?_targets_eq_some_iff
    {target : LogicalKey} :
    draft.targets.find? (fun target => !ledger.contains target) =
        some target ↔
      ∃ name,
        draft.Misses ledger name target ∧
          ∀ earlier, earlier < name →
            ∀ other, ¬draft.Misses ledger earlier other := by
  rw [find?_targets, Option.bind_eq_some_iff]
  constructor
  · rintro ⟨⟨name, reference⟩, found, pointsAt⟩
    obtain ⟨isMissing, before, after, split, noneBefore⟩ :=
      List.find?_eq_some_iff_append.mp found
    have listed : (name, reference) ∈ draft.references.entries := by
      simp [split]
    refine ⟨name,
      misses_iff.mpr ⟨reference, listed, isMissing, pointsAt⟩, ?_⟩
    intro earlier smaller other misses
    obtain ⟨otherReference, otherListed, otherMissing, _⟩ :=
      misses_iff.mp misses
    have isBefore :=
      (KeyMap.mem_before_iff split).mpr ⟨otherListed, smaller⟩
    have notMissing := noneBefore _ isBefore
    simp [otherMissing] at notMissing
  · rintro ⟨name, misses, first⟩
    obtain ⟨reference, listed, isMissing, pointsAt⟩ := misses_iff.mp misses
    obtain ⟨before, after, split⟩ := List.append_of_mem listed
    refine ⟨(name, reference),
      List.find?_eq_some_iff_append.mpr
        ⟨isMissing, before, after, split, ?_⟩, pointsAt⟩
    intro other isBefore
    obtain ⟨otherListed, smaller⟩ :=
      (KeyMap.mem_before_iff split).mp isBefore
    rw [Bool.not_eq_true', Bool.eq_false_iff, Ne, missing_iff otherListed]
    exact fun ⟨key, otherMisses⟩ => first other.1 smaller key otherMisses

end Draft

namespace Ledger

variable {ledger : Ledger}

/-- Nothing dangles while no draft points at a key without a draft. -/
theorem dangling?_eq_none_iff_not_misses :
    ledger.dangling? = none ↔
      ∀ draft ∈ ledger.drafts,
        ∀ name target, ¬draft.Misses ledger name target := by
  simp only [dangling?, List.findSome?_eq_none_iff, Option.map_eq_none_iff,
    Draft.find?_targets_eq_none_iff]

/--
What dangles is the first reference, by name, of the first draft with a
reference to a key without a draft.
-/
theorem dangling?_eq_some_iff
    {source target : LogicalKey} :
    ledger.dangling? = some (source, target) ↔
      ∃ before draft after name,
        ledger.drafts = before ++ draft :: after ∧
          draft.key = source ∧
          draft.Misses ledger name target ∧
          (∀ earlier, earlier < name →
            ∀ other, ¬draft.Misses ledger earlier other) ∧
          ∀ earlier ∈ before,
            ∀ name other, ¬earlier.Misses ledger name other := by
  simp only [dangling?, List.findSome?_eq_some_iff, Option.map_eq_some_iff,
    Option.map_eq_none_iff, Draft.find?_targets_eq_none_iff,
    Draft.find?_targets_eq_some_iff, Prod.mk.injEq]
  constructor
  · rintro ⟨before, draft, after, split, ⟨_, ⟨name, misses, first⟩, rfl, rfl⟩,
      noneBefore⟩
    exact ⟨before, draft, after, name, split, rfl, misses, first, noneBefore⟩
  · rintro ⟨before, draft, after, name, split, rfl, misses, first,
      noneBefore⟩
    exact ⟨before, draft, after, split, ⟨_, ⟨name, misses, first⟩, rfl, rfl⟩,
      noneBefore⟩

end Ledger

end AccessTopology
