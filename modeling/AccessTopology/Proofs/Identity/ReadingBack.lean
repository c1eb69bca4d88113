import AccessTopology.Proofs.Text.Ascii
import AccessTopology.Proofs.Text.Blank
import AccessTopology.Topology.Declaration

namespace AccessTopology

/-!
# Reading keys back

A key holds lowercase letters, digits and hyphens only, and starts with its
kind's prefix.  Blank characters around it are therefore no part of it, and an
annotation that holds the key among blank characters reads back as the key.
-/

namespace Text

/-- Characters of a slug are not blank. -/
theorem isBlank_of_isSlugChar
    {c : Char}
    (kept : isSlugChar c = true) :
    isBlank c = false := by
  have inRange := isSlugChar_iff.mp kept
  simp only [isBlank, blankRanges, List.any_cons, List.any_nil,
    Bool.or_false, Bool.or_eq_false_iff, Bool.and_eq_false_iff,
    decide_eq_false_iff_not]
  omega

theorem isBlank_of_mem_slugify
    {name : String}
    {c : Char}
    (member : c ∈ (slugify name).toList) :
    isBlank c = false := by
  rw [slugify, String.toList_ofList] at member
  rcases mem_collapse member with kept | isHyphen
  · exact isBlank_of_isSlugChar kept
  · rw [isHyphen]
    decide

/-- Trimming takes away what is blank around a text without blank characters. -/
theorem trim_padded
    {before text after : String}
    (beforeBlank : ∀ c ∈ before.toList, isBlank c = true)
    (solid : ∀ c ∈ text.toList, isBlank c = false)
    (afterBlank : ∀ c ∈ after.toList, isBlank c = true) :
    trim (before ++ text ++ after) = text := by
  refine IsTrimmed.trim_eq
    ⟨⟨before.toList, after.toList, ?_, ?_, ?_⟩, ?_, ?_⟩
  · exact fun c listed => isBlank_iff.mp (beforeBlank c listed)
  · exact fun c listed => isBlank_iff.mp (afterBlank c listed)
  · rw [String.toList_append, String.toList_append]
  · exact fun c isFirst =>
      isBlank_eq_false_iff.mp (solid c (List.mem_of_mem_head? isFirst))
  · exact fun c isLast =>
      isBlank_eq_false_iff.mp (solid c (List.mem_of_getLast? isLast))

end Text

namespace LogicalKey

theorem isBlank_of_mem_segments
    {names : List String}
    {c : Char}
    (member : c ∈ (segments names).toList) :
    Text.isBlank c = false := by
  induction names with
  | nil =>
      simp [segments] at member
  | cons name rest inductionHypothesis =>
      rw [segments, String.toList_append, List.mem_append] at member
      rcases member with inFirst | inRest
      · simp only [segment] at inFirst
        split at inFirst
        · simp at inFirst
        · rw [String.toList_append, List.mem_append] at inFirst
          rcases inFirst with isHyphen | inSlug
          · have same : c = '-' := by
              simpa using isHyphen
            rw [same]
            decide
          · exact Text.isBlank_of_mem_slugify inSlug
      · exact inductionHypothesis inRest

/-- No character of a composed key is blank. -/
theorem isBlank_of_mem_compose
    {kind : ResourceKind}
    {names : List String}
    {c : Char}
    (member : c ∈ (compose kind names).text.toList) :
    Text.isBlank c = false := by
  have prefixSolid :
      kind.keyPrefix.toList.all (fun letter => !Text.isBlank letter) =
        true := by
    cases kind <;> decide
  rw [compose, String.toList_append, List.mem_append] at member
  rcases member with inPrefix | inSegments
  · simpa using List.all_eq_true.mp prefixSolid c inPrefix
  · exact isBlank_of_mem_segments inSegments

theorem compose_text_ne_empty
    (kind : ResourceKind)
    (names : List String) :
    (compose kind names).text ≠ "" := by
  have prefixWritten : kind.keyPrefix ≠ "" := by
    cases kind <;> decide +kernel
  intro isEmpty
  rw [compose, String.append_eq_empty_iff] at isEmpty
  exact prefixWritten isEmpty.1

/-- A composed key among blank characters reads back as the key. -/
theorem ofObserved?_padded
    {before after : String}
    (beforeBlank : ∀ c ∈ before.toList, Text.isBlank c = true)
    (afterBlank : ∀ c ∈ after.toList, Text.isBlank c = true)
    (kind : ResourceKind)
    (names : List String) :
    ofObserved? (before ++ (compose kind names).text ++ after) =
      some (compose kind names) := by
  have trimmed :
      Text.trim (before ++ (compose kind names).text ++ after) =
        (compose kind names).text :=
    Text.trim_padded beforeBlank (fun _ => isBlank_of_mem_compose) afterBlank
  rw [ofObserved?, Text.nonBlank?, trimmed,
    if_neg (compose_text_ne_empty kind names)]
  rfl

end LogicalKey

/-- The key of a declaration is composed of its kind and some names. -/
theorem Declaration.exists_compose_eq_key (declaration : Declaration) :
    ∃ names, declaration.key = .compose declaration.kind names := by
  cases declaration <;> exact ⟨_, rfl⟩

end AccessTopology
