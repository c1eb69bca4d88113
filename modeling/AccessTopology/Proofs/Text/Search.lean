import AccessTopology.Text.Search
import Mathlib.Data.List.Infix

namespace AccessTopology.Text

/-!
# What a search finds

A search for a mark cuts the text at the first occurrence of the mark, and
finds nothing exactly where the mark does not occur.  Cutting at every
occurrence of a character and joining the parts by it undo each other.
-/

/-- A text is cut where a mark occurs first. -/
structure CutAtFirst
    (mark text before after : List Char) :
    Prop where
  whole :
    before ++ mark ++ after = text
  first :
    ∀ earlier later,
      earlier ++ mark ++ later = text → before.length ≤ earlier.length

/-- There is one place where a mark occurs first. -/
theorem CutAtFirst.unique
    {mark text before after otherBefore otherAfter : List Char}
    (cut : CutAtFirst mark text before after)
    (otherCut : CutAtFirst mark text otherBefore otherAfter) :
    before = otherBefore ∧ after = otherAfter := by
  have sameLength : before.length = otherBefore.length :=
    Nat.le_antisymm
      (cut.first otherBefore otherAfter otherCut.whole)
      (otherCut.first before after cut.whole)
  have sameText :
      before ++ (mark ++ after) = otherBefore ++ (mark ++ otherAfter) := by
    rw [← List.append_assoc, ← List.append_assoc, cut.whole, otherCut.whole]
  obtain ⟨sameBefore, sameRest⟩ := List.append_inj sameText sameLength
  exact ⟨sameBefore, List.append_cancel_left sameRest⟩

variable {mark text : List Char}

/-- Nothing is found where the mark does not occur. -/
theorem splitFirst?_eq_none_iff :
    splitFirst? mark text = none ↔ ¬mark <:+: text := by
  induction text with
  | nil =>
      by_cases empty : mark = [] <;> simp [splitFirst?, empty]
  | cons c rest inductionHypothesis =>
      rw [splitFirst?, List.infix_cons_iff]
      by_cases atStart : mark.isPrefixOf (c :: rest) = true
      · simp [atStart, List.isPrefixOf_iff_prefix.mp atStart]
      · have notPrefix : ¬mark <+: c :: rest :=
          fun isPrefix => atStart (List.isPrefixOf_iff_prefix.mpr isPrefix)
        simp [atStart, notPrefix, inductionHypothesis]

/-- No occurrence of a mark comes before the one that is found. -/
theorem first_of_splitFirst?
    {before after : List Char}
    (found : splitFirst? mark text = some (before, after))
    {earlier later : List Char}
    (occurs : earlier ++ mark ++ later = text) :
    before.length ≤ earlier.length := by
  induction text generalizing before earlier with
  | nil =>
      have whole := append_of_splitFirst? found
      simp only [List.append_eq_nil_iff] at whole
      simp [whole]
  | cons c rest inductionHypothesis =>
      rw [splitFirst?] at found
      split at found
      · obtain ⟨rfl, -⟩ : [] = before ∧ _ := by
          simpa using found
        simp
      · rename_i notAtStart
        obtain ⟨parts, cut, same⟩ := Option.map_eq_some_iff.mp found
        obtain ⟨rfl, rfl⟩ : c :: parts.1 = before ∧ parts.2 = after := by
          simpa using same
        cases earlier with
        | nil =>
            refine absurd (List.isPrefixOf_iff_prefix.mpr ?_) notAtStart
            exact ⟨later, by simpa using occurs⟩
        | cons first others =>
            obtain ⟨-, inRest⟩ : first = c ∧ others ++ mark ++ later = rest := by
              simpa using occurs
            simpa using inductionHypothesis cut inRest

/-- What is found is where the mark occurs first. -/
theorem splitFirst?_eq_some_iff
    {before after : List Char} :
    splitFirst? mark text = some (before, after) ↔
      CutAtFirst mark text before after := by
  have sound :
      ∀ before after,
        splitFirst? mark text = some (before, after) →
          CutAtFirst mark text before after :=
    fun _ _ found =>
      ⟨append_of_splitFirst? found,
        fun _ _ occurs => first_of_splitFirst? found occurs⟩
  refine ⟨sound before after, ?_⟩
  intro cut
  cases found : splitFirst? mark text with
  | none =>
      refine absurd ?_ (splitFirst?_eq_none_iff.mp found)
      exact ⟨before, after, cut.whole⟩
  | some parts =>
      obtain ⟨sameBefore, sameAfter⟩ := (sound parts.1 parts.2 found).unique cut
      rw [← sameBefore, ← sameAfter]

/-- A character comes first where no such character is before it. -/
theorem cutAtFirst_singleton_iff
    {c : Char}
    {before after : List Char} :
    CutAtFirst [c] text before after ↔
      c ∉ before ∧ before ++ c :: after = text := by
  constructor
  · intro cut
    refine ⟨?_, by simpa using cut.whole⟩
    intro listed
    obtain ⟨earlier, later, rfl⟩ := List.append_of_mem listed
    have notBefore := cut.first earlier (later ++ c :: after)
      (by simpa using cut.whole)
    simp only [List.length_append, List.length_cons] at notBefore
    omega
  · rintro ⟨notListed, rfl⟩
    refine ⟨by simp, ?_⟩
    intro earlier later occurs
    have sameText : before ++ c :: after = earlier ++ c :: later := by
      simpa using occurs.symm
    rcases List.append_eq_append_iff.mp sameText with
      ⟨between, rfl, _⟩ | ⟨between, rfl, sameRest⟩
    · simp
    · cases between with
      | nil =>
          simp
      | cons first others =>
          obtain ⟨rfl, _⟩ := List.cons.inj sameRest
          exact absurd (by simp) notListed

/-- A text is cut at a character that is not before it as well. -/
theorem splitFirst?_append
    {c : Char}
    {before : List Char}
    (unmarked : c ∉ before)
    (after : List Char) :
    splitFirst? [c] (before ++ c :: after) = some (before, after) :=
  splitFirst?_eq_some_iff.mpr (cutAtFirst_singleton_iff.mpr ⟨unmarked, rfl⟩)

/-- A text is cut at a character's first occurrence, if there is one. -/
theorem cutAt_eq_iff
    {c : Char}
    {before : List Char}
    {after : Option (List Char)} :
    cutAt c text = (before, after) ↔
      c ∉ before ∧ before ++ after.elim [] (c :: ·) = text := by
  have sound :
      ∀ before after,
        cutAt c text = (before, after) →
          c ∉ before ∧ before ++ after.elim [] (c :: ·) = text := by
    intro before after cut
    rw [cutAt] at cut
    split at cut
    · rename_i found
      cases cut
      exact cutAtFirst_singleton_iff.mp (splitFirst?_eq_some_iff.mp found)
    · rename_i notFound
      cases cut
      have notListed := splitFirst?_eq_none_iff.mp notFound
      rw [List.singleton_infix_iff] at notListed
      exact ⟨notListed, List.append_nil text⟩
  refine ⟨sound before after, ?_⟩
  rintro ⟨unmarked, whole⟩
  cases after with
  | none =>
      have notFound : splitFirst? [c] text = none := by
        rw [splitFirst?_eq_none_iff, List.singleton_infix_iff, ← whole]
        simpa using unmarked
      rw [cutAt, notFound, ← whole]
      simp
  | some after =>
      rw [cutAt, ← whole, Option.elim_some, splitFirst?_append unmarked]

theorem splitOn_eq_splitOn
    (c : Char)
    (text : List Char) :
    splitOn c text = text.splitOn c := by
  induction text with
  | nil =>
      rfl
  | cons first rest inductionHypothesis =>
      rw [splitOn, List.splitOn_cons_eq_if_modifyHead, inductionHypothesis]
      simp only [beq_iff_eq]
      split
      · rfl
      · cases parts : rest.splitOn c with
        | nil =>
            exact absurd parts (List.splitOn_ne_nil c rest)
        | cons part parts =>
            rfl

theorem not_mem_of_mem_splitOn
    {c : Char}
    {part : List Char}
    (listed : part ∈ splitOn c text) :
    c ∉ part := by
  induction text generalizing part with
  | nil =>
      simp only [splitOn, List.mem_singleton] at listed
      simp [listed]
  | cons first rest inductionHypothesis =>
      rw [splitOn] at listed
      split at listed
      · rcases List.mem_cons.mp listed with rfl | inRest
        · simp
        · exact inductionHypothesis inRest
      · rename_i other
        split at listed
        · rename_i head parts split
          rcases List.mem_cons.mp listed with rfl | inRest
          · have notInHead : c ∉ head :=
              inductionHypothesis (by simp [split])
            simp [Ne.symm other, notInHead]
          · exact inductionHypothesis (by simp [split, inRest])
        · rw [List.mem_singleton] at listed
          simp [listed, Ne.symm other]

/-- A text is split into the parts that the separating character joins to it. -/
theorem splitOn_eq_iff
    {c : Char}
    {parts : List (List Char)} :
    splitOn c text = parts ↔
      parts ≠ [] ∧ (∀ part ∈ parts, c ∉ part) ∧
        [c].intercalate parts = text := by
  constructor
  · rintro rfl
    refine ⟨?_, fun _ => not_mem_of_mem_splitOn, ?_⟩
    · rw [splitOn_eq_splitOn]
      exact List.splitOn_ne_nil c text
    · rw [splitOn_eq_splitOn]
      exact List.intercalate_splitOn c
  · rintro ⟨given, unmarked, rfl⟩
    rw [splitOn_eq_splitOn]
    exact List.splitOn_intercalate c unmarked given

end AccessTopology.Text
