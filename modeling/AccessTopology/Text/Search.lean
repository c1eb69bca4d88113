namespace AccessTopology.Text

/-!
# Searching text

A text is cut at the first place where a mark occurs, or at every place where a
character does.
-/

/-- Cut at the first occurrence of `mark`, which belongs to neither part. -/
def splitFirst?
    (mark : List Char) :
    List Char → Option (List Char × List Char)
  | [] => if mark = [] then some ([], []) else none
  | c :: rest =>
      if mark.isPrefixOf (c :: rest) then
        some ([], (c :: rest).drop mark.length)
      else
        (splitFirst? mark rest).map (fun parts => (c :: parts.1, parts.2))

/-- The parts of a cut and the mark between them make up the text. -/
theorem append_of_splitFirst?
    {mark text before after : List Char}
    (found : splitFirst? mark text = some (before, after)) :
    before ++ mark ++ after = text := by
  induction text generalizing before with
  | nil =>
      by_cases empty : mark = []
      · simp_all [splitFirst?]
      · simp [splitFirst?, empty] at found
  | cons c rest inductionHypothesis =>
      rw [splitFirst?] at found
      split at found
      · rename_i atStart
        obtain ⟨tail, isTail⟩ := List.isPrefixOf_iff_prefix.mp atStart
        simp only [Option.some.injEq, Prod.mk.injEq] at found
        rw [← found.1, ← found.2, ← isTail]
        simp
      · obtain ⟨parts, cut, same⟩ := Option.map_eq_some_iff.mp found
        simp only [Prod.mk.injEq] at same
        have restAppended : parts.1 ++ mark ++ after = rest :=
          inductionHypothesis (same.2 ▸ cut)
        rw [← same.1, List.cons_append, List.cons_append, restAppended]

/-- Whether `mark` occurs in a text. -/
def occurs
    (mark : List Char)
    (text : List Char) :
    Bool :=
  (splitFirst? mark text).isSome

/-- The parts of a text between the occurrences of a character. -/
def splitOn (mark : Char) : List Char → List (List Char)
  | [] => [[]]
  | c :: rest =>
      if c = mark then [] :: splitOn mark rest
      else
        match splitOn mark rest with
        | part :: parts => (c :: part) :: parts
        | [] => [[c]]

/-- The text before the first occurrence of a character, and the text after it if there is one. -/
def cutAt
    (mark : Char)
    (text : List Char) :
    List Char × Option (List Char) :=
  match splitFirst? [mark] text with
  | some (before, after) => (before, some after)
  | none => (text, none)

end AccessTopology.Text
