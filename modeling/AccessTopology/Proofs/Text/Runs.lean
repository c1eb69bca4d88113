import AccessTopology.Text.Slug
import Mathlib.Data.List.Basic

namespace AccessTopology.Text

/-!
# Runs of characters

The characters of a text that a test keeps form runs: what is left between the
characters that it does not keep.  A slug is made of such runs: it joins the
runs of letters and digits of a lowercased name by single hyphens.
-/

/-- The maximal runs of the characters that a test keeps, from left to right. -/
def runs
    (keep : Char → Bool)
    (text : List Char) :
    List (List Char) :=
  (text.splitOnP (fun c => !keep c)).filter (fun run => !run.isEmpty)

variable {keep : Char → Bool}

@[simp] theorem runs_nil : runs keep [] = [] :=
  rfl

/-- A run does not go on past a character that is not kept. -/
theorem runs_append_cons
    {separator : Char}
    (dropped : keep separator = false)
    (before after : List Char) :
    runs keep (before ++ separator :: after) =
      runs keep before ++ runs keep after := by
  have separates : (!keep separator) = true := by
    simp [dropped]
  simp only [runs,
    List.splitOnP_append_cons before after (p := fun c => !keep c) separates,
    List.filter_append]

theorem runs_cons_of_dropped
    {c : Char}
    (dropped : keep c = false)
    (rest : List Char) :
    runs keep (c :: rest) = runs keep rest :=
  runs_append_cons dropped [] rest

/-- Kept characters alone are one run. -/
theorem runs_eq_singleton
    {run : List Char}
    (written : run ≠ [])
    (kept : ∀ c ∈ run, keep c = true) :
    runs keep run = [run] := by
  have unbroken : run.splitOnP (fun c => !keep c) = [run] :=
    List.splitOnP_eq_singleton (fun c member => by simp [kept c member])
  simp [runs, unbroken, written]

/-- What is left behind a run starts with a character that is not kept. -/
theorem dropWhile_eq_nil_or_cons
    (keep : Char → Bool)
    (text : List Char) :
    text.dropWhile keep = [] ∨
      ∃ separator after,
        text.dropWhile keep = separator :: after ∧ keep separator = false := by
  cases left : text.dropWhile keep with
  | nil =>
      exact .inl rfl
  | cons separator after =>
      refine .inr ⟨separator, after, rfl, ?_⟩
      simpa [left] using List.head?_dropWhile_not keep text

/-- All of a run that starts with a kept character is kept. -/
theorem kept_of_mem_cons_takeWhile
    {c : Char}
    (kept : keep c = true)
    {rest : List Char} :
    ∀ other ∈ c :: rest.takeWhile keep, keep other = true := by
  have othersKept : (rest.takeWhile keep).all keep = true :=
    List.all_takeWhile
  exact List.forall_mem_cons.mpr ⟨kept, List.all_eq_true.mp othersKept⟩

/-- A run that starts goes on as long as characters are kept. -/
theorem runs_cons_of_kept
    {c : Char}
    (kept : keep c = true)
    (rest : List Char) :
    runs keep (c :: rest) =
      (c :: rest.takeWhile keep) :: runs keep (rest.dropWhile keep) := by
  have isRun :
      runs keep (c :: rest.takeWhile keep) = [c :: rest.takeWhile keep] :=
    runs_eq_singleton (by simp) (kept_of_mem_cons_takeWhile kept)
  have split :
      c :: rest = (c :: rest.takeWhile keep) ++ rest.dropWhile keep := by
    simp
  rcases dropWhile_eq_nil_or_cons keep rest with
    nothingLeft | ⟨separator, after, left, dropped⟩
  · rw [split, nothingLeft, List.append_nil, isRun, runs_nil]
  · rw [split, left, runs_append_cons dropped, isRun,
      runs_cons_of_dropped dropped, List.singleton_append]

/-- A run of a text: kept characters that no kept character stands next to. -/
structure IsRun
    (keep : Char → Bool)
    (text run : List Char) :
    Prop where
  written : run ≠ []
  kept : ∀ c ∈ run, keep c = true
  bounded :
    ∃ before after,
      text = before ++ run ++ after ∧
        (∀ c ∈ before.getLast?, keep c = false) ∧
          ∀ c ∈ after.head?, keep c = false

/-- A run of what follows a separator is a run of the whole. -/
theorem IsRun.append_cons
    {separator : Char}
    (dropped : keep separator = false)
    {text run : List Char}
    (isRun : IsRun keep text run)
    (leading : List Char) :
    IsRun keep (leading ++ separator :: text) run := by
  obtain ⟨before, after, shape, startsThere, endsThere⟩ := isRun.bounded
  refine ⟨isRun.written, isRun.kept,
    leading ++ separator :: before, after, ?_, ?_, endsThere⟩
  · simp [shape]
  · intro c isLast
    cases before with
    | nil =>
        obtain rfl : separator = c := by
          simpa using isLast
        exact dropped
    | cons first others =>
        apply startsThere c
        simpa [List.getLast?_append] using isLast

/-- The run that a text starts with, up to the first separator. -/
theorem isRun_cons_takeWhile
    {c : Char}
    (kept : keep c = true)
    (rest : List Char) :
    IsRun keep (c :: rest) (c :: rest.takeWhile keep) := by
  refine ⟨by simp, kept_of_mem_cons_takeWhile kept,
    [], rest.dropWhile keep, by simp, by simp, ?_⟩
  intro other isHead
  rcases dropWhile_eq_nil_or_cons keep rest with
    nothingLeft | ⟨separator, after, left, dropped⟩
  · simp [nothingLeft] at isHead
  · obtain rfl : separator = other := by
      simpa [left] using isHead
    exact dropped

theorem isRun_of_mem_runs
    {text run : List Char}
    (listed : run ∈ runs keep text) :
    IsRun keep text run := by
  -- A first run is left with all that it takes, so the induction is on the length.
  induction size : text.length using Nat.strongRecOn generalizing text with
  | ind length inductionHypothesis =>
      cases text with
      | nil =>
          simp at listed
      | cons c rest =>
          cases kept : keep c with
          | false =>
              rw [runs_cons_of_dropped kept] at listed
              have inRest : IsRun keep rest run :=
                inductionHypothesis rest.length (by simp [← size]) listed rfl
              exact inRest.append_cons kept []
          | true =>
              rw [runs_cons_of_kept kept] at listed
              rcases List.mem_cons.mp listed with isFirst | isLater
              · subst isFirst
                exact isRun_cons_takeWhile kept rest
              · have split :
                    rest = rest.takeWhile keep ++ rest.dropWhile keep := by
                  simp
                rcases dropWhile_eq_nil_or_cons keep rest with
                  nothingLeft | ⟨separator, after, left, dropped⟩
                · simp [nothingLeft] at isLater
                · rw [left, runs_cons_of_dropped dropped] at isLater
                  have shorter : after.length < length := by
                    have restLength := congrArg List.length split
                    simp only [left, List.length_append,
                      List.length_cons] at restLength size
                    omega
                  have inAfter : IsRun keep after run :=
                    inductionHypothesis after.length shorter isLater rfl
                  rw [split, left]
                  exact inAfter.append_cons dropped (c :: rest.takeWhile keep)

theorem mem_runs_of_isRun
    {text run : List Char}
    (isRun : IsRun keep text run) :
    run ∈ runs keep text := by
  obtain ⟨written, kept, before, after, rfl, startsThere, endsThere⟩ := isRun
  have alone := runs_eq_singleton written kept
  have listedBefore : run ∈ runs keep (before ++ run) := by
    rcases List.eq_nil_or_concat before with rfl | ⟨others, last, rfl⟩
    · simp [alone]
    · have dropped : keep last = false :=
        startsThere last (by simp)
      simp [runs_append_cons dropped, alone]
  cases after with
  | nil =>
      simpa using listedBefore
  | cons separator others =>
      have dropped : keep separator = false :=
        endsThere separator rfl
      rw [runs_append_cons dropped]
      exact List.mem_append_left _ listedBefore

/-- The runs of a text are listed, and nothing else is. -/
theorem mem_runs_iff
    {text run : List Char} :
    run ∈ runs keep text ↔ IsRun keep text run :=
  ⟨isRun_of_mem_runs, mem_runs_of_isRun⟩

/-- Texts joined by a character that is not kept have the runs of each. -/
theorem runs_intercalate
    {separator : Char}
    (dropped : keep separator = false)
    (texts : List (List Char)) :
    runs keep ([separator].intercalate texts) = texts.flatMap (runs keep) := by
  induction texts with
  | nil =>
      rfl
  | cons text others inductionHypothesis =>
      cases others with
      | nil =>
          simp
      | cons next rest =>
          rw [List.intercalate_cons_cons, List.append_assoc,
            List.singleton_append, runs_append_cons dropped,
            inductionHypothesis]
          rfl

/-- Runs that are joined by a character that is not kept are read back. -/
theorem runs_intercalate_runs
    {separator : Char}
    (dropped : keep separator = false)
    (text : List Char) :
    runs keep ([separator].intercalate (runs keep text)) = runs keep text := by
  have readBack : ∀ run ∈ runs keep text, runs keep run = [run] := by
    intro run listed
    have isRun := mem_runs_iff.mp listed
    exact runs_eq_singleton isRun.written isRun.kept
  rw [runs_intercalate dropped, List.flatMap_congr readBack]
  simp

/-- Of joined texts all but the first follow a separator. -/
theorem intercalate_cons
    (separator : Char)
    (text : List Char)
    (others : List (List Char)) :
    [separator].intercalate (text :: others) =
      text ++ others.flatMap (separator :: ·) := by
  induction others generalizing text with
  | nil =>
      simp
  | cons next rest inductionHypothesis =>
      rw [List.intercalate_cons_cons, inductionHypothesis]
      simp

/-- After a letter or digit, each further run follows a hyphen. -/
theorem collapse_true
    (text : List Char) :
    collapse true true text =
        (runs isSlugChar text).flatMap ('-' :: ·) ∧
      collapse true false text =
        text.takeWhile isSlugChar ++
          (runs isSlugChar (text.dropWhile isSlugChar)).flatMap
            ('-' :: ·) := by
  induction text with
  | nil =>
      simp [collapse]
  | cons c rest inductionHypothesis =>
      obtain ⟨afterGap, afterLetter⟩ := inductionHypothesis
      by_cases kept : isSlugChar c = true
      · simp [collapse, kept, runs_cons_of_kept kept, afterLetter]
      · rw [Bool.not_eq_true] at kept
        simp [collapse, kept, runs_cons_of_dropped kept, afterGap]

/-- At the start, runs are joined by hyphens, whatever was left out before. -/
theorem collapse_false
    (pending : Bool)
    (text : List Char) :
    collapse false pending text =
      ['-'].intercalate (runs isSlugChar text) := by
  induction text generalizing pending with
  | nil =>
      rfl
  | cons c rest inductionHypothesis =>
      by_cases kept : isSlugChar c = true
      · simp [collapse, kept, runs_cons_of_kept kept, intercalate_cons,
          (collapse_true rest).2]
      · rw [Bool.not_eq_true] at kept
        simp [collapse, kept, runs_cons_of_dropped kept, inductionHypothesis]

/-- A slug is the runs of letters and digits of the lowercased name, joined by hyphens. -/
theorem slugChars_eq_intercalate (name : List Char) :
    slugChars name =
      ['-'].intercalate (runs isSlugChar (name.flatMap lowercase)) :=
  collapse_false false _

end AccessTopology.Text
