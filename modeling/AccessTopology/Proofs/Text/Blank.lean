import AccessTopology.Text.Blank
import Mathlib.Data.List.Basic

namespace AccessTopology.Text

/-!
# Trimmed text

The blank characters are listed one by one.  A trimmed text is the part of a
text that blank characters surround and that has none at either end, so nothing
is left of a text exactly when all of it is blank.
-/

/-- The characters with the `White_Space` property, one by one. -/
def whiteSpace : List Char :=
  ['\t', '\n', '\u000b', '\u000c', '\r', ' ', '\u0085', '\u00a0', '\u1680',
    '\u2000', '\u2001', '\u2002', '\u2003', '\u2004', '\u2005', '\u2006',
    '\u2007', '\u2008', '\u2009', '\u200a', '\u2028', '\u2029', '\u202f',
    '\u205f', '\u3000']

/-- The ranges of blank characters hold the listed characters and no others. -/
theorem isBlank_iff {c : Char} :
    isBlank c = true ↔ c ∈ whiteSpace := by
  constructor
  · intro blank
    have codeListed : c.toNat ∈ whiteSpace.map Char.toNat := by
      have codes :
          whiteSpace.map Char.toNat =
            [0x09, 0x0A, 0x0B, 0x0C, 0x0D, 0x20, 0x85, 0xA0, 0x1680, 0x2000,
              0x2001, 0x2002, 0x2003, 0x2004, 0x2005, 0x2006, 0x2007, 0x2008,
              0x2009, 0x200A, 0x2028, 0x2029, 0x202F, 0x205F, 0x3000] :=
        rfl
      simp only [isBlank, blankRanges, List.any_cons, List.any_nil,
        Bool.or_false, Bool.or_eq_true, Bool.and_eq_true,
        decide_eq_true_eq] at blank
      simp only [codes, List.mem_cons, List.not_mem_nil, or_false]
      omega
    obtain ⟨listed, inList, sameCode⟩ := List.mem_map.mp codeListed
    exact Char.toNat_inj.mp sameCode ▸ inList
  · intro listed
    have allBlank : whiteSpace.all isBlank = true := by
      decide
    exact List.all_eq_true.mp allBlank c listed

theorem isBlank_eq_false_iff {c : Char} :
    isBlank c = false ↔ c ∉ whiteSpace := by
  rw [← isBlank_iff, Bool.not_eq_true]

/-- What is left of a text without the blank characters around it. -/
structure IsTrimmed (text trimmed : String) : Prop where
  surrounded :
    ∃ before after,
      before ⊆ whiteSpace ∧
        after ⊆ whiteSpace ∧
          text.toList = before ++ trimmed.toList ++ after
  start :
    ∀ c ∈ trimmed.toList.head?, c ∉ whiteSpace
  finish :
    ∀ c ∈ trimmed.toList.getLast?, c ∉ whiteSpace

/-- Blank characters before a character that is not blank are dropped. -/
theorem trimLeft_append
    {before rest : List Char}
    (blank : before ⊆ whiteSpace)
    (solid : ∀ c ∈ rest.head?, c ∉ whiteSpace) :
    trimLeft (before ++ rest) = rest := by
  rw [trimLeft, List.dropWhile_append_of_pos
    (fun c listed => isBlank_iff.mpr (blank listed))]
  cases rest with
  | nil =>
      rfl
  | cons first later =>
      have firstSolid : isBlank first = false :=
        isBlank_eq_false_iff.mpr (solid first rfl)
      rw [List.dropWhile_cons, firstSolid, if_neg Bool.false_ne_true]

/-- What is dropped from the start is blank, and what is left starts solid. -/
theorem exists_eq_append_trimLeft (text : List Char) :
    ∃ before,
      before ⊆ whiteSpace ∧
        text = before ++ trimLeft text ∧
          ∀ c ∈ (trimLeft text).head?, c ∉ whiteSpace := by
  refine ⟨text.takeWhile isBlank, ?_,
    List.takeWhile_append_dropWhile.symm, ?_⟩
  · intro c taken
    exact isBlank_iff.mp
      (List.all_eq_true.mp List.all_takeWhile c taken)
  · intro c isFirst
    have notBlank := List.head?_dropWhile_not isBlank text
    rw [← trimLeft, isFirst] at notBlank
    exact isBlank_eq_false_iff.mp (by simpa using notBlank)

theorem isTrimmed_trim (text : String) : IsTrimmed text (trim text) := by
  obtain ⟨before, beforeBlank, leftSplit, leftSolid⟩ :=
    exists_eq_append_trimLeft text.toList
  obtain ⟨after, afterBlank, rightSplit, rightSolid⟩ :=
    exists_eq_append_trimLeft (trimLeft text.toList).reverse
  have spelled :
      (trim text).toList = (trimLeft (trimLeft text.toList).reverse).reverse := by
    rw [trim, trimChars, String.toList_ofList]
  have split :
      trimLeft text.toList = (trim text).toList ++ after.reverse := by
    rw [spelled, ← List.reverse_append, ← rightSplit, List.reverse_reverse]
  refine ⟨⟨before, after.reverse, beforeBlank, ?_, ?_⟩, ?_, ?_⟩
  · exact fun c listed => afterBlank (List.mem_reverse.mp listed)
  · rw [List.append_assoc, ← split]
    exact leftSplit
  · intro c isFirst
    apply leftSolid c
    rw [split, List.head?_append, Option.mem_def.mp isFirst]
    rfl
  · intro c isLast
    apply rightSolid c
    rw [spelled, List.getLast?_reverse] at isLast
    exact isLast

theorem IsTrimmed.trim_eq
    {text trimmed : String}
    (isTrimmed : IsTrimmed text trimmed) :
    trim text = trimmed := by
  obtain ⟨before, after, beforeBlank, afterBlank, spelled⟩ :=
    isTrimmed.surrounded
  have rightTrimmed :
      trimLeft (trimmed.toList ++ after).reverse = trimmed.toList.reverse := by
    rw [List.reverse_append]
    refine trimLeft_append ?_ ?_
    · exact fun c listed => afterBlank (List.mem_reverse.mp listed)
    · rw [List.head?_reverse]
      exact isTrimmed.finish
  rw [trim, trimChars, spelled]
  cases written : trimmed.toList with
  | nil =>
      -- Nothing solid stops the first pass, so it takes the blank end as well.
      have leftTrimmed : trimLeft (before ++ after) = [] := by
        rw [← List.append_nil (before ++ after)]
        exact trimLeft_append
          (List.append_subset.mpr ⟨beforeBlank, afterBlank⟩) nofun
      rw [List.append_nil, leftTrimmed, ← String.toList_inj, written]
      rfl
  | cons first later =>
      have leftTrimmed :
          trimLeft (before ++ trimmed.toList ++ after) =
            trimmed.toList ++ after := by
        rw [List.append_assoc]
        refine trimLeft_append beforeBlank ?_
        intro c isFirst
        apply isTrimmed.start c
        simpa [written] using isFirst
      rw [← written, leftTrimmed, rightTrimmed, List.reverse_reverse,
        String.ofList_toList]

/-- Trimming leaves what blank characters surround, and only that. -/
theorem isTrimmed_iff {text trimmed : String} :
    IsTrimmed text trimmed ↔ trim text = trimmed :=
  ⟨IsTrimmed.trim_eq, fun same => same ▸ isTrimmed_trim text⟩

/-- Whether a text has nothing but blank characters in it. -/
def allBlank (text : String) : Bool :=
  text.toList.all (· ∈ whiteSpace)

/-- Nothing is left of a text exactly when all of it is blank. -/
theorem trim_eq_empty_iff {text : String} :
    trim text = "" ↔ allBlank text = true := by
  rw [← isTrimmed_iff, allBlank]
  simp only [List.all_eq_true, decide_eq_true_eq]
  constructor
  · rintro ⟨⟨before, after, beforeBlank, afterBlank, spelled⟩, -, -⟩
    rw [spelled]
    intro c listed
    have inEither : c ∈ before ++ after := by
      simpa using listed
    exact (List.append_subset.mpr ⟨beforeBlank, afterBlank⟩) inEither
  · intro blank
    exact ⟨⟨text.toList, [], blank, by simp, by simp⟩, nofun, nofun⟩

/-- A text says something exactly when not all of it is blank. -/
theorem isSome_nonBlank? (text : String) :
    (nonBlank? text).isSome = !allBlank text := by
  rw [nonBlank?]
  cases blank : allBlank text with
  | true =>
      rw [if_pos (trim_eq_empty_iff.mpr blank)]
      rfl
  | false =>
      have written : trim text ≠ "" := by
        rw [Ne, trim_eq_empty_iff, blank]
        exact Bool.false_ne_true
      rw [if_neg written]
      rfl

end AccessTopology.Text
