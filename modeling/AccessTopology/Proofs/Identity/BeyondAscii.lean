import AccessTopology.Proofs.Identity.LetterCase
import AccessTopology.Validation.Rule

namespace AccessTopology

/-!
# Slugs and characters beyond ASCII

A slug is meant to drop every character beyond ASCII.  Lowercasing comes first,
however, and turns two of these characters into ASCII letters: the Kelvin sign
and the capital I with a dot above.  A name without these two has the slug that
it has with a space in the place of every character beyond ASCII, a name with
one of them never has, and a name is reported for want of letters and digits
exactly when it has no ASCII letter, no ASCII digit and neither of the two.
-/

namespace Text

/-- The characters beyond ASCII that lowercasing turns into an ASCII letter. -/
def lettersBeyondAscii : List Char :=
  ['\u212a', '\u0130']

/-- An ASCII character itself, a space in the place of any other. -/
def asciiOrSpace (c : Char) : Char :=
  if c.toNat < 128 then c else ' '

/-- What holds of both letters beyond ASCII holds of each. -/
theorem forall_lettersBeyondAscii_iff {property : Char → Prop} :
    (∀ c ∈ lettersBeyondAscii, property c) ↔
      property '\u212a' ∧ property '\u0130' := by
  simp [lettersBeyondAscii]

/-- A name with a space in the place of every character beyond ASCII. -/
def blankBeyondAscii (name : String) : String :=
  String.ofList (name.toList.map asciiOrSpace)

/-- Whether a character leaves a letter or a digit in a slug. -/
def leavesLetter (c : Char) : Bool :=
  c.isAlphanum || c ∈ lettersBeyondAscii

/-- The letters and digits of a slug are those of the lowercased name. -/
theorem filter_collapse
    (started pending : Bool)
    (name : List Char) :
    (collapse started pending name).filter isSlugChar =
      name.filter isSlugChar := by
  have hyphenDropped : isSlugChar '-' = false := by
    decide
  induction name generalizing started pending with
  | nil =>
      rfl
  | cons c rest inductionHypothesis =>
      by_cases kept : isSlugChar c = true
      · by_cases separated : (started && pending) = true
        · simp [collapse, kept, separated, hyphenDropped,
            inductionHypothesis]
        · simp [collapse, kept, separated, inductionHypothesis]
      · simp [collapse, kept, inductionHypothesis]

/-- A slug is empty when nothing of the lowercased name can stand in it. -/
theorem collapse_eq_nil_iff
    {started pending : Bool}
    {name : List Char} :
    collapse started pending name = [] ↔
      ∀ c ∈ name, isSlugChar c = false := by
  constructor
  · intro empty
    have nothingKept := filter_collapse started pending name
    rw [empty, List.filter_nil, eq_comm, List.filter_eq_nil_iff]
      at nothingKept
    intro c listed
    simpa using nothingKept c listed
  · intro dropped
    induction name generalizing started pending with
    | nil =>
        rfl
    | cons c rest inductionHypothesis =>
        obtain ⟨first, others⟩ := List.forall_mem_cons.mp dropped
        simp [collapse, first, inductionHypothesis others]

/-- All other characters are lowercased among ASCII, or stay beyond it. -/
theorem lowercase_eq_toLower
    {c : Char}
    (notListed : c ∉ lettersBeyondAscii) :
    lowercase c = [c.toLower] := by
  simp only [lettersBeyondAscii, List.mem_cons, List.not_mem_nil, or_false,
    not_or] at notListed
  simp [lowercase, notListed]

/-- What a character adds to the letters and digits of a slug: one, or none. -/
theorem countP_lowercase (c : Char) :
    (lowercase c).countP isSlugChar = if leavesLetter c then 1 else 0 := by
  by_cases isListed : c ∈ lettersBeyondAscii
  · have addsOne :
        ∀ c ∈ lettersBeyondAscii, (lowercase c).countP isSlugChar = 1 :=
      forall_lettersBeyondAscii_iff.mpr (by decide)
    simp [leavesLetter, isListed, addsOne]
  · simp [leavesLetter, isListed, lowercase_eq_toLower isListed,
      isSlugChar_toLower, List.countP_cons]

/-- A slug has as many letters and digits as the name has of their sources. -/
theorem countP_slugChars (name : List Char) :
    (slugChars name).countP isSlugChar = name.countP leavesLetter := by
  have collapsed :
      (slugChars name).countP isSlugChar =
        (name.flatMap lowercase).countP isSlugChar := by
    simp only [List.countP_eq_length_filter, slugChars, filter_collapse]
  rw [collapsed]
  clear collapsed
  induction name with
  | nil =>
      rfl
  | cons c rest inductionHypothesis =>
      rw [List.flatMap_cons, List.countP_append, inductionHypothesis,
        countP_lowercase, List.countP_cons, Nat.add_comm]

/-- A slug is empty when no character of the name leaves a letter in it. -/
theorem slugify_eq_empty_iff (name : String) :
    slugify name = "" ↔ ∀ c ∈ name.toList, leavesLetter c = false := by
  have emptyChars : slugify name = "" ↔ slugChars name.toList = [] := by
    rw [slugify, ← String.toList_eq_nil_iff, String.toList_ofList]
  have noLetters :
      slugChars name.toList = [] ↔
        (slugChars name.toList).countP isSlugChar = 0 := by
    rw [slugChars, collapse_eq_nil_iff, List.countP_eq_length_filter,
      filter_collapse, ← List.countP_eq_length_filter, List.countP_eq_zero]
    simp
  rw [emptyChars, noLetters, countP_slugChars, List.countP_eq_zero]
  simp

/-- With spaces beyond ASCII only ASCII letters and digits are left. -/
theorem leavesLetter_asciiOrSpace (c : Char) :
    leavesLetter (asciiOrSpace c) = c.isAlphanum := by
  by_cases ascii : c.toNat < 128
  · have beyond : ∀ c ∈ lettersBeyondAscii, ¬c.toNat < 128 :=
      forall_lettersBeyondAscii_iff.mpr (by decide)
    have notListed : c ∉ lettersBeyondAscii :=
      fun listed => beyond c listed ascii
    simp [leavesLetter, asciiOrSpace, ascii, notListed]
  · have isSpace : asciiOrSpace c = ' ' :=
      if_neg ascii
    rw [isSpace, isAlphanum_of_beyond (Nat.le_of_not_lt ascii)]
    decide

/-- What leaves a letter is an ASCII letter or digit, or one of the two. -/
theorem countP_leavesLetter (name : List Char) :
    name.countP leavesLetter =
      name.countP Char.isAlphanum + name.countP (· ∈ lettersBeyondAscii) := by
  have apart :
      ∀ c ∈ lettersBeyondAscii, c.isAlphanum = false :=
    forall_lettersBeyondAscii_iff.mpr (by decide)
  induction name with
  | nil =>
      rfl
  | cons c rest inductionHypothesis =>
      by_cases isListed : c ∈ lettersBeyondAscii
      · simp [leavesLetter, isListed, apart c isListed,
          inductionHypothesis, Nat.add_assoc]
      · simp [List.countP_cons, leavesLetter, isListed, inductionHypothesis,
          Nat.add_right_comm]

/-- Any character beyond ASCII but the two reads like a space in a slug. -/
theorem collapse_asciiOrSpace
    {name : List Char}
    (absent : ∀ c ∈ lettersBeyondAscii, c ∉ name)
    (started pending : Bool) :
    collapse started pending ((name.map asciiOrSpace).flatMap lowercase) =
      collapse started pending (name.flatMap lowercase) := by
  induction name generalizing started pending with
  | nil =>
      rfl
  | cons c rest inductionHypothesis =>
      have restAbsent : ∀ c ∈ lettersBeyondAscii, c ∉ rest :=
        fun other listed inRest =>
          absent other listed (List.mem_cons_of_mem c inRest)
      have readAs : lowercase c = [c.toLower] :=
        lowercase_eq_toLower
          (fun listed => absent c listed List.mem_cons_self)
      by_cases ascii : c.toNat < 128
      · simp [asciiOrSpace, ascii, readAs, collapse,
          inductionHypothesis restAbsent]
      · have dropped : isSlugChar c.toLower = false := by
          rw [isSlugChar_toLower,
            isAlphanum_of_beyond (Nat.le_of_not_lt ascii)]
        have spaceReadAs : lowercase ' ' = [' '] := by
          decide
        have spaceDropped : isSlugChar ' ' = false := by
          decide
        simp [asciiOrSpace, ascii, readAs, spaceReadAs, collapse, dropped,
          spaceDropped, inductionHypothesis restAbsent]

/--
A name has the slug that it has with spaces beyond ASCII exactly when it has
neither of the two characters that lowercasing turns into ASCII letters.
-/
theorem slugify_blankBeyondAscii_eq_iff (name : String) :
    slugify (blankBeyondAscii name) = slugify name ↔
      ∀ c ∈ lettersBeyondAscii, c ∉ name.toList := by
  constructor
  · intro same
    have blanked :
        (slugify (blankBeyondAscii name)).toList.countP isSlugChar =
          name.toList.countP Char.isAlphanum := by
      simp only [slugify, blankBeyondAscii, String.toList_ofList,
        countP_slugChars, List.countP_map, Function.comp_def,
        leavesLetter_asciiOrSpace]
    have whole :
        (slugify name).toList.countP isSlugChar =
          name.toList.countP leavesLetter := by
      simp only [slugify, String.toList_ofList, countP_slugChars]
    have noneListed :
        name.toList.countP (· ∈ lettersBeyondAscii) = 0 := by
      rw [same, whole, countP_leavesLetter] at blanked
      exact Nat.add_eq_left.mp blanked
    intro c listed inName
    have notListed := List.countP_eq_zero.mp noneListed c inName
    simp [listed] at notListed
  · intro absent
    rw [slugify, slugify, blankBeyondAscii, String.toList_ofList, slugChars,
      slugChars, collapse_asciiOrSpace absent]

end Text

namespace Rule

/-- A declared name is reported for its lack of letters and digits. -/
def ReportsNameless
    (spec : Spec)
    (what name : String) :
    Prop :=
  ∃ violation ∈ names.violations spec,
    violation.severity = .error ∧
      violation.subject = some name ∧
        violation.message =
          what ++ " name '" ++ name ++ "' has no letters or digits"

theorem reportsNameless_iff
    (spec : Spec)
    (what name : String) :
    ReportsNameless spec what name ↔
      (what, name) ∈ spec.declaredNames ∧ Text.slugify name = "" := by
  constructor
  · rintro ⟨violation, listed, _, sameSubject, sameMessage⟩
    simp only [violations, nameViolations, List.mem_map, List.mem_filter,
      decide_eq_true_eq] at listed
    obtain ⟨⟨otherWhat, otherName⟩, ⟨declared, empty⟩, rfl⟩ := listed
    simp only [error, Option.some.injEq] at sameSubject sameMessage
    subst sameSubject
    simp only [String.append_left_inj] at sameMessage
    subst sameMessage
    exact ⟨declared, empty⟩
  · rintro ⟨declared, empty⟩
    refine ⟨_, List.mem_map_of_mem (List.mem_filter.mpr ⟨declared, ?_⟩),
      rfl, rfl, rfl⟩
    simpa using empty

end Rule

/--
Where a slug does drop what is beyond ASCII: in every name but those with a
Kelvin sign or a capital I with a dot above.  A slug is empty, and a declared
name is reported for want of letters and digits, exactly when the name has no
ASCII letter, no ASCII digit and neither of the two.
-/
theorem Text.slugs_beyond_ascii (name : String) :
    (slugify (blankBeyondAscii name) = slugify name ↔
        ∀ c ∈ lettersBeyondAscii, c ∉ name.toList) ∧
      (slugify name = "" ↔
        ∀ c ∈ name.toList,
          c.isAlphanum = false ∧ c ∉ lettersBeyondAscii) ∧
        ∀ (spec : Spec) (what : String),
          Rule.ReportsNameless spec what name ↔
            (what, name) ∈ spec.declaredNames ∧
              ∀ c ∈ name.toList,
                c.isAlphanum = false ∧ c ∉ lettersBeyondAscii := by
  have emptyIff :
      slugify name = "" ↔
        ∀ c ∈ name.toList,
          c.isAlphanum = false ∧ c ∉ lettersBeyondAscii := by
    rw [slugify_eq_empty_iff]
    simp [leavesLetter]
  refine ⟨slugify_blankBeyondAscii_eq_iff name, emptyIff, ?_⟩
  intro spec what
  rw [Rule.reportsNameless_iff, emptyIff]

/-- A name of a Kelvin sign has the slug of the letter K and is not reported. -/
theorem Text.kelvin_sign_leaves_letter :
    slugify "\u212a" = "k" ∧
      slugify (blankBeyondAscii "\u212a") = "" ∧
        Rule.names.violations { groups := [{ name := "\u212a" }] } = [] := by
  decide +kernel

end AccessTopology
