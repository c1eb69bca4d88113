import AccessTopology.Proofs.Version.Grammar
import Mathlib.Data.List.Lex

namespace AccessTopology.Version

/-!
# Which version comes first

Versions are compared by their numbers, then by their pre-releases, identifier
by identifier: numbers by value and before all other identifiers, these by
their characters.  A pre-release comes before the version itself.  Builds do
not count for precedence; the full order, which compares them last, tells
versions of one precedence apart.
-/

/-- A comparison tells which of two values is below the other, and when they are the same. -/
structure Tells
    {α : Type}
    (comparison : α → α → Ordering)
    (below : α → α → Prop)
    (allowed : α → Prop) :
    Prop where
  lower :
    ∀ {left right},
      allowed left → allowed right →
        (comparison left right = .lt ↔ below left right)
  same :
    ∀ {left right},
      allowed left → allowed right →
        (comparison left right = .eq ↔ left = right)

/-- Lists are told apart by their first difference where their values are. -/
theorem Tells.compareLex
    {α : Type}
    {comparison : α → α → Ordering}
    {below : α → α → Prop}
    {allowed : α → Prop}
    (tells : Tells comparison below allowed) :
    Tells (List.compareLex comparison) (List.Lex below)
      (fun values => ∀ value ∈ values, allowed value) := by
  have told :
      ∀ left right : List α,
        (∀ value ∈ left, allowed value) → (∀ value ∈ right, allowed value) →
          (List.compareLex comparison left right = .lt ↔
              List.Lex below left right) ∧
            (List.compareLex comparison left right = .eq ↔ left = right) := by
    intro left
    induction left with
    | nil =>
        intro right _ _
        cases right with
        | nil =>
            simp [List.compareLex_nil_nil]
        | cons value values =>
            simp [List.compareLex_nil_cons]
    | cons first others inductionHypothesis =>
        intro right leftAllowed rightAllowed
        cases right with
        | nil =>
            simp [List.compareLex_cons_nil]
        | cons value values =>
            obtain ⟨firstAllowed, othersAllowed⟩ :=
              List.forall_mem_cons.mp leftAllowed
            obtain ⟨valueAllowed, valuesAllowed⟩ :=
              List.forall_mem_cons.mp rightAllowed
            obtain ⟨lowerRest, sameRest⟩ :=
              inductionHypothesis values othersAllowed valuesAllowed
            rw [List.compareLex_cons_cons, Ordering.then_eq_lt,
              Ordering.then_eq_eq, List.cons_lex_cons_iff, List.cons.injEq,
              tells.lower firstAllowed valueAllowed,
              tells.same firstAllowed valueAllowed, lowerRest, sameRest]
            exact ⟨Iff.rfl, Iff.rfl⟩
  exact
    ⟨fun leftAllowed rightAllowed =>
      (told _ _ leftAllowed rightAllowed).1,
      fun leftAllowed rightAllowed =>
        (told _ _ leftAllowed rightAllowed).2⟩

/-- A comparison of lists that goes on to the next values where two are the same. -/
theorem eq_compareLex
    {α : Type}
    {comparison : α → α → Ordering}
    {compareAll : List α → List α → Ordering}
    (bothEnd : compareAll [] [] = .eq)
    (leftEnds : ∀ value values, compareAll [] (value :: values) = .lt)
    (rightEnds : ∀ value values, compareAll (value :: values) [] = .gt)
    (goesOn :
      ∀ first others value values,
        compareAll (first :: others) (value :: values) =
          (comparison first value).then (compareAll others values))
    (left right : List α) :
    compareAll left right = List.compareLex comparison left right := by
  induction left generalizing right with
  | nil =>
      cases right with
      | nil =>
          exact bothEnd
      | cons value values =>
          exact leftEnds value values
  | cons first others inductionHypothesis =>
      cases right with
      | nil =>
          exact rightEnds first others
      | cons value values =>
          rw [goesOn, List.compareLex_cons_cons, inductionHypothesis]

theorem compareParts_eq_compareLex
    (comparison : List Char → List Char → Ordering)
    (left right : List (List Char)) :
    compareParts comparison left right =
      List.compareLex comparison left right :=
  eq_compareLex rfl (fun _ _ => rfl) (fun _ _ => rfl) (fun _ _ _ _ => rfl)
    left right

theorem compareText_eq_compareLex (left right : List Char) :
    compareText left right =
      List.compareLex (fun first second => compare first.toNat second.toNat)
        left right :=
  eq_compareLex rfl (fun _ _ => rfl) (fun _ _ => rfl) (fun _ _ _ _ => rfl)
    left right

/-- Characters are told apart by their code points. -/
theorem compare_toNat_tells :
    Tells (fun left right : Char => compare left.toNat right.toNat) (· < ·)
      (fun _ => True) := by
  constructor
  · intro left right _ _
    exact Nat.compare_eq_lt
  · intro left right _ _
    rw [Nat.compare_eq_eq, Char.toNat_inj]

/-- Texts are told apart by their first different character. -/
theorem compareText_tells :
    Tells compareText (· < ·) (fun _ => True) := by
  have anyText : ∀ text : List Char, ∀ c ∈ text, True :=
    fun _ _ _ => trivial
  constructor
  · intro left right _ _
    rw [compareText_eq_compareLex]
    exact compare_toNat_tells.compareLex.lower (anyText left) (anyText right)
  · intro left right _ _
    rw [compareText_eq_compareLex]
    exact compare_toNat_tells.compareLex.same (anyText left) (anyText right)

/-- Of texts of one length, the last characters count last. -/
theorem compareText_concat
    {left right : List Char}
    (sameLength : left.length = right.length)
    (leftLast rightLast : Char) :
    compareText (left ++ [leftLast]) (right ++ [rightLast]) =
      (compareText left right).then
        (compare leftLast.toNat rightLast.toNat) := by
  induction left generalizing right with
  | nil =>
      obtain rfl := List.length_eq_zero_iff.mp sameLength.symm
      simp [compareText]
  | cons first others inductionHypothesis =>
      cases right with
      | nil =>
          cases sameLength
      | cons c rest =>
          have sameRest : others.length = rest.length :=
            Nat.succ.inj sameLength
          rw [List.cons_append, List.cons_append, compareText, compareText,
            inductionHypothesis sameRest, Ordering.then_assoc]

theorem compareDigits_concat
    (left right : List Char)
    (leftLast rightLast : Char) :
    compareDigits (left ++ [leftLast]) (right ++ [rightLast]) =
      (compareDigits left right).then
        (compare leftLast.toNat rightLast.toNat) := by
  simp only [compareDigits, List.length_append, List.length_singleton]
  rcases Nat.lt_trichotomy left.length right.length with
    shorter | sameLength | longer
  · have shorterWhole : left.length + 1 < right.length + 1 := by omega
    simp [Nat.compare_eq_lt.mpr shorter, Nat.compare_eq_lt.mpr shorterWhole]
  · simp [sameLength, compareText_concat sameLength]
  · have longerWhole : right.length + 1 < left.length + 1 := by omega
    simp [Nat.compare_eq_gt.mpr longer, Nat.compare_eq_gt.mpr longerWhole]

/-- Numbers are compared by their leading digits, then by the last one. -/
theorem compare_div_then_compare_mod (left right : Nat) :
    (compare (left / 10) (right / 10)).then
        (compare (left % 10) (right % 10)) =
      compare left right := by
  rcases Nat.lt_trichotomy left right with below | rfl | above
  · rw [Nat.compare_eq_lt.mpr below, Ordering.then_eq_lt, Nat.compare_eq_lt,
      Nat.compare_eq_eq, Nat.compare_eq_lt]
    omega
  · simp
  · rw [Nat.compare_eq_gt.mpr above, Ordering.then_eq_gt, Nat.compare_eq_gt,
      Nat.compare_eq_eq, Nat.compare_eq_gt]
    omega

/-- Digits are compared as their values are. -/
theorem compare_toNat_digitChar
    {left right : Nat}
    (leftSmall : left < 10)
    (rightSmall : right < 10) :
    compare left.digitChar.toNat right.digitChar.toNat =
      compare left right := by
  rw [Nat.toNat_digitChar_of_lt_ten leftSmall,
    Nat.toNat_digitChar_of_lt_ten rightSmall]
  rcases Nat.lt_trichotomy left right with below | rfl | above
  · rw [Nat.compare_eq_lt.mpr below, Nat.compare_eq_lt]
    omega
  · simp
  · rw [Nat.compare_eq_gt.mpr above, Nat.compare_eq_gt]
    omega

/-- Digits are compared as the numbers that they are the digits of. -/
theorem compareDigits_toDigits (left right : Nat) :
    compareDigits (Nat.toDigits 10 left) (Nat.toDigits 10 right) =
      compare left right := by
  have length_one_lt :
      ∀ number, 10 ≤ number → 1 < (Nat.toDigits 10 number).length := by
    intro number large
    have notOne :=
      (Nat.length_toDigits_le_iff (n := number) (k := 1) (b := 10) (by decide)
        (by decide)).not
    omega
  induction left using Nat.strongRecOn generalizing right with
  | ind left inductionHypothesis =>
      -- Both numbers lose their last digit, until one of them has no other.
      by_cases leftSmall : left < 10
      · by_cases rightSmall : right < 10
        · rw [Nat.toDigits_of_lt_base leftSmall,
            Nat.toDigits_of_lt_base rightSmall]
          simp [compareDigits, compareText,
            compare_toNat_digitChar leftSmall rightSmall]
        · have below : left < right := by omega
          have shorter := length_one_lt right (by omega)
          rw [Nat.toDigits_of_lt_base leftSmall, compareDigits,
            List.length_singleton, Nat.compare_eq_lt.mpr shorter,
            Nat.compare_eq_lt.mpr below]
          rfl
      · by_cases rightSmall : right < 10
        · have above : right < left := by omega
          have longer := length_one_lt left (by omega)
          rw [Nat.toDigits_of_lt_base rightSmall, compareDigits,
            List.length_singleton, Nat.compare_eq_gt.mpr longer,
            Nat.compare_eq_gt.mpr above]
          rfl
        · rw [Nat.toDigits_of_base_le (by decide) (by omega : 10 ≤ left),
            Nat.toDigits_of_base_le (by decide) (by omega : 10 ≤ right),
            compareDigits_concat, inductionHypothesis _ (by omega),
            compare_toNat_digitChar (by omega) (by omega),
            compare_div_then_compare_mod]

/-- An identifier that is not a number. -/
def IsWord (part : List Char) : Prop :=
  ∃ c ∈ part, c.isDigit = false

/-- Which of two identifiers of a pre-release has the lower precedence. -/
inductive IdentifierPrecedes : List Char → List Char → Prop
  | numbers {left right : Nat}
      (lower : left < right) :
      IdentifierPrecedes (Nat.toDigits 10 left) (Nat.toDigits 10 right)
  | numberFirst {number : Nat} {word : List Char}
      (isWord : IsWord word) :
      IdentifierPrecedes (Nat.toDigits 10 number) word
  | words {left right : List Char}
      (leftWord : IsWord left)
      (rightWord : IsWord right)
      (lower : left < right) :
      IdentifierPrecedes left right

theorem isNumeric_toDigits (number : Nat) :
    isNumeric (Nat.toDigits 10 number) = true :=
  isNumeric_eq_true_iff.mpr (Text.isNumeral_toDigits number).allDigits

theorem isNumeric_eq_false_iff
    {part : List Char} :
    isNumeric part = false ↔ IsWord part := by
  simp [isNumeric, IsWord]

theorem not_isWord_toDigits (number : Nat) :
    ¬IsWord (Nat.toDigits 10 number) := by
  rw [← isNumeric_eq_false_iff, isNumeric_toDigits]
  simp

theorem IsPreReleaseIdentifier.number_or_word
    {part : List Char}
    (isIdentifier : IsPreReleaseIdentifier part) :
    (∃ number, part = Nat.toDigits 10 number) ∨ IsWord part := by
  cases numeric : isNumeric part with
  | true =>
      exact .inl (isIdentifier.unpadded (isNumeric_eq_true_iff.mp numeric))
  | false =>
      exact .inr (isNumeric_eq_false_iff.mp numeric)

theorem comparePreReleasePart_numbers (left right : Nat) :
    comparePreReleasePart (Nat.toDigits 10 left) (Nat.toDigits 10 right) =
      compare left right := by
  simp only [comparePreReleasePart, isNumeric_toDigits, compareDigits_toDigits]

section Words

variable {left right word : List Char}

theorem comparePreReleasePart_number_word
    (number : Nat)
    (isWord : IsWord word) :
    comparePreReleasePart (Nat.toDigits 10 number) word = .lt := by
  simp only [comparePreReleasePart, isNumeric_toDigits,
    isNumeric_eq_false_iff.mpr isWord]

theorem comparePreReleasePart_word_number
    (isWord : IsWord word)
    (number : Nat) :
    comparePreReleasePart word (Nat.toDigits 10 number) = .gt := by
  simp only [comparePreReleasePart, isNumeric_toDigits,
    isNumeric_eq_false_iff.mpr isWord]

theorem comparePreReleasePart_words
    (leftWord : IsWord left)
    (rightWord : IsWord right) :
    comparePreReleasePart left right = compareText left right := by
  simp only [comparePreReleasePart, isNumeric_eq_false_iff.mpr leftWord,
    isNumeric_eq_false_iff.mpr rightWord]

end Words

/-- Identifiers of pre-releases are told apart by their precedence. -/
theorem comparePreReleasePart_tells :
    Tells comparePreReleasePart IdentifierPrecedes IsPreReleaseIdentifier := by
  constructor
  · intro left right leftIdentifier rightIdentifier
    constructor
    · intro lower
      rcases leftIdentifier.number_or_word with ⟨first, rfl⟩ | leftWord
      · rcases rightIdentifier.number_or_word with ⟨second, rfl⟩ | rightWord
        · rw [comparePreReleasePart_numbers, Nat.compare_eq_lt] at lower
          exact .numbers lower
        · exact .numberFirst rightWord
      · rcases rightIdentifier.number_or_word with ⟨second, rfl⟩ | rightWord
        · rw [comparePreReleasePart_word_number leftWord] at lower
          cases lower
        · rw [comparePreReleasePart_words leftWord rightWord,
            compareText_tells.lower trivial trivial] at lower
          exact .words leftWord rightWord lower
    · intro precedes
      cases precedes with
      | numbers lower =>
          rw [comparePreReleasePart_numbers, Nat.compare_eq_lt]
          exact lower
      | numberFirst isWord =>
          exact comparePreReleasePart_number_word _ isWord
      | words leftWord rightWord lower =>
          rw [comparePreReleasePart_words leftWord rightWord,
            compareText_tells.lower trivial trivial]
          exact lower
  · intro left right leftIdentifier rightIdentifier
    rcases leftIdentifier.number_or_word with ⟨first, rfl⟩ | leftWord
    · rcases rightIdentifier.number_or_word with ⟨second, rfl⟩ | rightWord
      · rw [comparePreReleasePart_numbers, Nat.compare_eq_eq, Text.toDigits_inj]
      · rw [comparePreReleasePart_number_word first rightWord]
        simp only [reduceCtorEq, false_iff]
        rintro rfl
        exact not_isWord_toDigits first rightWord
    · rcases rightIdentifier.number_or_word with ⟨second, rfl⟩ | rightWord
      · rw [comparePreReleasePart_word_number leftWord second]
        simp only [reduceCtorEq, false_iff]
        rintro rfl
        exact not_isWord_toDigits second leftWord
      · rw [comparePreReleasePart_words leftWord rightWord]
        exact compareText_tells.same trivial trivial

/-- Which of two pre-releases has the lower precedence; none is the highest. -/
inductive PreReleasePrecedes : List (List Char) → List (List Char) → Prop
  | released {identifiers : List (List Char)}
      (given : identifiers ≠ []) :
      PreReleasePrecedes identifiers []
  | identifiers {left right : List (List Char)}
      (given : left ≠ [])
      (lower : List.Lex IdentifierPrecedes left right) :
      PreReleasePrecedes left right

/-- Pre-releases are told apart by their precedence. -/
theorem comparePreRelease_tells :
    Tells comparePreRelease PreReleasePrecedes
      (fun parts => ∀ part ∈ parts, IsPreReleaseIdentifier part) := by
  have identifiersTell := comparePreReleasePart_tells.compareLex
  have bothGiven :
      ∀ first others part parts,
        comparePreRelease (first :: others) (part :: parts) =
          List.compareLex comparePreReleasePart (first :: others)
            (part :: parts) :=
    fun _ _ _ _ => compareParts_eq_compareLex _ _ _
  constructor
  · intro left right leftFormed rightFormed
    cases left with
    | nil =>
        have notLower : ¬comparePreRelease [] right = .lt := by
          cases right <;> simp [comparePreRelease]
        refine iff_of_false notLower ?_
        rintro (given | ⟨given, -⟩) <;> exact given rfl
    | cons first others =>
        have given : first :: others ≠ [] :=
          List.cons_ne_nil first others
        cases right with
        | nil =>
            exact iff_of_true rfl (.released given)
        | cons part parts =>
            rw [bothGiven, identifiersTell.lower leftFormed rightFormed]
            constructor
            · exact .identifiers given
            · rintro (_ | ⟨_, lower⟩)
              exact lower
  · intro left right leftFormed rightFormed
    cases left with
    | nil =>
        cases right <;> simp [comparePreRelease]
    | cons first others =>
        cases right with
        | nil =>
            simp [comparePreRelease]
        | cons part parts =>
            rw [bothGiven]
            exact identifiersTell.same leftFormed rightFormed

/-- Which of two versions has the lower precedence. -/
inductive Precedes (left right : Version) : Prop
  | major
      (lower : left.major < right.major) :
      Precedes left right
  | minor
      (sameMajor : left.major = right.major)
      (lower : left.minor < right.minor) :
      Precedes left right
  | patch
      (sameMajor : left.major = right.major)
      (sameMinor : left.minor = right.minor)
      (lower : left.patch < right.patch) :
      Precedes left right
  | preRelease
      (sameMajor : left.major = right.major)
      (sameMinor : left.minor = right.minor)
      (samePatch : left.patch = right.patch)
      (lower : PreReleasePrecedes left.preRelease right.preRelease) :
      Precedes left right

/-- Versions that differ in their builds at most. -/
structure SamePrecedence (left right : Version) : Prop where
  major : left.major = right.major
  minor : left.minor = right.minor
  patch : left.patch = right.patch
  preRelease : left.preRelease = right.preRelease

section Versions

variable {left right : Version}

theorem precedence_eq_lt_iff
    (leftFormed : left.WellFormed)
    (rightFormed : right.WellFormed) :
    left.precedence right = .lt ↔ left.Precedes right := by
  rw [precedence, Ordering.then_eq_lt, Ordering.then_eq_lt,
    Ordering.then_eq_lt, Nat.compare_eq_lt, Nat.compare_eq_lt,
    Nat.compare_eq_lt, Nat.compare_eq_eq, Nat.compare_eq_eq,
    Nat.compare_eq_eq,
    comparePreRelease_tells.lower leftFormed.preRelease
      rightFormed.preRelease]
  constructor
  · rintro (lower | ⟨sameMajor, lower | ⟨sameMinor, lower | ⟨samePatch, lower⟩⟩⟩)
    · exact .major lower
    · exact .minor sameMajor lower
    · exact .patch sameMajor sameMinor lower
    · exact .preRelease sameMajor sameMinor samePatch lower
  · intro precedes
    cases precedes with
    | major lower =>
        exact .inl lower
    | minor sameMajor lower =>
        exact .inr ⟨sameMajor, .inl lower⟩
    | patch sameMajor sameMinor lower =>
        exact .inr ⟨sameMajor, .inr ⟨sameMinor, .inl lower⟩⟩
    | preRelease sameMajor sameMinor samePatch lower =>
        exact .inr ⟨sameMajor, .inr ⟨sameMinor, .inr ⟨samePatch, lower⟩⟩⟩

/-- Numbers are compared by value and come before words, and pre-releases before the version. -/
example :
    (["1.0.0-alpha", "1.0.0-alpha.1", "1.0.0-alpha.beta", "1.0.0-beta",
          "1.0.0-beta.2", "1.0.0-beta.11", "1.0.0-rc.1",
          "1.0.0"].filterMap parse?).Pairwise
      (fun left right => left.precedence right = .lt) := by
  decide +kernel

theorem precedence_eq_eq_iff
    (leftFormed : left.WellFormed)
    (rightFormed : right.WellFormed) :
    left.precedence right = .eq ↔ left.SamePrecedence right := by
  rw [precedence, Ordering.then_eq_eq, Ordering.then_eq_eq,
    Ordering.then_eq_eq, Nat.compare_eq_eq, Nat.compare_eq_eq,
    Nat.compare_eq_eq,
    comparePreRelease_tells.same leftFormed.preRelease
      rightFormed.preRelease]
  constructor
  · rintro ⟨major, minor, patch, preRelease⟩
    exact ⟨major, minor, patch, preRelease⟩
  · rintro ⟨major, minor, patch, preRelease⟩
    exact ⟨major, minor, patch, preRelease⟩

/-- A version without a build is below those that precedence or their build alone puts above it. -/
theorem order_eq_lt_iff
    (leftFormed : left.WellFormed)
    (rightFormed : right.WellFormed)
    (unbuilt : left.build = []) :
    left.order right = .lt ↔
      left.Precedes right ∨ left.SamePrecedence right ∧ right.build ≠ [] := by
  have lowerBuild :
      compareParts compareBuildPart left.build right.build = .lt ↔
        right.build ≠ [] := by
    rw [unbuilt]
    cases right.build with
    | nil =>
        simp [compareParts]
    | cons part parts =>
        simp [compareParts]
  rw [order, Ordering.then_eq_lt, precedence_eq_lt_iff leftFormed rightFormed,
    precedence_eq_eq_iff leftFormed rightFormed, lowerBuild]

end Versions

end AccessTopology.Version
