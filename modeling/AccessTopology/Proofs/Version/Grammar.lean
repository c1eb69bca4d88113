import AccessTopology.Proofs.Text.Digits
import AccessTopology.Proofs.Text.Search
import AccessTopology.Version

namespace AccessTopology.Version

/-!
# The texts of versions

A version is written as its three numbers, then the identifiers of its
pre-release behind a hyphen and those of its build behind a plus sign, if it
has any.  A text is read as a version exactly where it is the text of that
version and the version is well formed.
-/

/-- Letters, digits and hyphens, at least one of them. -/
structure IsIdentifier (part : List Char) : Prop where
  given :
    part ≠ []
  allowed :
    ∀ c ∈ part, c.isAlphanum = true ∨ c = '-'

/-- An identifier that is a number without padding if it is digits only. -/
structure IsPreReleaseIdentifier (part : List Char) : Prop
    extends IsIdentifier part where
  unpadded :
    (∀ c ∈ part, c.isDigit = true) →
      ∃ number, part = Nat.toDigits 10 number

/-- What the grammar asks of a version, with numbers that fit 64 bits. -/
structure WellFormed (version : Version) : Prop where
  numbersFit :
    ∀ number ∈ [version.major, version.minor, version.patch],
      number < UInt64.size
  preRelease :
    ∀ part ∈ version.preRelease, IsPreReleaseIdentifier part
  build :
    ∀ part ∈ version.build, IsIdentifier part

/-- Parts with full stops between them. -/
def dotted (parts : List (List Char)) : List Char :=
  ['.'].intercalate parts

/-- Identifiers with full stops between them, if there are any. -/
def dotted? : List (List Char) → Option (List Char)
  | [] => none
  | part :: parts => some (dotted (part :: parts))

/-- The three numbers of a version. -/
def numbers (version : Version) : List (List Char) :=
  [Nat.toDigits 10 version.major, Nat.toDigits 10 version.minor,
    Nat.toDigits 10 version.patch]

/-- The characters of a version up to its build. -/
def charsBeforeBuild (version : Version) : List Char :=
  dotted version.numbers ++
    (dotted? version.preRelease).elim [] ('-' :: ·)

/-- The text of a version. -/
def text (version : Version) : String :=
  .ofList
    (version.charsBeforeBuild ++ (dotted? version.build).elim [] ('+' :: ·))

theorem isIdentifier_eq_true_iff
    {part : List Char} :
    isIdentifier part = true ↔ IsIdentifier part := by
  have shape :
      isIdentifier part = true ↔
        part ≠ [] ∧ ∀ c ∈ part, c.isAlphanum = true ∨ c = '-' := by
    simp [isIdentifier, isIdentifierChar]
  rw [shape]
  constructor
  · rintro ⟨given, allowed⟩
    exact ⟨given, allowed⟩
  · rintro ⟨given, allowed⟩
    exact ⟨given, allowed⟩

theorem isNumeric_eq_true_iff
    {part : List Char} :
    isNumeric part = true ↔ ∀ c ∈ part, c.isDigit = true := by
  simp [isNumeric]

/-- Numerals are the digits that are not padded. -/
theorem isNumeral_iff_isPadded
    {part : List Char} :
    Text.IsNumeral part ↔
      part ≠ [] ∧ isNumeric part = true ∧ isPadded part = false := by
  constructor
  · rintro ⟨given, allDigits, unpadded⟩
    refine ⟨given, isNumeric_eq_true_iff.mpr allDigits, ?_⟩
    by_cases zeroFirst : part.head? = some '0'
    · rw [unpadded zeroFirst]
      rfl
    · simp [isPadded, zeroFirst]
  · rintro ⟨given, numeric, notPadded⟩
    refine ⟨given, isNumeric_eq_true_iff.mp numeric, ?_⟩
    intro zeroFirst
    obtain ⟨rest, rfl⟩ := List.head?_eq_some_iff.mp zeroFirst
    simp only [isPadded, numeric, zeroFirst, decide_true, Bool.and_true,
      Bool.true_and, decide_eq_false_iff_not, List.length_cons] at notPadded
    have restEmpty : rest = [] :=
      List.length_eq_zero_iff.mp (by omega)
    rw [restEmpty]

theorem isPreReleaseIdentifier_iff
    {part : List Char} :
    IsPreReleaseIdentifier part ↔
      isIdentifier part = true ∧ isPadded part = false := by
  rw [isIdentifier_eq_true_iff]
  have isNumber :
      (∃ number, part = Nat.toDigits 10 number) ↔ Text.IsNumeral part := by
    simp only [Text.isNumeral_iff, eq_comm]
  constructor
  · rintro ⟨isIdentifier, unpadded⟩
    refine ⟨isIdentifier, ?_⟩
    by_cases numeric : isNumeric part = true
    · have numeral :=
        isNumber.mp (unpadded (isNumeric_eq_true_iff.mp numeric))
      exact (isNumeral_iff_isPadded.mp numeral).2.2
    · simp [isPadded, numeric]
  · rintro ⟨isIdentifier, notPadded⟩
    refine ⟨isIdentifier, ?_⟩
    intro allDigits
    exact isNumber.mpr
      (isNumeral_iff_isPadded.mpr
        ⟨isIdentifier.given, isNumeric_eq_true_iff.mpr allDigits, notPadded⟩)

/-- The numbers that are read are not padded and fit 64 bits. -/
theorem number?_eq_some_iff
    {digits : List Char}
    {number : Nat} :
    number? digits = some number ↔
      Nat.toDigits 10 number = digits ∧ number < UInt64.size := by
  have value :
      digits.foldl (fun value c => value * 10 + (c.toNat - '0'.toNat)) 0 =
        Nat.ofDigitChars 10 digits 0 := by
    simp only [Nat.ofDigitChars_eq_foldl, Nat.mul_comm 10]
  have guarded :
      (digits.isEmpty || !isNumeric digits || isPadded digits) = false ↔
        Text.IsNumeral digits := by
    rw [isNumeral_iff_isPadded]
    simp [and_assoc]
  rw [number?, value]
  by_cases numeral : Text.IsNumeral digits
  · have written := Text.toDigits_ofDigitChars numeral
    simp only [guarded.mpr numeral, Bool.false_eq_true, ↓reduceIte]
    constructor
    · intro read
      split at read
      · cases read
        exact ⟨written, ‹_›⟩
      · cases read
    · rintro ⟨rfl, fits⟩
      rw [Nat.ofDigitChars_ten_toDigits, if_pos fits]
  · have refused := eq_true_of_ne_false (numeral ∘ guarded.mp)
    simp only [refused, ↓reduceIte, reduceCtorEq, false_iff]
    rintro ⟨rfl, -⟩
    exact numeral (Text.isNumeral_toDigits number)

/-- No full stop stands in an identifier. -/
theorem IsIdentifier.unmarked
    {part : List Char}
    (isIdentifier : IsIdentifier part)
    {c : Char}
    (mark : c.isAlphanum = false ∧ c ≠ '-') :
    c ∉ part := by
  intro listed
  rcases isIdentifier.allowed c listed with alphanumeric | isHyphen
  · rw [mark.1] at alphanumeric
    cases alphanumeric
  · exact mark.2 isHyphen

/-- Identifiers are split apart again at the full stops between them. -/
theorem splitOn_eq_iff_dotted?
    {chars : List Char}
    {parts : List (List Char)}
    (identifiers : ∀ part ∈ parts, IsIdentifier part) :
    Text.splitOn '.' chars = parts ↔ dotted? parts = some chars := by
  have unmarked : ∀ part ∈ parts, '.' ∉ part :=
    fun part listed => (identifiers part listed).unmarked (by decide)
  rw [Text.splitOn_eq_iff]
  cases parts with
  | nil =>
      simp [dotted?]
  | cons part parts =>
      constructor
      · rintro ⟨-, -, joined⟩
        exact congrArg some joined
      · intro joined
        exact ⟨List.cons_ne_nil part parts, unmarked, Option.some.inj joined⟩

theorem dotted?_eq_none_iff
    {parts : List (List Char)} :
    dotted? parts = none ↔ parts = [] := by
  cases parts with
  | nil =>
      simp [dotted?]
  | cons part parts =>
      simp [dotted?]

/-- The parts of a text, where all are admitted; no parts without a text. -/
def identifiers?
    (admits : List Char → Bool) :
    Option (List Char) → Option (List (List Char))
  | none => some []
  | some chars =>
      if (Text.splitOn '.' chars).all admits then
        some (Text.splitOn '.' chars)
      else
        none

section Identifiers

variable {text : Option (List Char)} {parts : List (List Char)}

theorem identifiers?_eq_some_iff
    {admits : List Char → Bool}
    (admitsIdentifiers : ∀ part, admits part = true → IsIdentifier part) :
    identifiers? admits text = some parts ↔
      dotted? parts = text ∧ ∀ part ∈ parts, admits part = true := by
  cases text with
  | none =>
      rw [identifiers?, dotted?_eq_none_iff, Option.some.injEq, eq_comm]
      constructor
      · rintro rfl
        simp
      · exact And.left
  | some chars =>
      constructor
      · intro read
        rw [identifiers?] at read
        split at read
        · rename_i allAdmitted
          obtain rfl := Option.some.inj read
          rw [List.all_eq_true] at allAdmitted
          have identifiers :
              ∀ part ∈ Text.splitOn '.' chars, IsIdentifier part :=
            fun part listed => admitsIdentifiers part (allAdmitted part listed)
          exact ⟨(splitOn_eq_iff_dotted? identifiers).mp rfl, allAdmitted⟩
        · cases read
      · rintro ⟨joined, allAdmitted⟩
        have identifiers : ∀ part ∈ parts, IsIdentifier part :=
          fun part listed => admitsIdentifiers part (allAdmitted part listed)
        rw [identifiers?, (splitOn_eq_iff_dotted? identifiers).mpr joined,
          if_pos (List.all_eq_true.mpr allAdmitted)]

theorem preRelease?_eq_some_iff :
    preRelease? text = some parts ↔
      dotted? parts = text ∧ ∀ part ∈ parts, IsPreReleaseIdentifier part := by
  have admitted :
      ∀ part,
        (isIdentifier part && !isPadded part) = true ↔
          IsPreReleaseIdentifier part := by
    intro part
    rw [isPreReleaseIdentifier_iff]
    simp
  have read :
      preRelease? text =
        identifiers? (fun part => isIdentifier part && !isPadded part) text := by
    cases text <;> rfl
  simp only [← admitted]
  rw [read]
  exact identifiers?_eq_some_iff
    (fun part isAdmitted => ((admitted part).mp isAdmitted).toIsIdentifier)

theorem build?_eq_some_iff :
    build? text = some parts ↔
      dotted? parts = text ∧ ∀ part ∈ parts, IsIdentifier part := by
  have read : build? text = identifiers? isIdentifier text := by
    cases text <;> rfl
  simp only [← isIdentifier_eq_true_iff]
  rw [read]
  exact identifiers?_eq_some_iff (fun _ => isIdentifier_eq_true_iff.mp)

end Identifiers

variable {version : Version}

/-- Between the parts there are full stops only. -/
theorem mem_dotted
    {parts : List (List Char)}
    {c : Char}
    (listed : c ∈ dotted parts) :
    c = '.' ∨ ∃ part ∈ parts, c ∈ part := by
  induction parts with
  | nil =>
      cases listed
  | cons part parts inductionHypothesis =>
      cases parts with
      | nil =>
          exact .inr ⟨part, by simp, by simpa [dotted] using listed⟩
      | cons next others =>
          rw [dotted, List.intercalate_cons_cons, List.append_assoc,
            List.mem_append, List.mem_append, List.mem_singleton] at listed
          rcases listed with inPart | isStop | inRest
          · exact .inr ⟨part, by simp, inPart⟩
          · exact .inl isStop
          · refine (inductionHypothesis inRest).imp_right ?_
            rintro ⟨other, otherListed, inOther⟩
            exact ⟨other, List.mem_cons_of_mem part otherListed, inOther⟩

theorem isDigit_of_mem_numbers
    {number : List Char}
    (listed : number ∈ version.numbers)
    {c : Char}
    (inNumber : c ∈ number) :
    c.isDigit = true := by
  have numeral : ∃ value, number = Nat.toDigits 10 value := by
    simp only [numbers, List.mem_cons, List.not_mem_nil, or_false] at listed
    rcases listed with rfl | rfl | rfl <;> exact ⟨_, rfl⟩
  obtain ⟨value, rfl⟩ := numeral
  exact (Text.isNumeral_toDigits value).allDigits c inNumber

/-- A version's numbers are digits and full stops. -/
theorem not_mem_dotted_numbers
    {c : Char}
    (mark : c.isDigit = false ∧ c ≠ '.') :
    c ∉ dotted version.numbers := by
  intro listed
  rcases mem_dotted listed with isStop | ⟨number, numberListed, inNumber⟩
  · exact mark.2 isStop
  · have isDigit := isDigit_of_mem_numbers numberListed inNumber
    rw [mark.1] at isDigit
    cases isDigit

/-- No plus sign stands before the build. -/
theorem WellFormed.plus_not_mem
    (wellFormed : version.WellFormed) :
    '+' ∉ version.charsBeforeBuild := by
  rw [charsBeforeBuild, List.mem_append, not_or]
  refine ⟨not_mem_dotted_numbers (by decide), ?_⟩
  cases shape : version.preRelease with
  | nil =>
      simp [dotted?]
  | cons first others =>
      rw [← shape]
      intro listed
      have inParts : '+' ∈ dotted version.preRelease := by
        simpa [shape, dotted?] using listed
      rcases mem_dotted inParts with isStop | ⟨part, partListed, inPart⟩
      · cases isStop
      · have identifier := (wellFormed.preRelease part partListed).toIsIdentifier
        exact identifier.unmarked (by decide) inPart

/-- What is read as a version is the text of that version. -/
theorem wellFormed_and_text_of_parse?
    {text : String}
    (read : parse? text = some version) :
    version.WellFormed ∧ version.text = text := by
  -- A build may have hyphens, so that the plus sign is looked for first.
  rcases cutBuild : Text.cutAt '+' text.toList with
    ⟨beforeBuild, buildText⟩
  rcases cutPreRelease : Text.cutAt '-' beforeBuild with
    ⟨core, preReleaseText⟩
  simp only [parse?, cutBuild, cutPreRelease] at read
  split at read
  · rename_i major minor patch split
    simp only [Option.bind_eq_bind, Option.bind_eq_some_iff] at read
    obtain ⟨major, majorRead, minor, minorRead, patch, patchRead,
      preRelease, preReleaseRead, build, buildRead, isVersion⟩ := read
    cases isVersion
    obtain ⟨rfl, majorFits⟩ := number?_eq_some_iff.mp majorRead
    obtain ⟨rfl, minorFits⟩ := number?_eq_some_iff.mp minorRead
    obtain ⟨rfl, patchFits⟩ := number?_eq_some_iff.mp patchRead
    obtain ⟨rfl, preReleaseFormed⟩ :=
      preRelease?_eq_some_iff.mp preReleaseRead
    obtain ⟨rfl, buildFormed⟩ := build?_eq_some_iff.mp buildRead
    have wholeCore := (Text.splitOn_eq_iff.mp split).2.2
    have wholeBeforeBuild := (Text.cutAt_eq_iff.mp cutPreRelease).2
    have whole := (Text.cutAt_eq_iff.mp cutBuild).2
    refine ⟨⟨?_, preReleaseFormed, buildFormed⟩, ?_⟩
    · simp [majorFits, minorFits, patchFits]
    · rw [← String.toList_inj, ← whole, ← wholeBeforeBuild, ← wholeCore,
        Version.text, String.toList_ofList]
      rfl
  · cases read

/-- The text of a well-formed version is read as that version. -/
theorem parse?_text
    (wellFormed : version.WellFormed) :
    parse? version.text = some version := by
  have cutBuild :
      Text.cutAt '+' version.text.toList =
        (version.charsBeforeBuild, dotted? version.build) := by
    refine Text.cutAt_eq_iff.mpr ⟨wellFormed.plus_not_mem, ?_⟩
    rw [Version.text, String.toList_ofList]
  have cutPreRelease :
      Text.cutAt '-' version.charsBeforeBuild =
        (dotted version.numbers, dotted? version.preRelease) :=
    Text.cutAt_eq_iff.mpr ⟨not_mem_dotted_numbers (by decide), rfl⟩
  have numbersSplit :
      Text.splitOn '.' (dotted version.numbers) =
        [Nat.toDigits 10 version.major, Nat.toDigits 10 version.minor,
          Nat.toDigits 10 version.patch] := by
    refine Text.splitOn_eq_iff.mpr ⟨List.cons_ne_nil _ _, ?_, rfl⟩
    intro number listed inNumber
    cases isDigit_of_mem_numbers listed inNumber
  have numberRead :
      ∀ number ∈ [version.major, version.minor, version.patch],
        number? (Nat.toDigits 10 number) = some number :=
    fun number listed =>
      number?_eq_some_iff.mpr ⟨rfl, wellFormed.numbersFit number listed⟩
  have preReleaseRead :
      preRelease? (dotted? version.preRelease) = some version.preRelease :=
    preRelease?_eq_some_iff.mpr ⟨rfl, wellFormed.preRelease⟩
  have buildRead :
      build? (dotted? version.build) = some version.build :=
    build?_eq_some_iff.mpr ⟨rfl, wellFormed.build⟩
  simp [parse?, cutBuild, cutPreRelease, numbersSplit, numberRead,
    preReleaseRead, buildRead]

/-- A text is read as a version exactly if it is that version's text. -/
theorem parse?_eq_some_iff
    {text : String} :
    parse? text = some version ↔
      version.WellFormed ∧ version.text = text := by
  constructor
  · exact wellFormed_and_text_of_parse?
  · rintro ⟨wellFormed, rfl⟩
    exact parse?_text wellFormed

end AccessTopology.Version
