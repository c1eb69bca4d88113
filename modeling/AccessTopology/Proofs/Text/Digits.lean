import Mathlib.Data.List.Induction

namespace AccessTopology.Text

/-!
# Decimal digits

A natural number is written in one way only by decimal digits without a zero
in front of others.
-/

/-- No number but zero has a digit zero in front. -/
theorem toDigits_eq_cons
    {number : Nat}
    (positive : 0 < number) :
    ∃ c cs, Nat.toDigits 10 number = c :: cs ∧ c ≠ '0' := by
  induction number using Nat.strongRecOn with
  | ind number inductionHypothesis =>
      by_cases small : number < 10
      · refine ⟨_, [], Nat.toDigits_of_lt_base small, ?_⟩
        rw [Ne, Nat.digitChar_eq_zero]
        omega
      · obtain ⟨c, cs, written, notZero⟩ :=
          inductionHypothesis (number / 10) (by omega) (by omega)
        rw [Nat.toDigits_of_base_le (by decide) (by omega), written]
        exact ⟨c, _, List.cons_append, notZero⟩

/-- Decimal digits, of which a zero is in front of no others. -/
structure IsNumeral (digits : List Char) : Prop where
  given :
    digits ≠ []
  allDigits :
    ∀ c ∈ digits, c.isDigit = true
  unpadded :
    digits.head? = some '0' → digits = ['0']

theorem isNumeral_toDigits (number : Nat) :
    IsNumeral (Nat.toDigits 10 number) := by
  refine
    { given := Nat.toDigits_ne_nil
      allDigits := fun _ => Nat.isDigit_of_mem_toDigits (by decide) (by decide)
      unpadded := ?_ }
  intro zeroFirst
  rcases Nat.eq_zero_or_pos number with rfl | positive
  · rfl
  · obtain ⟨c, cs, written, notZero⟩ := toDigits_eq_cons positive
    rw [written, List.head?_cons, Option.some.injEq] at zeroFirst
    exact absurd zeroFirst notZero

/-- A digit is the digit of its value. -/
theorem exists_digitChar
    {c : Char}
    (isDigit : c.isDigit = true) :
    ∃ value < 10, value.digitChar = c := by
  have within : 48 ≤ c.toNat ∧ c.toNat ≤ 57 :=
    Char.isDigit_iff_toNat.mp isDigit
  refine ⟨c.toNat - 48, by omega, Char.toNat_inj.mp ?_⟩
  rw [Nat.toNat_digitChar_of_lt_ten (by omega)]
  omega

/-- Digits are written again where their value is. -/
theorem toDigits_ofDigitChars
    {digits : List Char}
    (numeral : IsNumeral digits) :
    Nat.toDigits 10 (Nat.ofDigitChars 10 digits 0) = digits := by
  induction digits using List.reverseRecOn with
  | nil =>
      exact absurd rfl numeral.given
  | append_singleton before last inductionHypothesis =>
      -- Unless it is alone, the last digit follows a number that is not zero.
      obtain ⟨value, small, rfl⟩ :=
        exists_digitChar (numeral.allDigits last (by simp))
      have writtenLast : Nat.toDigits 10 value = [value.digitChar] :=
        Nat.toDigits_of_lt_base small
      rw [Nat.ofDigitChars_append,
        Nat.ofDigitChars_cons_digitChar_of_lt_ten small, Nat.ofDigitChars_nil]
      by_cases beforeGiven : before = []
      · simpa [beforeGiven] using writtenLast
      · have notZeroFirst : before.head? ≠ some '0' := by
          intro zeroFirst
          have whole := numeral.unpadded (by simp [zeroFirst])
          simp [List.append_eq_singleton_iff, beforeGiven] at whole
        have beforeWritten :
            Nat.toDigits 10 (Nat.ofDigitChars 10 before 0) = before :=
          inductionHypothesis
            { given := beforeGiven
              allDigits := fun c listed =>
                numeral.allDigits c (List.mem_append_left _ listed)
              unpadded := fun zeroFirst => absurd zeroFirst notZeroFirst }
        have positive : 0 < Nat.ofDigitChars 10 before 0 := by
          refine Nat.pos_of_ne_zero fun isZero => notZeroFirst ?_
          rw [← beforeWritten, isZero]
          rfl
        rw [← Nat.toDigits_append_toDigits (by decide) positive small,
          beforeWritten, writtenLast]

/-- The numerals are the digits of the natural numbers. -/
theorem isNumeral_iff
    {digits : List Char} :
    IsNumeral digits ↔ ∃ number, Nat.toDigits 10 number = digits := by
  constructor
  · intro numeral
    exact ⟨_, toDigits_ofDigitChars numeral⟩
  · rintro ⟨number, rfl⟩
    exact isNumeral_toDigits number

theorem toDigits_inj
    {left right : Nat} :
    Nat.toDigits 10 left = Nat.toDigits 10 right ↔ left = right := by
  refine ⟨?_, congrArg _⟩
  intro same
  have sameValue :=
    congrArg (fun digits => Nat.ofDigitChars 10 digits 0) same
  simpa [Nat.ofDigitChars_ten_toDigits] using sameValue

end AccessTopology.Text
