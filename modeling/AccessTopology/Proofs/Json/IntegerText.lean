import AccessTopology.Document.JsonText
import AccessTopology.Json.Text
import AccessTopology.Proofs.Text.Digits
import Mathlib.Data.List.Basic

namespace AccessTopology

/-!
# Reading back integers

The decimal digits of a natural number are all read, up to the first character
that is no digit, and they have its value.  Only zero has a digit zero in
front, so no integer is written in a form that the grammar refuses.
-/

/-- What may follow a value: nothing, a comma or a closing bracket or brace. -/
def Json.Stops (rest : List Char) : Prop :=
  ∀ c ∈ rest.head?, c = ',' ∨ c = ']' ∨ c = '\x7d'

namespace JsonText

/-- The value of each decimal digit of a natural number. -/
def digitValues (number : Nat) : List Nat :=
  (Nat.toDigits 10 number).map (fun c => c.toNat - '0'.toNat)

theorem digitsValue_digitValues (number : Nat) :
    Number.digitsValue (digitValues number) = number := by
  have readBack : Nat.ofDigitChars 10 (Nat.toDigits 10 number) 0 = number :=
    Nat.ofDigitChars_ten_toDigits
  simp only [Nat.ofDigitChars, Nat.mul_comm 10] at readBack
  rw [digitValues, Number.digitsValue, List.foldl_map, readBack]

theorem exists_digit_toDigits (number : Nat) :
    ∃ c cs, Nat.toDigits 10 number = c :: cs ∧ c.isDigit = true := by
  obtain ⟨c, cs, written⟩ :=
    List.exists_cons_of_ne_nil (Nat.toDigits_ne_nil (n := number) (b := 10))
  have member : c ∈ Nat.toDigits 10 number := by
    simp [written]
  exact ⟨c, cs, written,
    Nat.isDigit_of_mem_toDigits (by decide) (by decide) member⟩

variable {rest : List Char}

/-- Digits are read up to the end of a value. -/
theorem digits_append
    {chars : List Char}
    (allDigits : ∀ c ∈ chars, c.isDigit = true)
    (stops : Json.Stops rest) :
    digits (chars ++ rest) =
      (chars.map (fun c => c.toNat - '0'.toNat), rest) := by
  induction chars with
  | nil =>
      cases rest with
      | nil =>
          rfl
      | cons c rest =>
          rcases stops c (by simp) with rfl | rfl | rfl <;> rfl
  | cons c chars inductionHypothesis =>
      obtain ⟨isDigit, othersDigits⟩ := List.forall_mem_cons.mp allDigits
      simp [digits, isDigit, inductionHypothesis othersDigits]

theorem integerDigits?_toDigits
    (number : Nat)
    (stops : Json.Stops rest) :
    integerDigits? (Nat.toDigits 10 number ++ rest) =
      some (digitValues number, rest) := by
  have allDigits : ∀ c ∈ Nat.toDigits 10 number, c.isDigit = true :=
    fun _ => Nat.isDigit_of_mem_toDigits (by decide) (by decide)
  rw [integerDigits?, digits_append allDigits stops, ← digitValues]
  rcases Nat.eq_zero_or_pos number with rfl | positive
  · rfl
  · obtain ⟨c, cs, written, notZero⟩ :=
      Text.toDigits_eq_cons positive
    have isDigit : c.isDigit = true := allDigits c (by simp [written])
    have valueNotZero : c.toNat - '0'.toNat ≠ 0 := by
      intro isZero
      rw [Char.isDigit_iff_toNat] at isDigit
      have zeroCode : '0'.toNat = 48 := rfl
      exact notZero (Char.toNat_inj.mp (by omega))
    rw [digitValues, written, List.map_cons]
    split
    · rename_i noDigits
      simp at noDigits
    · rename_i zeroFirst
      simp only [Prod.mk.injEq, List.cons.injEq] at zeroFirst
      exact absurd zeroFirst.1.1 valueNotZero
    · rfl

theorem numberParts?_toDigits
    (negative : Bool)
    (number : Nat)
    (stops : Json.Stops rest) :
    numberParts? negative (Nat.toDigits 10 number ++ rest) =
      some (⟨negative, digitValues number, [], none⟩, rest) := by
  have noFraction : fractionDigits? rest = some ([], rest) := by
    cases rest with
    | nil =>
        rfl
    | cons c rest =>
        rcases stops c (by simp) with rfl | rfl | rfl <;> rfl
  have noExponent : exponentPart? rest = some (none, rest) := by
    cases rest with
    | nil =>
        rfl
    | cons c rest =>
        rcases stops c (by simp) with rfl | rfl | rfl <;> rfl
  simp [numberParts?, integerDigits?_toDigits number stops, noFraction,
    noExponent]

theorem ne_of_isDigit
    {c other : Char}
    (isDigit : c.isDigit = true)
    (noDigit : other.isDigit = false) :
    c ≠ other := by
  rintro rfl
  rw [isDigit] at noDigit
  cases noDigit

/-- A digit in front begins a number. -/
theorem literal_of_isDigit
    {c : Char}
    (isDigit : c.isDigit = true)
    (text : List Char) :
    literal (c :: text) =
      match numberParts? false (c :: text) with
      | some (parts, rest) => (numberNode parts, some rest)
      | none => failed := by
  have differs
      {other : Char}
      (noDigit : other.isDigit = false)
      (rest : List Char) :
      c :: text = other :: rest → False :=
    fun same => ne_of_isDigit isDigit noDigit (List.cons.inj same).1
  rewrite [literal]
  · rfl
  · exact differs rfl
  · exact differs rfl
  · exact differs rfl
  · exact differs rfl

/-- An integer that fits 64 bits is read back up to the end of its digits. -/
theorem literal_integerChars
    {value : Int}
    (fits : Number.fits value = true)
    (stops : Json.Stops rest) :
    literal (Json.integerChars value ++ rest) =
      (.number (.integer value), some rest) := by
  cases value with
  | ofNat number =>
      have named :
          (Number.Parts.mk false (digitValues number) [] none).value? =
            some (.integer (Int.ofNat number)) := by
        simp_all [Number.Parts.value?, digitsValue_digitValues]
      have parts := numberParts?_toDigits false number stops
      obtain ⟨c, cs, written, isDigit⟩ := exists_digit_toDigits number
      rw [Json.integerChars]
      rw [written, List.cons_append] at parts ⊢
      rw [literal_of_isDigit isDigit, parts]
      simp [numberNode, named]
  | negSucc number =>
      have named :
          (Number.Parts.mk true (digitValues (number + 1)) [] none).value? =
            some (.integer (Int.negSucc number)) := by
        rw [Int.negSucc_eq] at fits ⊢
        simp_all [Number.Parts.value?, digitsValue_digitValues]
      have parts := numberParts?_toDigits true (number + 1) stops
      rw [Json.integerChars, List.cons_append]
      simp [literal, parts, numberNode, named]

/-- The text of an integer starts with a minus sign or a digit. -/
theorem integerChars_eq_cons (value : Int) :
    ∃ c cs,
      Json.integerChars value = c :: cs ∧ (c = '-' ∨ c.isDigit = true) := by
  cases value with
  | ofNat number =>
      obtain ⟨c, cs, written, isDigit⟩ := exists_digit_toDigits number
      exact ⟨c, cs, written, .inr isDigit⟩
  | negSucc number =>
      exact ⟨'-', _, rfl, .inl rfl⟩

end JsonText

end AccessTopology
