import AccessTopology.Text.Slug

namespace AccessTopology.Text

/-!
# ASCII characters

What is said of the ASCII characters is checked one by one.  Letters and digits
are among them, those of slugs as well, and lowercasing one character at a time
changes nothing beyond them.
-/

/-- What is checked of every ASCII code holds of every ASCII character. -/
theorem forall_ascii
    {property : Char → Prop}
    {c : Char}
    (ascii : c.toNat < 128)
    (checked : ∀ code < 128, property (Char.ofNat code)) :
    property c := by
  rw [← Char.ofNat_toNat c]
  exact checked c.toNat ascii

/-- Letters and digits of a slug are those of ASCII. -/
theorem isSlugChar_iff {c : Char} :
    isSlugChar c = true ↔
      (97 ≤ c.toNat ∧ c.toNat ≤ 122) ∨ (48 ≤ c.toNat ∧ c.toNat ≤ 57) := by
  have letterRange :
      c.isLower = (decide (97 ≤ c.val) && decide (c.val ≤ 122)) :=
    rfl
  have digitRange :
      c.isDigit = (decide (48 ≤ c.val) && decide (c.val ≤ 57)) :=
    rfl
  simp [isSlugChar, letterRange, digitRange, UInt32.le_iff_toNat_le]

theorem isSlugChar_of_beyond
    {c : Char}
    (beyond : 128 ≤ c.toNat) :
    isSlugChar c = false := by
  rw [← Bool.not_eq_true, isSlugChar_iff]
  omega

/-- A character beyond ASCII is no capital. -/
theorem isUpper_of_beyond
    {c : Char}
    (beyond : 128 ≤ c.toNat) :
    c.isUpper = false := by
  have upperRange :
      c.isUpper = decide (65 ≤ c.val ∧ c.val ≤ 90) :=
    rfl
  have codePoint : c.toNat = c.val.toNat :=
    rfl
  simp only [upperRange, UInt32.le_iff_toNat_le, UInt32.reduceToNat,
    decide_eq_false_iff_not]
  omega

/-- Letters and digits of core's classes are ASCII. -/
theorem isAlphanum_of_beyond
    {c : Char}
    (beyond : 128 ≤ c.toNat) :
    c.isAlphanum = false := by
  have classes : c.isAlphanum = (c.isUpper || isSlugChar c) := by
    rw [isSlugChar, ← Bool.or_assoc]
    rfl
  rw [classes, isUpper_of_beyond beyond, isSlugChar_of_beyond beyond]
  rfl

/-- A character beyond ASCII is its own lowercase form. -/
theorem toLower_of_beyond
    {c : Char}
    (beyond : 128 ≤ c.toNat) :
    c.toLower = c := by
  have notUpper : ¬(c.val ≥ 'A'.val ∧ c.val ≤ 'Z'.val) :=
    of_decide_eq_false (isUpper_of_beyond beyond)
  exact dif_neg notUpper

/-- A character beyond ASCII is the lowercase form of itself only. -/
theorem toLower_eq_iff
    {c wanted : Char}
    (beyond : 128 ≤ wanted.toNat) :
    c.toLower = wanted ↔ c = wanted := by
  by_cases ascii : c.toNat < 128
  · have loweredAscii : c.toLower.toNat < 128 := by
      apply forall_ascii ascii
      decide
    constructor
    · rintro rfl
      omega
    · rintro rfl
      omega
  · rw [toLower_of_beyond (Nat.le_of_not_lt ascii)]

/-- Lowercasing makes slug characters of ASCII letters and digits only. -/
theorem isSlugChar_toLower (c : Char) :
    isSlugChar c.toLower = c.isAlphanum := by
  by_cases ascii : c.toNat < 128
  · apply forall_ascii ascii
    decide
  · have beyond : 128 ≤ c.toNat :=
      Nat.le_of_not_lt ascii
    rw [toLower_of_beyond beyond, isSlugChar_of_beyond beyond,
      isAlphanum_of_beyond beyond]

end AccessTopology.Text
