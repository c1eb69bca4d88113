namespace AccessTopology.Text

/-!
# Blank characters

The `White_Space` property of Unicode, and trimming by it. Core's
`Char.isWhitespace` knows four ASCII characters only, all of which are blank
here.
-/

/-- Ranges of characters with the `White_Space` property. -/
def blankRanges : List (Nat × Nat) :=
  [(0x09, 0x0D), (0x20, 0x20), (0x85, 0x85), (0xA0, 0xA0),
    (0x1680, 0x1680), (0x2000, 0x200A), (0x2028, 0x2029),
    (0x202F, 0x202F), (0x205F, 0x205F), (0x3000, 0x3000)]

/-- Whether a character has the `White_Space` property. -/
def isBlank (c : Char) : Bool :=
  blankRanges.any (fun range => range.1 ≤ c.toNat && c.toNat ≤ range.2)

/-- Characters without the blank ones at the start. -/
def trimLeft (text : List Char) : List Char :=
  text.dropWhile isBlank

/-- Characters without the blank ones at either end. -/
def trimChars (text : List Char) : List Char :=
  (trimLeft (trimLeft text).reverse).reverse

/-- Text without the blank characters at either end. -/
def trim (text : String) : String :=
  String.ofList (trimChars text.toList)

/-- Trimmed text, when anything is left of it. -/
def nonBlank? (text : String) : Option String :=
  let trimmed := trim text
  if trimmed = "" then none else some trimmed

/-- Whitespace of core's ASCII class is blank. -/
theorem isBlank_of_isWhitespace
    {c : Char}
    (whitespace : c.isWhitespace = true) :
    isBlank c = true := by
  simp only [Char.isWhitespace, Bool.or_eq_true,
    decide_eq_true_eq] at whitespace
  rcases whitespace with ((rfl | rfl) | rfl) | rfl <;> decide

end AccessTopology.Text
