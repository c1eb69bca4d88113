namespace AccessTopology.Text

/-!
# Hexadecimal digits

Digits of either letter case, and the numbers they name.
-/

/-- Whether a character is an ASCII hexadecimal digit of either case. -/
def isHexDigit (c : Char) : Bool :=
  c.isDigit || ('a' ≤ c && c ≤ 'f') || ('A' ≤ c && c ≤ 'F')

/-- The value of a hexadecimal digit of either case. -/
def hexValue? (c : Char) : Option Nat :=
  if c.isDigit then some (c.toNat - '0'.toNat)
  else if 'a' ≤ c && c ≤ 'f' then some (c.toNat - 'a'.toNat + 10)
  else if 'A' ≤ c && c ≤ 'F' then some (c.toNat - 'A'.toNat + 10)
  else none

/-- The hexadecimal digits are the characters with a value. -/
theorem isSome_hexValue? (c : Char) :
    (hexValue? c).isSome = isHexDigit c := by
  rw [hexValue?, isHexDigit]
  split
  · rename_i decimal
    simp [decimal]
  · split
    · rename_i lower
      simp [lower]
    · split
      · rename_i upper
        simp [upper]
      · simp_all

/-- The number that hexadecimal digits name, most significant first. -/
def hexNumber? (digits : List Char) : Option Nat :=
  digits.foldlM
    (fun value c => (hexValue? c).map (fun digit => value * 16 + digit))
    0

end AccessTopology.Text
