namespace AccessTopology.Yaml

/-!
# Characters of a YAML text

The classes of characters that reading and writing YAML go by. Lines end at a
carriage return, a line feed, or one of the three line separators beyond ASCII.
-/

/-- Whether a character ends a line. -/
def isBreak (c : Char) : Bool :=
  c = '\r' || c = '\n' || c = '\u0085' || c = '\u2028' || c = '\u2029'

/-- Whether a character separates words of a line. -/
def isSpaceOrTab (c : Char) : Bool :=
  c = ' ' || c = '\t'

/-- Whether a text has ended or begins with a space, a tab or a line end. -/
def beginsBlank : List Char → Bool
  | [] => true
  | c :: _ => isSpaceOrTab c || isBreak c

/-- Whether a text has ended or begins with a line end. -/
def beginsBreak : List Char → Bool
  | [] => true
  | c :: _ => isBreak c

/-- Whether a character may stand in a YAML text at all. -/
def isAllowed (c : Char) : Bool :=
  c = '\t' || c = '\n' || c = '\r' || c = '\u0085' ||
    (0x20 ≤ c.toNat && c.toNat ≤ 0x7E) ||
    (0xA0 ≤ c.toNat && c.toNat ≤ 0xD7FF) ||
    (0xE000 ≤ c.toNat && c.toNat ≤ 0xFFFD) ||
    0x10000 ≤ c.toNat

/-- Whether a character may be written as itself. -/
def isPrintable (c : Char) : Bool :=
  c = '\n' || (0x20 ≤ c.toNat && c.toNat ≤ 0x7E) ||
    (0xA0 ≤ c.toNat && c.toNat ≠ 0xFEFF && c.toNat ≠ 0xFFFE && c.toNat ≠ 0xFFFF)

/-- Whether a character has a meaning of its own between brackets. -/
def isFlowIndicator (c : Char) : Bool :=
  c = ',' || c = '[' || c = ']' || c = '\x7b' || c = '\x7d'

/-- Whether a character has a meaning of its own wherever a scalar begins. -/
def isIndicator (c : Char) : Bool :=
  c = '#' || c = '&' || c = '*' || c = '!' || c = '|' || c = '>' ||
    c = '\x27' || c = '\x22' || c = '%' || c = '@' || c = '\x60'

end AccessTopology.Yaml
