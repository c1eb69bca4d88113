import AccessTopology.Text.Hexadecimal

namespace AccessTopology.Text

/-!
# Hyphenated UUIDs

Five groups of 8, 4, 4, 4 and 12 hexadecimal digits, of either letter case,
joined by hyphens.
-/

/-- What follows `count` hexadecimal digits. -/
def dropHexDigits? : (count : Nat) → List Char → Option (List Char)
  | 0, text => some text
  | _ + 1, [] => none
  | count + 1, c :: rest =>
      if isHexDigit c then dropHexDigits? count rest else none

/-- Whether a text is groups of hexadecimal digits of these sizes, joined by hyphens. -/
def isHexGroups : (sizes : List Nat) → List Char → Bool
  | [], text => text.isEmpty
  | [size], text => dropHexDigits? size text == some []
  | size :: sizes, text =>
      match dropHexDigits? size text with
      | some ('-' :: rest) => isHexGroups sizes rest
      | _ => false

/-- Whether a text is a hyphenated UUID. -/
def isUuid (text : List Char) : Bool :=
  isHexGroups [8, 4, 4, 4, 12] text

end AccessTopology.Text
