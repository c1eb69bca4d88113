import AccessTopology.Json.Value
import AccessTopology.Number.Shortest

namespace AccessTopology.Json

/-!
# The text of JSON values

One printer writes a value without any space, the other one member or item a
line with two spaces of indentation. Both write the members of an object in the
order in which the value lists them.
-/

/-- Lowercase hexadecimal digit of a number below sixteen. -/
def hexDigit (value : Nat) : Char :=
  Nat.digitChar value

/--
How a character stands in a string: the quote, the backslash and control
characters are escaped, all else stands for itself.
-/
def escaped (c : Char) : List Char :=
  if c = '\x22' then ['\\', '\x22']
  else if c = '\\' then ['\\', '\\']
  else if c = '\x08' then ['\\', 'b']
  else if c = '\x0c' then ['\\', 'f']
  else if c = '\n' then ['\\', 'n']
  else if c = '\r' then ['\\', 'r']
  else if c = '\t' then ['\\', 't']
  else if c.toNat < 0x20 then
    ['\\', 'u', '0', '0', hexDigit (c.toNat / 16), hexDigit (c.toNat % 16)]
  else [c]

/-- A text between quotes. -/
def quoted (text : String) : List Char :=
  '\x22' :: (text.toList.flatMap escaped ++ ['\x22'])

/-- Decimal digits of an integer, after a minus sign if it is negative. -/
def integerChars : Int → List Char
  | .ofNat value => Nat.toDigits 10 value
  | .negSucc value => '-' :: Nat.toDigits 10 (value + 1)

/-- Digits around a decimal point that stands after `place` of them. -/
def positional
    (digits : List Char)
    (place : Int) :
    List Char :=
  if place ≤ 0 then
    '0' :: '.' :: (List.replicate (-place).toNat '0' ++ digits)
  else
    let whole := place.toNat
    if digits.length ≤ whole then
      digits ++ List.replicate (whole - digits.length) '0' ++ ['.', '0']
    else
      digits.take whole ++ '.' :: digits.drop whole

/-- Digits with a point after the first, and a power of ten with its sign. -/
def scientific
    (digits : List Char)
    (place : Int) :
    List Char :=
  let exponent := place - 1
  let sign := if exponent < 0 then '-' else '+'
  let mantissa :=
    match digits with
    | first :: [] => [first]
    | first :: rest => first :: '.' :: rest
    | [] => ['0']
  mantissa ++ 'e' :: sign :: Nat.toDigits 10 exponent.natAbs

/--
The text of a double: its shortest digits, positional from `0.00001` up to but
not including `10 ^ 16`, and always with a point or an exponent.
-/
def doubleChars (bits : UInt64) : List Char :=
  let magnitude := bits &&& 0x7FFFFFFFFFFFFFFF
  let sign := if magnitude = bits then [] else ['-']
  if magnitude = 0 then
    sign ++ ['0', '.', '0']
  else
    let shortest := Number.shortestDigits magnitude
    if -4 ≤ shortest.scale && shortest.scale ≤ 16 then
      sign ++ positional shortest.digits shortest.scale
    else
      sign ++ scientific shortest.digits shortest.scale

/-- The text of a number. -/
def numberChars : Number → List Char
  | .integer value => integerChars value
  | .double bits => doubleChars bits

mutual

/-- The text of a value without any space. -/
def compactChars : Json → List Char
  | .null => "null".toList
  | .bool true => "true".toList
  | .bool false => "false".toList
  | .number value => numberChars value
  | .string text => quoted text
  | .array [] => ['[', ']']
  | .array (item :: items) =>
      '[' :: (compactChars item ++ compactItems items)
  | .object [] => ['\x7b', '\x7d']
  | .object ((name, value) :: members) =>
      '\x7b' :: (quoted name ++ ':' :: compactChars value ++
        compactMembers members)

/-- The text of the items after the first, and the closing bracket. -/
def compactItems : List Json → List Char
  | [] => [']']
  | item :: items => ',' :: (compactChars item ++ compactItems items)

/-- The text of the members after the first, and the closing brace. -/
def compactMembers : List (String × Json) → List Char
  | [] => ['\x7d']
  | (name, value) :: members =>
      ',' :: (quoted name ++ ':' :: compactChars value ++
        compactMembers members)

end

/-- The text of a value without any space. -/
def compact (value : Json) : String :=
  String.ofList value.compactChars

/-- A line break and the indentation of a depth. -/
def newLine (depth : Nat) : List Char :=
  '\n' :: List.replicate (2 * depth) ' '

mutual

/-- The text of a value at a depth, one member or item a line. -/
def indentedChars (depth : Nat) : Json → List Char
  | .array (item :: items) =>
      '[' :: (newLine (depth + 1) ++ indentedChars (depth + 1) item ++
        indentedItems depth items)
  | .object ((name, value) :: members) =>
      '\x7b' :: (newLine (depth + 1) ++ quoted name ++ ':' :: ' ' ::
        indentedChars (depth + 1) value ++ indentedMembers depth members)
  | .array [] => ['[', ']']
  | .object [] => ['\x7b', '\x7d']
  | .null => compactChars .null
  | .bool value => compactChars (.bool value)
  | .number value => compactChars (.number value)
  | .string text => compactChars (.string text)

/-- The lines of the items after the first, and the closing bracket. -/
def indentedItems (depth : Nat) : List Json → List Char
  | [] => newLine depth ++ [']']
  | item :: items =>
      ',' :: (newLine (depth + 1) ++ indentedChars (depth + 1) item ++
        indentedItems depth items)

/-- The lines of the members after the first, and the closing brace. -/
def indentedMembers (depth : Nat) : List (String × Json) → List Char
  | [] => newLine depth ++ ['\x7d']
  | (name, value) :: members =>
      ',' :: (newLine (depth + 1) ++ quoted name ++ ':' :: ' ' ::
        indentedChars (depth + 1) value ++ indentedMembers depth members)

end

/-- The text of a value, one member or item a line. -/
def indented (value : Json) : String :=
  String.ofList (value.indentedChars 0)

/-- The text of a value with its members sorted and without any space. -/
def canonicalText (value : Json) : String :=
  value.canonical.compact

end AccessTopology.Json
