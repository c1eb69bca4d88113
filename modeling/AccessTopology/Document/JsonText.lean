import AccessTopology.Document.Node
import AccessTopology.Number.Reading
import AccessTopology.Text.Hexadecimal

namespace AccessTopology.JsonText

/-!
# Parsing JSON text

The grammar is RFC 8259 without a byte order mark. A container inside 127
others has no value, and neither has a number beyond the range of doubles or a
string with half of a surrogate pair; ignoring them is possible.

Every parser here answers a part of the document and the text after it; there
is no text after a part where the grammar fails.
-/

/-- The number of containers inside one another that still have a value. -/
def maxDepth : Nat :=
  127

/-- Text without the blanks between tokens. -/
def skipBlanks (text : List Char) : List Char :=
  text.dropWhile
    (fun c => c = ' ' || c = '\n' || c = '\t' || c = '\r')

/-- The code unit that four hexadecimal digits name, and the text after them. -/
def codeUnit? : List Char → Option (Nat × List Char)
  | a :: b :: c :: d :: rest =>
      (Text.hexNumber? [a, b, c, d]).map (fun unit => (unit, rest))
  | _ => none

/-- The character that a letter after a backslash stands for, `u` apart. -/
def simpleEscape? (c : Char) : Option Char :=
  if c = '\x22' then some '\x22'
  else if c = '\\' then some '\\'
  else if c = '/' then some '/'
  else if c = 'b' then some '\x08'
  else if c = 'f' then some '\x0c'
  else if c = 'n' then some '\n'
  else if c = 'r' then some '\r'
  else if c = 't' then some '\t'
  else none

/-- Whether a code unit is the first half of a surrogate pair. -/
def isHighSurrogate (unit : Nat) : Bool :=
  0xD800 ≤ unit && unit ≤ 0xDBFF

/-- Whether a code unit is the second half of a surrogate pair. -/
def isLowSurrogate (unit : Nat) : Bool :=
  0xDC00 ≤ unit && unit ≤ 0xDFFF

/-- The character of a surrogate pair. -/
def pairedChar (high low : Nat) : Char :=
  Char.ofNat (0x10000 + (high - 0xD800) * 0x400 + (low - 0xDC00))

/-- One character of a string, which has no value if it is half of a pair. -/
inductive Piece
  | char (value : Char)
  | half
  deriving Repr, DecidableEq

/-- The second half of a surrogate pair, if the text continues with one. -/
def lowHalf? : List Char → Option (Nat × List Char)
  | '\\' :: 'u' :: rest =>
      match codeUnit? rest with
      | some (low, rest) => if isLowSurrogate low then some (low, rest) else none
      | none => none
  | _ => none

/-- What the text after a backslash stands for. -/
def escape? : List Char → Option (Piece × List Char)
  | 'u' :: rest =>
      match codeUnit? rest with
      | none => none
      | some (unit, rest) =>
          if isLowSurrogate unit then
            some (.half, rest)
          else if isHighSurrogate unit then
            match lowHalf? rest with
            | some (low, rest) => some (.char (pairedChar unit low), rest)
            | none => some (.half, rest)
          else
            some (.char (Char.ofNat unit), rest)
  | c :: rest => (simpleEscape? c).map (fun value => (.char value, rest))
  | [] => none

/-- The next character of a string, before its closing quote. -/
def piece? : List Char → Option (Piece × List Char)
  | '\\' :: rest => escape? rest
  | c :: rest => if c.toNat < 0x20 then none else some (.char c, rest)
  | [] => none

/--
The characters of a string after its opening quote, or none of them when a
half of a surrogate pair stands alone, and the text after the closing quote.
-/
def stringBody? :
    (fuel : Nat) → List Char → Option (Option (List Char) × List Char)
  | 0, _ => none
  | fuel + 1, text =>
      match text with
      | '\x22' :: rest => some (some [], rest)
      | _ =>
          match piece? text with
          | none => none
          | some (piece, rest) =>
              match stringBody? fuel rest with
              | none => none
              | some (body, rest) =>
                  match piece, body with
                  | .char value, some chars => some (some (value :: chars), rest)
                  | _, _ => some (none, rest)

/-- The values of the decimal digits at the start of a text, and the rest. -/
def digits : List Char → List Nat × List Char
  | c :: rest =>
      if c.isDigit then
        let (values, rest) := digits rest
        ((c.toNat - '0'.toNat) :: values, rest)
      else ([], c :: rest)
  | [] => ([], [])

/-- The digits before the point: a zero alone, or digits that start with another. -/
def integerDigits? (text : List Char) : Option (List Nat × List Char) :=
  match digits text with
  | ([], _) => none
  | (0 :: _ :: _, _) => none
  | parts => some parts

/-- The digits after a point, if there is one. -/
def fractionDigits? : List Char → Option (List Nat × List Char)
  | '.' :: rest =>
      match digits rest with
      | ([], _) => none
      | parts => some parts
  | text => some ([], text)

/-- Whether an exponent is negative, and the text after its sign. -/
def exponentSign : List Char → Bool × List Char
  | '+' :: rest => (false, rest)
  | '-' :: rest => (true, rest)
  | text => (false, text)

/-- The exponent, if there is one. -/
def exponentPart? :
    List Char → Option (Option (Bool × List Nat) × List Char)
  | [] => some (none, [])
  | c :: rest =>
      if c = 'e' || c = 'E' then
        let (negative, rest) := exponentSign rest
        match digits rest with
        | ([], _) => none
        | (values, rest) => some (some (negative, values), rest)
      else
        some (none, c :: rest)

/-- The parts of a number after its sign. -/
def numberParts?
    (negative : Bool)
    (text : List Char) :
    Option (Number.Parts × List Char) := do
  let (integer, text) ← integerDigits? text
  let (fraction, text) ← fractionDigits? text
  let (exponent, text) ← exponentPart? text
  some (⟨negative, integer, fraction, exponent⟩, text)

/-- The part of a document that a number is. -/
def numberNode (parts : Number.Parts) : Node :=
  match parts.value? with
  | some value => .number value
  | none => .unreadable true

/-- A part where the grammar fails. -/
def failed : Node × Option (List Char) :=
  (.unreadable false, none)

/-- A part that one word stands for. -/
def word
    (letters : List Char)
    (node : Node)
    (text : List Char) :
    Node × Option (List Char) :=
  if letters.isPrefixOf text then
    (node, some (text.drop letters.length))
  else
    failed

/-- A part that is neither a container nor a string. -/
def literal (text : List Char) : Node × Option (List Char) :=
  match text with
  | 'n' :: _ => word "null".toList .null text
  | 't' :: _ => word "true".toList (.bool true) text
  | 'f' :: _ => word "false".toList (.bool false) text
  | '-' :: rest =>
      match numberParts? true rest with
      | some (parts, rest) => (numberNode parts, some rest)
      | none => failed
  | _ =>
      match numberParts? false text with
      | some (parts, rest) => (numberNode parts, some rest)
      | none => failed

/-- A container that begins inside `depth` others, and the text after it, if it ends. -/
def container
    (depth : Nat)
    (node : Node)
    (rest : Option (List Char)) :
    Node × Option (List Char) :=
  (node.limited maxDepth depth (node.skippable && rest.isSome), rest)

mutual

/-- The part of a document at the start of a text, inside `depth` containers. -/
def value
    (fuel depth : Nat)
    (text : List Char) :
    Node × Option (List Char) :=
  match fuel with
  | 0 => failed
  | fuel + 1 =>
      match skipBlanks text with
      | '[' :: rest =>
          let (items, closing, rest) :=
            match skipBlanks rest with
            | ']' :: rest => ([], .closed, some rest)
            | rest => items fuel (depth + 1) rest
          container depth (.list items closing) rest
      | '\x7b' :: rest =>
          let (members, closing, rest) :=
            match skipBlanks rest with
            | '\x7d' :: rest => ([], .closed, some rest)
            | rest => members fuel (depth + 1) rest
          container depth (.table members closing) rest
      | '\x22' :: rest =>
          match stringBody? (rest.length + 1) rest with
          | some (some chars, rest) => (.string (String.ofList chars), some rest)
          | some (none, rest) => (.unreadable true, some rest)
          | none => failed
      | text => literal text

/-- The items of a list from one on, and what follows its closing bracket. -/
def items
    (fuel depth : Nat)
    (text : List Char) :
    List Node × Closing × Option (List Char) :=
  match fuel with
  | 0 => ([], .stopped false, none)
  | fuel + 1 =>
      match value fuel depth text with
      | (item, none) => ([item], .stopped false, none)
      | (item, some rest) =>
          match skipBlanks rest with
          | ']' :: rest => ([item], .closed, some rest)
          | ',' :: rest =>
              let (items, closing, rest) := items fuel depth rest
              (item :: items, closing, rest)
          | _ => ([item], .stopped false, none)

/-- The members of a table from one on, and what follows its closing brace. -/
def members
    (fuel depth : Nat)
    (text : List Char) :
    List (String × Node) × Closing × Option (List Char) :=
  match fuel with
  | 0 => ([], .stopped false, none)
  | fuel + 1 =>
      match skipBlanks text with
      | '\x22' :: rest =>
          match stringBody? (rest.length + 1) rest with
          | none => ([], .stopped false, none)
          | some (name, rest) =>
              match skipBlanks rest with
              | ':' :: rest =>
                  let (node, rest) := value fuel depth rest
                  let (members, closing, rest) :=
                    match rest with
                    | none => ([], .stopped false, none)
                    | some rest =>
                        match skipBlanks rest with
                        | '\x7d' :: rest => ([], .closed, some rest)
                        | ',' :: rest => members fuel depth rest
                        | _ => ([], .stopped false, none)
                  match name with
                  | some name =>
                      ((String.ofList name, node) :: members, closing, rest)
                  | none =>
                      let skippable :=
                        node.skippable && Node.skippableMembers members &&
                          closing.skippable
                      ([], .stopped skippable, rest)
              | _ =>
                  match name with
                  | some name =>
                      ([(String.ofList name, .unreadable false)],
                        .stopped false, none)
                  | none => ([], .stopped false, none)
      | _ => ([], .stopped false, none)

end

/-- The document of a JSON text. -/
def parse (text : String) : Document :=
  let chars := text.toList
  match value (2 * chars.length + 2) 0 chars with
  | (root, some rest) => ⟨.jsonText, root, !(skipBlanks rest).isEmpty⟩
  | (root, none) => ⟨.jsonText, root, true⟩

end AccessTopology.JsonText
