import AccessTopology.Document.Scalar
import AccessTopology.Json.Text
import AccessTopology.Yaml.Character

namespace AccessTopology.Yaml

/-!
# The YAML text of a value

Collections are written in block style, two columns a level, with sequences as
deep as the key they belong to; empty ones are written in brackets. A string is
written plainly where that reads back as the string, else between quotes, and as
a literal block where it has several lines.
-/

/-- Whether a space and a line end, in the order given, follow one another somewhere. -/
def hasPair (first second : Char → Bool) : List Char → Bool
  | a :: b :: rest => (first a && second b) || hasPair first second (b :: rest)
  | _ => false

/-- Whether the first character has a meaning of its own, given what follows. -/
def indicatesAtStart : List Char → Bool
  | [] => false
  | c :: rest =>
      isFlowIndicator c || isIndicator c ||
        ((c = '?' || c = ':' || c = '-') && beginsBlank rest)

/-- Whether a colon before a blank or a number sign after one stands after the first character. -/
def indicatesLater : List Char → Bool
  | [] => false
  | a :: rest =>
      match rest with
      | [] => false
      | b :: after =>
          (b = ':' && beginsBlank after) ||
            (b = '#' && (isSpaceOrTab a || isBreak a)) ||
            indicatesLater rest

/-- Whether a text begins like a mark between documents. -/
def beginsLikeMark : List Char → Bool
  | '-' :: '-' :: '-' :: _ => true
  | '.' :: '.' :: '.' :: _ => true
  | _ => false

/-- Whether a character is a space. -/
def isSpace (c : Char) : Bool :=
  c = ' '

/-- Whether a text has several lines. -/
def isMultiline (text : List Char) : Bool :=
  text.any isBreak

/-- Whether only double quotes can hold a text: it has escapes, or a space before a line end. -/
def needsEscapes (text : List Char) : Bool :=
  text.any (fun c => !isPrintable c) || hasPair isSpace isBreak text

/-- Whether a text can be written without quotes, its value apart. -/
def allowsPlain (text : List Char) : Bool :=
  !text.isEmpty && !isMultiline text && !needsEscapes text &&
    !(text.head?.any isSpace) && !(text.getLast?.any isSpace) &&
    !indicatesAtStart text && !indicatesLater text && !beginsLikeMark text

/-- Whether a text can be written between single quotes. -/
def allowsSingle (text : List Char) : Bool :=
  !needsEscapes text && !hasPair isBreak isSpace text

/-- Whether a text can be written as a literal block. -/
def allowsLiteral (text : List Char) : Bool :=
  !text.isEmpty && !needsEscapes text && !(text.getLast?.any isSpace)

/-- Whether a text written plainly would read as something other than itself. -/
def readsOtherwise (text : String) : Bool :=
  match Scalar.resolve text with
  | .string _ => Scalar.hasLeadingZero text.toList
  | _ => true

/-- Uppercase hexadecimal digits of a number. -/
def hexDigits : (count : Nat) → Nat → List Char
  | 0, _ => []
  | count + 1, value =>
      hexDigits count (value / 16) ++ [(Nat.digitChar (value % 16)).toUpper]

/-- How a character stands between double quotes. -/
def doubleEscaped (c : Char) : List Char :=
  if c = '\x22' || c = '\\' then ['\\', c]
  else if isPrintable c && !isBreak c then [c]
  else if c = '\x00' then ['\\', '0']
  else if c = '\x07' then ['\\', 'a']
  else if c = '\x08' then ['\\', 'b']
  else if c = '\t' then ['\\', 't']
  else if c = '\n' then ['\\', 'n']
  else if c = '\x0b' then ['\\', 'v']
  else if c = '\x0c' then ['\\', 'f']
  else if c = '\r' then ['\\', 'r']
  else if c = '\x1b' then ['\\', 'e']
  else if c = '\u0085' then ['\\', 'N']
  else if c = '\u2028' then ['\\', 'L']
  else if c = '\u2029' then ['\\', 'P']
  else if c.toNat ≤ 0xFF then '\\' :: 'x' :: hexDigits 2 c.toNat
  else if c.toNat ≤ 0xFFFF then '\\' :: 'u' :: hexDigits 4 c.toNat
  else '\\' :: 'U' :: hexDigits 8 c.toNat

/-- A text between double quotes. -/
def doubleQuoted (text : List Char) : List Char :=
  '\x22' :: (text.flatMap doubleEscaped ++ ['\x22'])

/-- Text whose lines after a line end are indented. -/
def indentLines
    (indent : Nat)
    (write : Char → List Char) :
    (atStart : Bool) → List Char → List Char
  | _, [] => []
  | atStart, c :: rest =>
      if isBreak c then write c ++ indentLines indent write true rest
      else
        (if atStart then List.replicate indent ' ' else []) ++ write c ++
          indentLines indent write false rest

/--
A text between single quotes, where a quote is written twice. The closing quote
is indented where it begins a line.
-/
def singleQuoted (indent : Nat) (text : List Char) : List Char :=
  let beforeQuote :=
    if text.getLast?.any isBreak then List.replicate indent ' ' else []
  '\x27' ::
    (indentLines indent
      (fun c => if c = '\x27' then ['\x27', '\x27'] else [c]) false text ++
      beforeQuote ++ ['\x27'])

/-- The marks after a literal block's indicator: its indentation, and its line ends at the end. -/
def literalHeader (text : List Char) : List Char :=
  let indentation :=
    if text.head?.any (fun c => isSpace c || isBreak c) then ['2'] else []
  let chomping :=
    match text.reverse with
    | [] => ['-']
    | last :: before =>
        if !isBreak last then ['-']
        else if before.isEmpty || before.head?.any isBreak then ['+']
        else []
  '|' :: (indentation ++ chomping)

/-- A text as a literal block, whose last line ends only where that of the text does. -/
def literal (indent : Nat) (text : List Char) : List Char :=
  literalHeader text ++ '\n' :: indentLines indent (fun c => [c]) true text

/-- A string as a scalar, whose further lines are indented. -/
def scalarChars (indent : Nat) (text : String) : List Char :=
  let chars := text.toList
  if chars.any (· = '\n') then
    if allowsLiteral chars then literal indent chars else doubleQuoted chars
  else if allowsPlain chars && !readsOtherwise text then chars
  else if allowsSingle chars then singleQuoted indent chars
  else doubleQuoted chars

/-- Whether a key stands on one line before its colon: it is neither long nor of several lines. -/
def isSimpleKey (key : String) : Bool :=
  key.utf8ByteSize ≤ 128 && !isMultiline key.toList

/-- The text up to a line that begins at a column. A text that ends a line begins it. -/
def newLineAfter (indent : Nat) (text : List Char) : List Char :=
  let lineEnd := if text.getLast?.any isBreak then [] else ['\n']
  text ++ lineEnd ++ List.replicate indent ' '

/-- Texts one below another, which begin at a column. -/
def stacked (indent : Nat) : List (List Char) → List Char
  | [] => []
  | [text] => text
  | text :: texts => newLineAfter indent text ++ stacked indent texts

/-- Whether a value is a collection that is written in several lines or on one of its own. -/
def isNested : Json → Bool
  | .array (_ :: _) => true
  | .object (_ :: _) => true
  | _ => false

/-- What stands between a key's colon and its value, and the column of the value. -/
def afterColon (indent : Nat) : Json → List Char × Nat
  | .array (_ :: _) => (newLineAfter indent [], indent)
  | .object (_ :: _) => (newLineAfter (indent + 2) [], indent + 2)
  | _ => ([' '], indent)

/-- The column of a value that stands on the line of a mark at a column. -/
def afterMark (indent : Nat) (value : Json) : Nat :=
  if isNested value then indent + 2 else indent

/-- A key with what stands between it and its value, and the column of the value. -/
def keyChars
    (indent : Nat)
    (name : String)
    (value : Json) :
    List Char × Nat :=
  let key := scalarChars (indent + 2) name
  if isSimpleKey name then
    let (between, column) := afterColon indent value
    (key ++ ':' :: between, column)
  else
    ('?' :: ' ' :: (newLineAfter indent key ++ [':', ' ']),
      afterMark indent value)

mutual

/--
A value at a column. The first line stands where the text is, further lines are
indented to the column; those of a scalar by two more.
-/
def valueChars (indent : Nat) : Json → List Char
  | .null => "null".toList
  | .bool true => "true".toList
  | .bool false => "false".toList
  | .number value => Json.numberChars value
  | .string text => scalarChars (indent + 2) text
  | .array [] => ['[', ']']
  | .array (item :: items) =>
      stacked indent (itemTexts indent (item :: items))
  | .object [] => ['\x7b', '\x7d']
  | .object (member :: members) =>
      stacked indent (memberTexts indent (member :: members))

/-- Each item of a sequence after its mark. -/
def itemTexts (indent : Nat) : List Json → List (List Char)
  | [] => []
  | item :: items =>
      ('-' :: ' ' :: valueChars (afterMark indent item) item) ::
        itemTexts indent items

/-- Each member of a mapping after its key. -/
def memberTexts (indent : Nat) : List (String × Json) → List (List Char)
  | [] => []
  | (name, value) :: members =>
      ((keyChars indent name value).1 ++
          valueChars (keyChars indent name value).2 value) ::
        memberTexts indent members

end

/-- The YAML text of a value, with a line end. -/
def text (value : Json) : String :=
  String.ofList (newLineAfter 0 (valueChars 0 value))

end AccessTopology.Yaml
