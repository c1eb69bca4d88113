import AccessTopology.Yaml.Character

namespace AccessTopology.Yaml

/-!
# Places in a YAML text

A cursor is the text that is left, how many bytes into the text it begins, and
how many characters into its line. A carriage return and the line feed after it are one line end.
-/

/-- A place in a text. -/
structure Cursor where
  rest : List Char
  index : Nat
  line : Nat
  column : Nat
  deriving Repr

namespace Cursor

/-- The place where a text begins. -/
def start (text : List Char) : Cursor :=
  ⟨text, 0, 0, 0⟩

/-- The character at a place, unless the text has ended. -/
def peek? (cursor : Cursor) : Option Char :=
  cursor.rest.head?

/-- Whether a character is at a place. -/
def at? (cursor : Cursor) (c : Char) : Bool :=
  cursor.rest.head? = some c

/-- Whether the text at a place has ended or begins with a space, tab or line end. -/
def atBlank (cursor : Cursor) : Bool :=
  beginsBlank cursor.rest

/-- The place after one character, on the same line. -/
def next (cursor : Cursor) : Cursor :=
  match cursor.rest with
  | [] => cursor
  | c :: rest =>
      { cursor with
        rest := rest
        index := cursor.index + c.utf8Size
        column := cursor.column + 1 }

/-- The place after some characters, on the same line. -/
def skip : (count : Nat) → Cursor → Cursor
  | 0, cursor => cursor
  | count + 1, cursor => skip count cursor.next

/-- The start of the next line, after a line end of some bytes. -/
def newLine
    (cursor : Cursor)
    (length : Nat)
    (rest : List Char) :
    Cursor :=
  { rest := rest
    index := cursor.index + length
    line := cursor.line + 1
    column := 0 }

/--
The line end at a place as it counts in a scalar, and the start of the next
line. A line end within ASCII, and the next-line character, count as line feed.
-/
def takeBreak (cursor : Cursor) : List Char × Cursor :=
  match cursor.rest with
  | '\r' :: '\n' :: rest => (['\n'], cursor.newLine 2 rest)
  | c :: rest =>
      if c = '\u2028' || c = '\u2029' then
        ([c], cursor.newLine c.utf8Size rest)
      else if isBreak c then (['\n'], cursor.newLine c.utf8Size rest)
      else ([], cursor)
  | [] => ([], cursor)

/-- The start of the next line, from a line end. -/
def nextLine (cursor : Cursor) : Cursor :=
  cursor.takeBreak.2

/-- The place of the first line end from a place on. -/
def toLineEnd (cursor : Cursor) : Cursor :=
  cursor.skip (cursor.rest.takeWhile (fun c => !isBreak c)).length

/-- Whether a line begins with three dashes or dots that stand alone. -/
def atDocumentMark (cursor : Cursor) : Bool :=
  cursor.column = 0 &&
    match cursor.rest with
    | '-' :: '-' :: '-' :: rest => beginsBlank rest
    | '.' :: '.' :: '.' :: rest => beginsBlank rest
    | _ => false

end Cursor

end AccessTopology.Yaml
