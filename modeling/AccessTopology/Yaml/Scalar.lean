import AccessTopology.Text.Hexadecimal
import AccessTopology.Yaml.Cursor

namespace AccessTopology.Yaml

/-!
# Scalars of a YAML text

The text of plain, quoted and block scalars: line folding, escapes and the
handling of line ends at the end of a block. Each scan answers the scalar's text
and the place after it, or nothing when the text is not well formed.
-/

/--
Blanks between two words of a scalar: those of one line, or the line end
that begins them, the line ends after that, and whether one was met.
-/
structure Gap where
  blanks : List Char
  firstBreak : List Char
  laterBreaks : List Char
  broken : Bool
  deriving Repr

namespace Gap

/-- No blanks. -/
def none : Gap :=
  ⟨[], [], [], false⟩

/-- What a gap stands for: its blanks, or a space or line feeds where lines fold. -/
def folded (gap : Gap) : List Char :=
  if gap.broken then
    if gap.firstBreak = ['\n'] then
      if gap.laterBreaks = [] then [' '] else gap.laterBreaks
    else
      gap.firstBreak ++ gap.laterBreaks
  else
    gap.blanks

/--
The gap at a place, continuing one that began before. Where `indent` is given,
a tab before that column of a later line is an error.
-/
def scan?
    (indent : Option Int) :
    (fuel : Nat) → Gap → Cursor → Option (Gap × Cursor)
  | 0, gap, cursor => some (gap, cursor)
  | fuel + 1, gap, cursor =>
      match cursor.peek? with
      | Option.none => some (gap, cursor)
      | some c =>
          if isSpaceOrTab c then
            let misplaced :=
              match indent with
              | some indent => gap.broken && c = '\t' && cursor.column < indent
              | Option.none => false
            if misplaced then Option.none
            else if gap.broken then scan? indent fuel gap cursor.next
            else
              scan? indent fuel { gap with blanks := gap.blanks ++ [c] }
                cursor.next
          else if isBreak c then
            let (lineEnd, cursor) := cursor.takeBreak
            if gap.broken then
              scan? indent fuel
                { gap with laterBreaks := gap.laterBreaks ++ lineEnd } cursor
            else
              scan? indent fuel ⟨[], lineEnd, gap.laterBreaks, true⟩ cursor
          else
            some (gap, cursor)

end Gap

/-- The characters of a plain scalar up to a blank or an indicator. -/
def plainWord?
    (inFlow : Bool) :
    (fuel : Nat) → Cursor → Option (List Char × Cursor)
  | 0, cursor => some ([], cursor)
  | fuel + 1, cursor =>
      match cursor.rest with
      | [] => some ([], cursor)
      | c :: rest =>
          let followed := rest.head?.any (fun c => isFlowIndicator c || c = '?')
          if isSpaceOrTab c || isBreak c then some ([], cursor)
          else if inFlow && c = ':' && followed then none
          else if (c = ':' && beginsBlank rest) || (inFlow && isFlowIndicator c) then
            some ([], cursor)
          else do
            let (word, cursor) ← plainWord? inFlow fuel cursor.next
            some (c :: word, cursor)

/-- A scalar, the place after it, and whether a line end was passed after its last word. -/
structure PlainScan where
  text : List Char
  after : Cursor
  broken : Bool
  deriving Repr

/-- The words of a plain scalar from a place on, after a gap. -/
def plainWords?
    (inFlow : Bool)
    (indent : Int) :
    (fuel : Nat) → Gap → Cursor → Option PlainScan
  | 0, gap, cursor => some ⟨[], cursor, gap.broken⟩
  | fuel + 1, gap, cursor =>
      if cursor.atDocumentMark || cursor.at? '#' then
        some ⟨[], cursor, gap.broken⟩
      else do
        let (word, cursor) ← plainWord? inFlow cursor.rest.length cursor
        let text := if word = [] then [] else gap.folded ++ word
        let gap := if word = [] then gap else Gap.none
        if !cursor.atBlank || cursor.rest = [] then
          some ⟨text, cursor, gap.broken⟩
        else
          let (gap, cursor) ←
            Gap.scan? (some indent) cursor.rest.length gap cursor
          if !inFlow && cursor.column < indent then
            some ⟨text, cursor, gap.broken⟩
          else
            let scan ← plainWords? inFlow indent fuel gap cursor
            some { scan with text := text ++ scan.text }

/-- The plain scalar at a place, whose later lines are indented by more than `indent`. -/
def plain?
    (inFlow : Bool)
    (indent : Int)
    (cursor : Cursor) :
    Option PlainScan :=
  plainWords? inFlow (indent + 1) (cursor.rest.length + 1) Gap.none cursor

/-- The character that hexadecimal digits name; no half of a surrogate pair is one. -/
def namedChar? (digits : List Char) : Option Char := do
  let code ← Text.hexNumber? digits
  if (0xD800 ≤ code && code ≤ 0xDFFF) || 0x10FFFF < code then none
  else some (Char.ofNat code)

/-- The character after a backslash that stands for another one. -/
def letterEscape? (c : Char) : Option Char :=
  if c = '0' then some '\x00'
  else if c = 'a' then some '\x07'
  else if c = 'b' then some '\x08'
  else if c = 't' || c = '\t' then some '\t'
  else if c = 'n' then some '\n'
  else if c = 'v' then some '\x0b'
  else if c = 'f' then some '\x0c'
  else if c = 'r' then some '\r'
  else if c = 'e' then some '\x1b'
  else if c = ' ' || c = '\x22' || c = '/' || c = '\\' then some c
  else if c = 'N' then some '\u0085'
  else if c = '_' then some '\u00a0'
  else if c = 'L' then some '\u2028'
  else if c = 'P' then some '\u2029'
  else none

/-- The number of digits that name a character after a backslash and this letter. -/
def digitCount? (c : Char) : Option Nat :=
  if c = 'x' then some 2
  else if c = 'u' then some 4
  else if c = 'U' then some 8
  else none

/-- The character that an escape stands for, from the place after its backslash. -/
def escape? (cursor : Cursor) : Option (Char × Cursor) := do
  let c ← cursor.peek?
  match digitCount? c with
  | some count =>
      let digits := cursor.next.rest.take count
      if digits.length < count then none
      else do
        let value ← namedChar? digits
        some (value, cursor.next.skip count)
  | none => do
      let value ← letterEscape? c
      some (value, cursor.next)

/-- The quote of a scalar. -/
def quoteChar (single : Bool) : Char :=
  if single then '\x27' else '\x22'

/--
The characters of a quoted scalar up to a blank or its closing quote, and
whether they end with an escaped line end.
-/
def quotedWord?
    (single : Bool) :
    (fuel : Nat) → Cursor → Option (List Char × Bool × Cursor)
  | 0, cursor => some ([], false, cursor)
  | fuel + 1, cursor =>
      match cursor.rest with
      | [] => some ([], false, cursor)
      | c :: rest =>
          if isSpaceOrTab c || isBreak c then some ([], false, cursor)
          else if single && c = '\x27' && rest.head? = some '\x27' then do
            let (word, broken, cursor) ←
              quotedWord? single fuel (cursor.skip 2)
            some ('\x27' :: word, broken, cursor)
          else if c = quoteChar single then some ([], false, cursor)
          else if !single && c = '\\' then
            if rest ≠ [] && beginsBreak rest then
              some ([], true, cursor.next.nextLine)
            else do
              let (value, cursor) ← escape? cursor.next
              let (word, broken, cursor) ← quotedWord? single fuel cursor
              some (value :: word, broken, cursor)
          else do
            let (word, broken, cursor) ← quotedWord? single fuel cursor.next
            some (c :: word, broken, cursor)

/-- The rest of a quoted scalar, and the place after its closing quote. -/
def quotedWords?
    (single : Bool) :
    (fuel : Nat) → Cursor → Option (List Char × Cursor)
  | 0, _ => none
  | fuel + 1, cursor =>
      if cursor.atDocumentMark || cursor.rest = [] then none
      else do
        let (word, broken, cursor) ←
          quotedWord? single cursor.rest.length cursor
        if cursor.at? (quoteChar single) then
          some (word, cursor.next)
        else
          let (gap, cursor) ←
            Gap.scan? none cursor.rest.length
              { Gap.none with broken := broken } cursor
          let (text, cursor) ← quotedWords? single fuel cursor
          some (word ++ gap.folded ++ text, cursor)

/-- The quoted scalar whose opening quote is at a place. -/
def quoted?
    (single : Bool)
    (cursor : Cursor) :
    Option (List Char × Cursor) :=
  quotedWords? single (cursor.rest.length + 1) cursor.next

/-- What becomes of the line ends at the end of a block scalar. -/
inductive Chomping
  | strip
  | clip
  | keep
  deriving Repr, DecidableEq

/-- The chomping that a character asks for. -/
def chomping? (c : Char) : Option Chomping :=
  if c = '+' then some .keep
  else if c = '-' then some .strip
  else none

/-- The indentation that a digit asks for. -/
def increment? (c : Char) : Option Nat :=
  if c.isDigit then some (c.toNat - '0'.toNat) else none

/-- The chomping and indentation in a block scalar's header, in either order. -/
def blockHeader (cursor : Cursor) : Chomping × Option Nat × Cursor :=
  match cursor.peek?.bind chomping? with
  | some chomping =>
      match cursor.next.peek?.bind increment? with
      | some increment => (chomping, some increment, cursor.skip 2)
      | none => (chomping, none, cursor.next)
  | none =>
      match cursor.peek?.bind increment? with
      | some increment =>
          match cursor.next.peek?.bind chomping? with
          | some chomping => (chomping, some increment, cursor.skip 2)
          | none => (.clip, some increment, cursor.next)
      | none => (.clip, none, cursor)

/-- The place after spaces of a line, up to column `indent` if that is known. -/
def skipIndent (indent : Option Nat) (cursor : Cursor) : Cursor :=
  let spaces := (cursor.rest.takeWhile (· = ' ')).length
  match indent with
  | some indent => cursor.skip (min spaces (indent - cursor.column))
  | none => cursor.skip spaces

/--
Blank lines of a block scalar: their line ends, the deepest column met, and the
place where the next line's text begins.
-/
def blockBreaks?
    (indent : Option Nat) :
    (fuel deepest : Nat) → Cursor → Option (List Char × Nat × Cursor)
  | 0, deepest, cursor => some ([], deepest, cursor)
  | fuel + 1, deepest, cursor =>
      let cursor := skipIndent indent cursor
      let deepest := max deepest cursor.column
      let shallow :=
        match indent with
        | some indent => cursor.column < indent
        | none => true
      if shallow && cursor.at? '\t' then none
      else
        match cursor.peek? with
        | some c =>
            if isBreak c then do
              let (lineEnd, cursor) := cursor.takeBreak
              let (lineEnds, deepest, cursor) ←
                blockBreaks? indent fuel deepest cursor
              some (lineEnd ++ lineEnds, deepest, cursor)
            else
              some ([], deepest, cursor)
        | none => some ([], deepest, cursor)

/--
The lines of a block scalar from one on. `pending` is the line end before
it, `blankLines` the line ends of blank lines after that, and `afterBlank`
tells whether the line before it began with a blank.
-/
def blockLines?
    (literal : Bool)
    (chomping : Chomping)
    (indent : Nat) :
    (fuel : Nat) →
    (pending blankLines : List Char) →
    (afterBlank : Bool) →
    Cursor →
    Option (List Char × Cursor)
  | 0, _, _, _, cursor => some ([], cursor)
  | fuel + 1, pending, blankLines, afterBlank, cursor =>
      if cursor.column = indent && cursor.rest ≠ [] then do
        let blank := cursor.peek?.any isSpaceOrTab
        let folds :=
          !literal && pending = ['\n'] && !afterBlank && !blank
        let before :=
          if folds then if blankLines = [] then [' '] else blankLines
          else pending ++ blankLines
        let line := cursor.rest.takeWhile (fun c => !isBreak c)
        let (lineEnd, cursor) := cursor.toLineEnd.takeBreak
        let (blankLines, _, cursor) ←
          blockBreaks? (some indent) (cursor.rest.length + 1) 0 cursor
        let (text, cursor) ←
          blockLines? literal chomping indent fuel lineEnd blankLines blank
            cursor
        some (before ++ line ++ text, cursor)
      else
        match chomping with
        | .strip => some ([], cursor)
        | .clip => some (pending, cursor)
        | .keep => some (pending ++ blankLines, cursor)

/-- The block scalar whose indicator is at a place, inside a block of some indentation. -/
def block?
    (literal : Bool)
    (parentIndent : Int)
    (cursor : Cursor) :
    Option (List Char × Cursor) := do
  let (chomping, increment, cursor) := blockHeader cursor.next
  if increment = some 0 then none
  else
    let cursor :=
      cursor.skip (cursor.rest.takeWhile isSpaceOrTab).length
    let cursor := if cursor.at? '#' then cursor.toLineEnd else cursor
    if !beginsBreak cursor.rest then none
    else
      let cursor := cursor.nextLine
      let given :=
        increment.map (fun increment => parentIndent.toNat + increment)
      let (blankLines, deepest, cursor) ←
        blockBreaks? given (cursor.rest.length + 1) 0 cursor
      let indent :=
        given.getD (max (max deepest (parentIndent + 1).toNat) 1)
      blockLines? literal chomping indent (cursor.rest.length + 1) []
        blankLines false cursor

end AccessTopology.Yaml
