import AccessTopology.Yaml.Scalar

namespace AccessTopology.Yaml

/-!
# Tokens of a YAML text

The text as a sequence of scalars and of marks that begin and end collections,
including the marks that indentation stands for. Whether a scalar or collection
is a key is known only when a colon follows it, so each place where a key may
begin keeps a slot among the tokens, which the colon fills.
-/

/-- A token. -/
inductive Token
  | documentStart
  | documentEnd
  | blockSequenceStart
  | blockMappingStart
  | blockEnd
  | flowSequenceStart
  | flowSequenceEnd
  | flowMappingStart
  | flowMappingEnd
  | blockEntry
  | flowEntry
  | key
  | value
  | scalar (text : String) (plain : Bool)
  deriving Repr, DecidableEq, Inhabited

/-- A place where a key may have begun. -/
structure PossibleKey where
  slot : Nat
  required : Bool
  index : Nat
  line : Nat
  column : Nat
  deriving Repr

/--
The state of scanning: slots of tokens so far, the columns of open blocks, the
possible key of each open collection, innermost first, and whether a key may
begin here.
-/
structure Scanner where
  cursor : Cursor
  slots : Array (List Token)
  indent : Int
  outer : List Int
  keys : List (Option PossibleKey)
  keyAllowed : Bool

namespace Scanner

/-- The state at the start of a text. -/
def start (text : List Char) : Scanner :=
  { cursor := .start text
    slots := #[]
    indent := -1
    outer := []
    keys := [none]
    keyAllowed := true }

/-- Whether a place is between brackets. -/
def inFlow (scanner : Scanner) : Bool :=
  scanner.keys.length > 1

/-- Add a token. -/
def push (scanner : Scanner) (token : Token) : Scanner :=
  { scanner with slots := scanner.slots.push [token] }

/-- Put the tokens of a key, or of the block it opens, into its slot. -/
def fill
    (scanner : Scanner)
    (slot : Nat)
    (tokens : List Token) :
    Scanner :=
  { scanner with
    slots := scanner.slots.modify slot (fun rest => tokens ++ rest) }

/-- Move to a place. -/
def moveTo (scanner : Scanner) (cursor : Cursor) : Scanner :=
  { scanner with cursor := cursor }

/-- Allow or forbid a key at the next place. -/
def allowKey (scanner : Scanner) (allowed : Bool) : Scanner :=
  { scanner with keyAllowed := allowed }

/-- Forget the innermost possible key, unless there must be one. -/
def dropKey? (scanner : Scanner) : Option Scanner :=
  match scanner.keys with
  | some key :: keys =>
      if key.required then none
      else some { scanner with keys := none :: keys }
  | _ => some scanner

/-- Note that a key may begin here. -/
def noteKey? (scanner : Scanner) : Option Scanner :=
  if scanner.keyAllowed then do
    let scanner ← scanner.dropKey?
    let cursor := scanner.cursor
    let key : PossibleKey :=
      { slot := scanner.slots.size
        required := !scanner.inFlow && scanner.indent = cursor.column
        index := cursor.index
        line := cursor.line
        column := cursor.column }
    some
      { scanner with
        keys := some key :: scanner.keys.drop 1
        slots := scanner.slots.push [] }
  else
    some scanner

/-- Whether a key that began earlier could still end here: on its line and not too far on. -/
def isFresh (cursor : Cursor) (key : PossibleKey) : Bool :=
  key.line = cursor.line && cursor.index ≤ key.index + 1024

/-- Forget possible keys that can no longer end, unless there must be one. -/
def dropStaleKeys? (scanner : Scanner) : Option Scanner := do
  let keys ← scanner.keys.mapM
    (fun key =>
      match key with
      | some key =>
          if isFresh scanner.cursor key then some (some key)
          else if key.required then none
          else some none
      | none => some none)
  some { scanner with keys := keys }

/-- Close the blocks that are deeper than a column. -/
def unroll (scanner : Scanner) (column : Int) : Scanner :=
  if scanner.inFlow then scanner
  else
    go scanner.outer scanner
where
  /-- Close blocks, given the columns of the blocks around the innermost one. -/
  go : List Int → Scanner → Scanner
    | [], scanner => scanner
    | outer :: rest, scanner =>
        if column < scanner.indent then
          go rest
            { scanner.push .blockEnd with indent := outer, outer := rest }
        else scanner

/-- Whether a block at a column would be deeper than the innermost one. -/
def isDeeper (scanner : Scanner) (column : Nat) : Bool :=
  !scanner.inFlow && scanner.indent < column

/-- Open a block at a column. -/
def openBlock (scanner : Scanner) (column : Nat) : Scanner :=
  { scanner with
    indent := column
    outer := scanner.indent :: scanner.outer }

/-- Open a block here, if it is deeper than the innermost one. -/
def roll (scanner : Scanner) (token : Token) : Scanner :=
  let column := scanner.cursor.column
  if scanner.isDeeper column then
    (scanner.push token).openBlock column
  else scanner

/--
Skip spaces, comments and line ends. A tab is no space where a key may begin in
a block.
-/
def skipBlanks : (fuel : Nat) → Scanner → Scanner
  | 0, scanner => scanner
  | fuel + 1, scanner =>
      let cursor := scanner.cursor
      let cursor :=
        if cursor.column = 0 && cursor.at? '\ufeff' then cursor.next else cursor
      let tabs := scanner.inFlow || !scanner.keyAllowed
      let cursor :=
        cursor.skip
          (cursor.rest.takeWhile
            (fun c => c = ' ' || (tabs && c = '\t'))).length
      let cursor := if cursor.at? '#' then cursor.toLineEnd else cursor
      if cursor.rest ≠ [] && beginsBreak cursor.rest then
        skipBlanks fuel
          { scanner with
            cursor := cursor.nextLine
            keyAllowed := scanner.keyAllowed || !scanner.inFlow }
      else
        scanner.moveTo cursor

/-- Scan an indicator of one character as a token. -/
def indicator (scanner : Scanner) (token : Token) : Scanner :=
  (scanner.push token).moveTo scanner.cursor.next

/-- Scan the bracket that begins a collection. -/
def openFlow? (scanner : Scanner) (token : Token) : Option Scanner := do
  let scanner ← scanner.noteKey?
  let scanner := scanner.indicator token
  some { scanner with keys := none :: scanner.keys, keyAllowed := true }

/-- Scan the bracket that ends a collection. -/
def closeFlow? (scanner : Scanner) (token : Token) : Option Scanner := do
  let scanner ← scanner.dropKey?
  let keys :=
    match scanner.keys with
    | _ :: key :: keys => key :: keys
    | keys => keys
  some (({ scanner with keys := keys }.allowKey false).indicator token)

/-- Scan a comma between brackets. -/
def flowEntry? (scanner : Scanner) : Option Scanner := do
  let scanner ← scanner.dropKey?
  some ((scanner.allowKey true).indicator .flowEntry)

/-- Scan the dash of a sequence's item. -/
def blockEntry? (scanner : Scanner) : Option Scanner := do
  if !scanner.inFlow && !scanner.keyAllowed then none
  else
    let scanner ← (scanner.roll .blockSequenceStart).dropKey?
    some ((scanner.allowKey true).indicator .blockEntry)

/-- Scan the question mark of a key. -/
def explicitKey? (scanner : Scanner) : Option Scanner := do
  if !scanner.inFlow && !scanner.keyAllowed then none
  else
    let scanner ← (scanner.roll .blockMappingStart).dropKey?
    some ((scanner.allowKey (!scanner.inFlow)).indicator .key)

/-- Scan the colon of a value, which fills the slot of the key before it. -/
def value? (scanner : Scanner) : Option Scanner :=
  match scanner.keys with
  | some key :: keys =>
      let opens := scanner.isDeeper key.column
      let scanner := { scanner with keys := none :: keys }
      let scanner :=
        if opens then
          (scanner.fill key.slot [.blockMappingStart, .key]).openBlock key.column
        else
          scanner.fill key.slot [.key]
      some ((scanner.allowKey false).indicator .value)
  | _ =>
      if scanner.inFlow then
        some ((scanner.allowKey false).indicator .value)
      else if scanner.keyAllowed then
        some (((scanner.roll .blockMappingStart).allowKey true).indicator .value)
      else
        none

/-- Scan a mark between documents. -/
def documentMark? (scanner : Scanner) (token : Token) : Option Scanner := do
  let scanner ← (scanner.unroll (-1)).dropKey?
  some
    (((scanner.allowKey false).push token).moveTo (scanner.cursor.skip 3))

/-- Scan a block scalar. -/
def blockScalar? (scanner : Scanner) (literal : Bool) : Option Scanner := do
  let scanner ← scanner.dropKey?
  let (text, cursor) ← block? literal scanner.indent scanner.cursor
  some
    (((scanner.allowKey true).push (.scalar (String.ofList text) false)).moveTo
      cursor)

/-- Scan a quoted scalar. -/
def quotedScalar? (scanner : Scanner) (single : Bool) : Option Scanner := do
  let scanner ← scanner.noteKey?
  let (text, cursor) ← quoted? single scanner.cursor
  some
    (((scanner.allowKey false).push (.scalar (String.ofList text) false)).moveTo
      cursor)

/-- Scan a plain scalar. -/
def plainScalar? (scanner : Scanner) : Option Scanner := do
  let scanner ← scanner.noteKey?
  let scan ← plain? scanner.inFlow scanner.indent scanner.cursor
  some
    (((scanner.allowKey scan.broken).push
      (.scalar (String.ofList scan.text) true)).moveTo scan.after)

/-- Whether a plain scalar may begin with a character, given what follows it. -/
def beginsPlain (inFlow : Bool) (c : Char) (rest : List Char) : Bool :=
  let blankNext := beginsBlank rest
  if c = '-' then
    !(rest.head?.any isSpaceOrTab)
  else if c = '?' || c = ':' then
    !inFlow && !blankNext
  else
    !(isSpaceOrTab c || isBreak c || isFlowIndicator c || isIndicator c)

/-- Scan the token at a place that is neither blank nor the end of the text. -/
def token? (scanner : Scanner) : Option Scanner :=
  let cursor := scanner.cursor
  match cursor.rest with
  | [] => none
  | c :: rest =>
      let blankNext := beginsBlank rest
      if cursor.column = 0 && c = '%' then none
      else if cursor.atDocumentMark then
        scanner.documentMark? (if c = '-' then .documentStart else .documentEnd)
      else if c = '[' then scanner.openFlow? .flowSequenceStart
      else if c = '\x7b' then scanner.openFlow? .flowMappingStart
      else if c = ']' then scanner.closeFlow? .flowSequenceEnd
      else if c = '\x7d' then scanner.closeFlow? .flowMappingEnd
      else if c = ',' then scanner.flowEntry?
      else if c = '-' && blankNext then scanner.blockEntry?
      else if c = '?' && (scanner.inFlow || blankNext) then scanner.explicitKey?
      else if c = ':' && (scanner.inFlow || blankNext) then scanner.value?
      else if c = '|' && !scanner.inFlow then scanner.blockScalar? true
      else if c = '>' && !scanner.inFlow then scanner.blockScalar? false
      else if c = '\x27' then scanner.quotedScalar? true
      else if c = '\x22' then scanner.quotedScalar? false
      else if beginsPlain scanner.inFlow c rest then scanner.plainScalar?
      else none

/-- Scan the rest of a text. -/
def run? : (fuel : Nat) → Scanner → Option Scanner
  | 0, _ => none
  | fuel + 1, scanner => do
      let scanner := scanner.skipBlanks (scanner.cursor.rest.length + 1)
      let scanner ← scanner.dropStaleKeys?
      let scanner := scanner.unroll scanner.cursor.column
      if scanner.cursor.rest = [] then (scanner.unroll (-1)).dropKey?
      else do
        let scanner ← scanner.token?
        run? fuel scanner

end Scanner

/-- The tokens of a text, if it is well formed up to its end. -/
def tokens? (text : String) : Option (List Token) :=
  let chars := text.toList
  if chars.all isAllowed then
    (Scanner.run? (chars.length + 1) (.start chars)).map
      (fun scanner => scanner.slots.toList.flatten)
  else
    none

end AccessTopology.Yaml
