import AccessTopology.Text.Search

namespace AccessTopology

/-!
# Versions

Semantic versions: three numbers, pre-release identifiers and build
identifiers. Precedence leaves the build aside; the full order, which is what
the engine gate uses, compares it last.
-/

/-- A semantic version. -/
structure Version where
  major : Nat
  minor : Nat
  patch : Nat
  preRelease : List (List Char)
  build : List (List Char)
  deriving Repr, DecidableEq

namespace Version

/-- Whether an identifier is a number: decimal digits only. -/
def isNumeric (identifier : List Char) : Bool :=
  identifier.all Char.isDigit

/-- Whether a character may stand in an identifier. -/
def isIdentifierChar (c : Char) : Bool :=
  c.isAlphanum || c = '-'

/-- Whether a text is an identifier. -/
def isIdentifier (text : List Char) : Bool :=
  !text.isEmpty && text.all isIdentifierChar

/-- Whether a text is a number with a zero in front of other digits. -/
def isPadded (text : List Char) : Bool :=
  isNumeric text && text.length > 1 && text.head? = some '0'

/-- The value of a number without a padding zero that fits 64 bits. -/
def number? (text : List Char) : Option Nat :=
  if text.isEmpty || !isNumeric text || isPadded text then none
  else
    let value :=
      text.foldl (fun value c => value * 10 + (c.toNat - '0'.toNat)) 0
    if value < UInt64.size then some value else none

/-- Pre-release identifiers, of which no number is padded. -/
def preRelease? : Option (List Char) → Option (List (List Char))
  | none => some []
  | some text =>
      let identifiers := Text.splitOn '.' text
      if identifiers.all (fun part => isIdentifier part && !isPadded part) then
        some identifiers
      else
        none

/-- Build identifiers. -/
def build? : Option (List Char) → Option (List (List Char))
  | none => some []
  | some text =>
      let identifiers := Text.splitOn '.' text
      if identifiers.all isIdentifier then some identifiers else none

/-- The version that a text is, if it is one. -/
def parse? (text : String) : Option Version := do
  let (beforeBuild, buildText) := Text.cutAt '+' text.toList
  let (core, preReleaseText) := Text.cutAt '-' beforeBuild
  match Text.splitOn '.' core with
  | [major, minor, patch] => do
      let major ← number? major
      let minor ← number? minor
      let patch ← number? patch
      let preRelease ← preRelease? preReleaseText
      let build ← build? buildText
      some ⟨major, minor, patch, preRelease, build⟩
  | _ => none

/-- Code point order of two texts. -/
def compareText : List Char → List Char → Ordering
  | [], [] => .eq
  | [], _ :: _ => .lt
  | _ :: _, [] => .gt
  | left :: lefts, right :: rights =>
      (compare left.toNat right.toNat).then (compareText lefts rights)

/-- Order of two numbers by value, given without padding zeros. -/
def compareDigits (left right : List Char) : Ordering :=
  (compare left.length right.length).then (compareText left right)

/-- Order of two pre-release identifiers: numbers by value, before all others. -/
def comparePreReleasePart (left right : List Char) : Ordering :=
  match isNumeric left, isNumeric right with
  | true, true => compareDigits left right
  | true, false => .lt
  | false, true => .gt
  | false, false => compareText left right

/-- A number's digits without padding zeros. -/
def unpadded (digits : List Char) : List Char :=
  digits.dropWhile (· = '0')

/-- Order of two build identifiers: as for pre-releases, and fewer padding zeros first. -/
def compareBuildPart (left right : List Char) : Ordering :=
  match isNumeric left, isNumeric right with
  | true, true =>
      (compareDigits (unpadded left) (unpadded right)).then
        (compare left.length right.length)
  | true, false => .lt
  | false, true => .gt
  | false, false => compareText left right

/-- Order of two lists of identifiers, by the first difference; a longer list comes later. -/
def compareParts
    (comparePart : List Char → List Char → Ordering) :
    List (List Char) → List (List Char) → Ordering
  | [], [] => .eq
  | [], _ :: _ => .lt
  | _ :: _, [] => .gt
  | left :: lefts, right :: rights =>
      (comparePart left right).then (compareParts comparePart lefts rights)

/-- Order of two pre-releases; a version without one comes later. -/
def comparePreRelease : List (List Char) → List (List Char) → Ordering
  | [], [] => .eq
  | [], _ :: _ => .gt
  | _ :: _, [] => .lt
  | left, right => compareParts comparePreReleasePart left right

/-- Precedence, which does not see the build. -/
def precedence (left right : Version) : Ordering :=
  (compare left.major right.major).then
    ((compare left.minor right.minor).then
      ((compare left.patch right.patch).then
        (comparePreRelease left.preRelease right.preRelease)))

/-- Precedence, then the build; a version without one comes first. -/
def order (left right : Version) : Ordering :=
  (precedence left right).then
    (compareParts compareBuildPart left.build right.build)

end Version

end AccessTopology
