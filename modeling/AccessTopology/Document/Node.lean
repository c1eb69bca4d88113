import AccessTopology.Json.Value

namespace AccessTopology

/-!
# Documents as readers meet them

A text is parsed into a tree that keeps everything a reader of some type could
come across, in the order of the text: repeated names, parts that have no value,
and the place where the text stops being well formed. A reader therefore meets
the faults of a document in text order, whether they are faults of the text or
of the type it asks for.
-/

/-- Where a document comes from, which decides how some faults are reported. -/
inductive Form
  | value
  | jsonText
  | yamlText
  deriving Repr, DecidableEq

/--
How the listed part of a container ends: with the container, or at a place that
no reader gets past. A reader that skips the container gets past a
`skippable` stop.
-/
inductive Closing
  | closed
  | stopped (skippable : Bool)
  deriving Repr, DecidableEq

/-- A part of a document. -/
inductive Node
  | null
  | bool (value : Bool)
  | number (value : Number)
  | string (value : String)
  | scalar (text : String) (plain : Bool)
  | list (items : List Node) (closing : Closing)
  | table (members : List (String × Node)) (closing : Closing)
  | unreadable (skippable : Bool)
  deriving Repr, Inhabited

/-- Why a document does not read as a value of the wanted type. -/
inductive ReadError
  | malformed
  | missingField (name : String)
  | duplicateField (name : String)
  | unknownVariant
  | invalidType
  | invalidLength
  | invalidValue
  deriving Repr, DecidableEq

/-- A reading error in words. -/
def ReadError.message : ReadError → String
  | malformed => "the text is not well formed"
  | missingField name => "field '" ++ name ++ "' is missing"
  | duplicateField name => "field '" ++ name ++ "' is given twice"
  | unknownVariant => "a name is none of those expected"
  | invalidType => "a value is not of the expected type"
  | invalidLength => "a list has too few or too many items"
  | invalidValue => "a value is out of range"

namespace Closing

/-- Whether a reader that skips the container gets past its end. -/
def skippable : Closing → Bool
  | closed => true
  | stopped skippable => skippable

/-- Reading up to the end of a container, which must be reached. -/
def check : Closing → Except ReadError Unit
  | closed => .ok ()
  | stopped _ => .error .malformed

end Closing

namespace Node

mutual

/-- Whether a reader that ignores a part gets past it. -/
def skippable : Node → Bool
  | .list items closing => skippableItems items && closing.skippable
  | .table members closing => skippableMembers members && closing.skippable
  | .unreadable skippable => skippable
  | _ => true

/-- Whether a reader that ignores some items gets past them. -/
def skippableItems : List Node → Bool
  | [] => true
  | item :: items => item.skippable && skippableItems items

/-- Whether a reader that ignores some members gets past them. -/
def skippableMembers : List (String × Node) → Bool
  | [] => true
  | (_, value) :: members => value.skippable && skippableMembers members

end

/--
A container that begins inside `depth` others: beyond a limit no reader enters
it, and one that ignores it gets past it where `passable` says so.
-/
def limited
    (limit depth : Nat)
    (passable : Bool) :
    Node → Node
  | list items closing =>
      if depth < limit then list items closing
      else list [] (.stopped passable)
  | table members closing =>
      if depth < limit then table members closing
      else table [] (.stopped passable)
  | node => node

mutual

/-- A JSON value as a part of a document. -/
def ofJson : Json → Node
  | .null => .null
  | .bool value => .bool value
  | .number value => .number value
  | .string text => .string text
  | .array items => .list (ofItems items) .closed
  | .object members => .table (ofMembers members) .closed

/-- The items of an array value. -/
def ofItems : List Json → List Node
  | [] => []
  | item :: items => ofJson item :: ofItems items

/-- The members of an object value. -/
def ofMembers : List (String × Json) → List (String × Node)
  | [] => []
  | (name, value) :: members => (name, ofJson value) :: ofMembers members

end

end Node

/-- A parsed document, and whether anything follows its value. -/
structure Document where
  form : Form
  root : Node
  trailing : Bool
  deriving Repr

namespace Document

/-- A JSON value as a document. -/
def ofJson (value : Json) : Document :=
  ⟨.value, .ofJson value, false⟩

end Document

end AccessTopology
