import AccessTopology.KeyMap
import AccessTopology.Number.Basic

namespace AccessTopology

/-!
# JSON values

Values as documents hold them. The members of an object are a list, so that a
value may list them in the order in which they are to be written;
`Json.canonical` sorts them.
-/

/-- A JSON value. -/
inductive Json
  | null
  | bool (value : Bool)
  | number (value : Number)
  | string (value : String)
  | array (items : List Json)
  | object (members : List (String × Json))
  deriving Repr, Inhabited

namespace Json

/-- The integer of a natural number. -/
def ofNat (value : Nat) : Json :=
  .number (.integer value)

/-- Null, or the text. -/
def ofString? : Option String → Json
  | none => .null
  | some text => .string text

/-- The array of some texts. -/
def ofStrings (texts : List String) : Json :=
  .array (texts.map .string)

/-- The object of a map. -/
def ofMap (map : KeyMap Json) : Json :=
  .object map.entries

/-- The text of a string value. -/
def asString? : Json → Option String
  | .string text => some text
  | _ => none

/-- The items of an array value. -/
def asArray? : Json → Option (List Json)
  | .array items => some items
  | _ => none

/-- The member of an object value with this name. -/
def member? (name : String) : Json → Option Json
  | .object members => members.lookup name
  | _ => none

/-- The value under a path of member names. -/
def at? : (path : List String) → Json → Option Json
  | [], value => some value
  | name :: path, value => (value.member? name).bind (at? path)

mutual

/--
Whether two values are the same: numbers of one form and equal, members in the
same order.
-/
def same : Json → Json → Bool
  | .null, .null => true
  | .bool left, .bool right => left == right
  | .number left, .number right => left.same right
  | .string left, .string right => left == right
  | .array left, .array right => sameItems left right
  | .object left, .object right => sameMembers left right
  | _, _ => false

/-- Whether two lists hold the same values. -/
def sameItems : List Json → List Json → Bool
  | [], [] => true
  | left :: lefts, right :: rights =>
      left.same right && sameItems lefts rights
  | _, _ => false

/-- Whether two lists hold the same members. -/
def sameMembers : List (String × Json) → List (String × Json) → Bool
  | [], [] => true
  | (leftName, left) :: lefts, (rightName, right) :: rights =>
      leftName == rightName && left.same right && sameMembers lefts rights
  | _, _ => false

end

mutual

/-- The value with the members of every object sorted by name. -/
def canonical : Json → Json
  | .array items => .array (canonicalItems items)
  | .object members =>
      .object (KeyMap.ofList (canonicalMembers members)).entries
  | .null => .null
  | .bool value => .bool value
  | .number value => .number value
  | .string value => .string value

/-- Canonical form of each item. -/
def canonicalItems : List Json → List Json
  | [] => []
  | item :: items => item.canonical :: canonicalItems items

/-- Canonical form of each member's value. -/
def canonicalMembers : List (String × Json) → List (String × Json)
  | [] => []
  | (name, value) :: members =>
      (name, value.canonical) :: canonicalMembers members

end

end Json

end AccessTopology
