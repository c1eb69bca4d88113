import AccessTopology.Document.Scalar

namespace AccessTopology

/-!
# Reading documents

A reader takes a part of a document as a value of some type, or says what is
wrong with the first part at fault. Records are read by one rule: members in
the order of the document, then what is missing in the order of the fields.
-/

/-- How a part of a document of some form reads as a value. -/
abbrev Reader (α : Type) : Type :=
  Form → Node → Except ReadError α

namespace Reader

/-- Read a text; a scalar stands for its own text. -/
def string : Reader String
  | _, .string text => .ok text
  | _, .scalar text _ => .ok text
  | _, .unreadable _ => .error .malformed
  | _, _ => .error .invalidType

/-- Read a truth value. -/
def bool : Reader Bool
  | _, node =>
      match node.resolved with
      | .bool value => .ok value
      | .unreadable _ => .error .malformed
      | _ => .error .invalidType

/-- Read a count: an integer that is not negative. -/
def count : Reader Nat
  | _, node =>
      match node.resolved with
      | .number (.integer value) =>
          if value < 0 then .error .invalidValue else .ok value.toNat
      | .unreadable _ => .error .malformed
      | _ => .error .invalidType

/-- Whether a part stands for an absent value. -/
def isAbsent : Node → Bool
  | .null => true
  | .scalar text plain => plain && Scalar.isNull text.toList
  | _ => false

/-- Read a value that may be null. -/
def option (reader : Reader α) : Reader (Option α)
  | form, node =>
      if isAbsent node then .ok none
      else (reader form node).map some

/-- Read each item of a list, in order. -/
def items
    (reader : Reader α)
    (form : Form) :
    List Node → Except ReadError (List α)
  | [] => .ok []
  | node :: nodes => do
      let value ← reader form node
      let values ← items reader form nodes
      return value :: values

/-- Read a list; an empty plain scalar is an empty list. -/
def list (reader : Reader α) : Reader (List α)
  | form, .list nodes closing => do
      let values ← items reader form nodes
      closing.check
      return values
  | _, .scalar "" true => .ok []
  | _, .unreadable _ => .error .malformed
  | _, _ => .error .invalidType

/-- Read the value of each member, in order. -/
def members
    (reader : Reader α)
    (form : Form) :
    List (String × Node) → Except ReadError (List (String × α))
  | [] => .ok []
  | (name, node) :: nodes => do
      let value ← reader form node
      let values ← members reader form nodes
      return (name, value) :: values

/-- Read a map, where the last of a repeated key stays. -/
def map (reader : Reader α) : Reader (KeyMap α)
  | form, .table nodes closing => do
      let entries ← members reader form nodes
      closing.check
      return KeyMap.ofList entries
  | _, .scalar "" true => .ok .empty
  | _, .unreadable _ => .error .malformed
  | _, _ => .error .invalidType

mutual

/-- Read any value, with the members of objects sorted and the last of repeated ones kept. -/
def anyNode : Node → Except ReadError Json
  | .null => .ok .null
  | .bool value => .ok (.bool value)
  | .number value => .ok (.number value)
  | .string text => .ok (.string text)
  | .scalar text plain =>
      match Node.resolved (.scalar text plain) with
      | .null => .ok .null
      | .bool value => .ok (.bool value)
      | .number value => .ok (.number value)
      | .string text => .ok (.string text)
      | _ => .error .invalidType
  | .list items closing => do
      let values ← anyItems items
      closing.check
      return .array values
  | .table members closing => do
      let entries ← anyMembers members
      closing.check
      return .ofMap (KeyMap.ofList entries)
  | .unreadable _ => .error .malformed

/-- Read each item as any value. -/
def anyItems : List Node → Except ReadError (List Json)
  | [] => .ok []
  | item :: items => do
      let value ← anyNode item
      let values ← anyItems items
      return value :: values

/-- Read the value of each member as any value. -/
def anyMembers : List (String × Node) → Except ReadError (List (String × Json))
  | [] => .ok []
  | (name, node) :: members => do
      let value ← anyNode node
      let values ← anyMembers members
      return (name, value) :: values

end

/-- Read any value. -/
def any : Reader Json
  | _, node => anyNode node

/-- The value that a list of named cases gives to a name. -/
def case?
    (cases : List (String × α))
    (name : String) :
    Except ReadError α :=
  match cases.lookup name with
  | some value => .ok value
  | none => .error .unknownVariant

/-- What stands for the missing content of a case. -/
def noContent : Node → Except ReadError Unit
  | .null => .ok ()
  | .unreadable _ => .error .malformed
  | _ => .error .invalidType

/--
Read one of some named cases: its name, or a table of one member whose name it
is and whose value is null. YAML has the name only.
-/
def cases (named : List (String × α)) : Reader α
  | _, .string name => case? named name
  | _, .scalar name _ => case? named name
  | .value, .table [(name, content)] _ => do
      let value ← case? named name
      noContent content
      return value
  | .value, .table _ _ => .error .invalidValue
  | .jsonText, .table ((name, content) :: rest) closing => do
      let value ← case? named name
      noContent content
      if rest.isEmpty then closing.check else .error .malformed
      return value
  | .jsonText, _ => .error .malformed
  | _, _ => .error .invalidType

end Reader

/--
What happens when a field of a record is left out: a `required` one is missed,
an `optional` one only where fields go by position, a `defaulted` one never.
-/
inductive Presence
  | required
  | optional
  | defaulted
  deriving Repr, DecidableEq

/-- A field of the records of a type: its name and how reading it changes the record. -/
structure Field (σ : Type) where
  name : String
  presence : Presence
  read : Form → Node → σ → Except ReadError σ

namespace Field

/-- A field whose value some reader reads and some function puts into the record. -/
def make
    (presence : Presence)
    (name : String)
    (reader : Reader α)
    (set : σ → α → σ) :
    Field σ :=
  { name := name
    presence := presence
    read := fun form node record => (reader form node).map (set record) }

/-- A field that every record must give. -/
def required
    (name : String)
    (reader : Reader α)
    (set : σ → α → σ) :
    Field σ :=
  make .required name reader set

/-- A field that a record may leave out where its fields have names. -/
def optional
    (name : String)
    (reader : Reader α)
    (set : σ → α → σ) :
    Field σ :=
  make .optional name reader set

/-- A field that a record may leave out. -/
def defaulted
    (name : String)
    (reader : Reader α)
    (set : σ → α → σ) :
    Field σ :=
  make .defaulted name reader set

/-- The field of some fields that has a name. -/
def find?
    (fields : List (Field σ))
    (name : String) :
    Option (Field σ) :=
  fields.find? (fun field => field.name = name)

/--
Read named members in their order, each field once. Members that name no field
are ignored. The answer holds the names of the fields that were read.
-/
def readMembers
    (fields : List (Field σ))
    (form : Form) :
    List (String × Node) →
    (seen : List String) →
    σ →
    Except ReadError (List String × σ)
  | [], seen, record => .ok (seen, record)
  | (name, node) :: rest, seen, record =>
      match find? fields name with
      | none =>
          if node.skippable then readMembers fields form rest seen record
          else .error .malformed
      | some field =>
          if name ∈ seen then .error (.duplicateField name)
          else
            match field.read form node record with
            | .ok record => readMembers fields form rest (name :: seen) record
            | .error error => .error error

/-- The first field that must be there and was not read. -/
def missing?
    (fields : List (Field σ))
    (seen : List String) :
    Option (Field σ) :=
  fields.find?
    (fun field => field.presence = .required && !(field.name ∈ seen))

/-- Read the named members of a record. -/
def readTable
    (fields : List (Field σ))
    (form : Form)
    (members : List (String × Node))
    (closing : Closing)
    (initial : σ) :
    Except ReadError σ := do
  let (seen, record) ← readMembers fields form members [] initial
  closing.check
  match missing? fields seen with
  | some field => .error (.missingField field.name)
  | none => .ok record

/-- Read the fields of a record by position. -/
def readPositional
    (form : Form)
    (closing : Closing) :
    List (Field σ) → List Node → σ → Except ReadError σ
  | field :: fields, node :: nodes, record =>
      match field.read form node record with
      | .ok record => readPositional form closing fields nodes record
      | .error error => .error error
  | [], [], record => do
      closing.check
      return record
  | [], _ :: _, _ =>
      .error (if form = .jsonText then .malformed else .invalidLength)
  | fields, [], record => do
      closing.check
      if fields.all (fun field => field.presence = .defaulted) then .ok record
      else .error .invalidLength

end Field

/--
Read a record: a table of named members, or outside YAML a list of its fields in
order. An empty plain scalar is a record without members.
-/
def Reader.record
    (fields : List (Field σ))
    (initial : σ) :
    Reader σ
  | form, .table members closing =>
      Field.readTable fields form members closing initial
  | .yamlText, .list _ _ => .error .invalidType
  | form, .list nodes closing =>
      Field.readPositional form closing fields nodes initial
  | form, .scalar "" true => Field.readTable fields form [] .closed initial
  | _, .unreadable _ => .error .malformed
  | _, _ => .error .invalidType

/--
Take the member `tag` out of a table and find the case it names. All other
members must have a value, whatever the case makes of them.
-/
def Reader.splitTag
    (tag : String)
    (named : List (String × α))
    (form : Form) :
    List (String × Node) →
    (found : Option α) →
    Except ReadError (Option α × List (String × Node))
  | [], found => .ok (found, [])
  | (name, node) :: rest, found =>
      if name = tag then
        if found.isSome then .error (.duplicateField tag)
        else do
          let text ← Reader.string form node
          let case ← Reader.case? named text
          splitTag tag named form rest (some case)
      else do
        let _ ← Reader.anyNode node
        let (found, others) ← splitTag tag named form rest found
        return (found, (name, node) :: others)

/--
Read a record whose member `tag` names one of some cases, which reads the other
members. As a list, the tag comes first and the fields of its case follow.
-/
def Reader.tagged
    (tag : String)
    (named : List (String × Reader α)) :
    Reader α
  | form, .table members closing => do
      let (found, others) ← Reader.splitTag tag named form members none
      closing.check
      match found with
      | some reader => reader .value (.table others .closed)
      | none => .error (.missingField tag)
  | _, .list [] closing => do
      closing.check
      .error (.missingField tag)
  | form, .list (first :: rest) closing => do
      let text ← Reader.string form first
      let reader ← Reader.case? named text
      let _ ← Reader.anyItems rest
      closing.check
      reader .value (.list rest .closed)
  | _, .unreadable _ => .error .malformed
  | _, _ => .error .invalidType

/-- Read the whole of a document. -/
def Document.read
    (document : Document)
    (reader : Reader α) :
    Except ReadError α := do
  let value ← reader document.form document.root
  if document.trailing then .error .malformed else .ok value

end AccessTopology
