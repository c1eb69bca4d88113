import AccessTopology.Document.Node
import AccessTopology.Yaml.Token

namespace AccessTopology.Yaml

/-!
# Documents of a YAML text

The grammar of collections over tokens. A text holds one document; what is left
out is an empty scalar. A key that is a collection, and a container inside 128
others, have no value, but may be ignored.
-/

/-- The number of containers inside one another that still have a value. -/
def maxDepth : Nat :=
  128

/-- What is left out. -/
def absent : Node :=
  .scalar "" true

/-- A container that begins inside `depth` others. -/
def atDepth
    (depth : Nat)
    (container : Node) :
    Node :=
  container.limited maxDepth depth container.skippable

/-- A member in front of others; no reader gets past a key that is not a scalar. -/
def withMember
    (key value : Node)
    (members : List (String × Node))
    (closing : Closing) :
    List (String × Node) × Closing :=
  match key with
  | .scalar name _ => ((name, value) :: members, closing)
  | _ => ([], .stopped true)

/-- Whether a token ends an item or value of a block collection. -/
def endsBlockItem : List Token → Bool
  | .blockEntry :: _ => true
  | .key :: _ => true
  | .value :: _ => true
  | .blockEnd :: _ => true
  | [] => true
  | _ => false

/-- Whether a token follows what was left out in a block mapping. -/
def endsBlockPair : List Token → Bool
  | .key :: _ => true
  | .value :: _ => true
  | .blockEnd :: _ => true
  | _ => false

/-- Whether a token follows what was left out between brackets. -/
def endsFlowPair (close : Token) : List Token → Bool
  | .value :: _ => true
  | .flowEntry :: _ => true
  | token :: _ => token = close
  | [] => false

mutual

/--
The node that some tokens begin with. Block collections may begin where `block`
holds; where `indentless` holds also a sequence that is not indented.
-/
def node?
    (fuel depth : Nat)
    (block indentless : Bool)
    (tokens : List Token) :
    Option (Node × List Token) :=
  match fuel with
  | 0 => none
  | fuel + 1 =>
      match tokens with
      | .scalar text plain :: rest => some (.scalar text plain, rest)
      | .flowSequenceStart :: rest => do
          let (items, rest) ← flowItems? fuel (depth + 1) true rest
          some (atDepth depth (.list items .closed), rest)
      | .flowMappingStart :: rest => do
          let (members, closing, rest) ← flowMembers? fuel (depth + 1) true rest
          some (atDepth depth (.table members closing), rest)
      | .blockEntry :: _ =>
          if indentless then do
            let (items, rest) ← blockItems? fuel (depth + 1) false tokens
            some (atDepth depth (.list items .closed), rest)
          else
            none
      | .blockSequenceStart :: rest =>
          if block then do
            let (items, rest) ← blockItems? fuel (depth + 1) true rest
            some (atDepth depth (.list items .closed), rest)
          else
            none
      | .blockMappingStart :: rest =>
          if block then do
            let (members, closing, rest) ← blockMembers? fuel (depth + 1) rest
            some (atDepth depth (.table members closing), rest)
          else
            none
      | _ => none

/-- The items of a block sequence, which has a token for its end if it is `indented`. -/
def blockItems?
    (fuel depth : Nat)
    (indented : Bool)
    (tokens : List Token) :
    Option (List Node × List Token) :=
  match fuel with
  | 0 => none
  | fuel + 1 =>
      match tokens with
      | .blockEntry :: rest => do
          let empty :=
            if indented then
              match rest with
              | .blockEntry :: _ => true
              | .blockEnd :: _ => true
              | _ => false
            else endsBlockItem rest
          let (item, rest) ←
            if empty then some (absent, rest)
            else node? fuel depth true false rest
          let (items, rest) ← blockItems? fuel depth indented rest
          some (item :: items, rest)
      | .blockEnd :: rest =>
          if indented then some ([], rest) else some ([], tokens)
      | _ => if indented then none else some ([], tokens)

/-- The value after a key of a block mapping. -/
def blockValue?
    (fuel depth : Nat)
    (tokens : List Token) :
    Option (Node × List Token) :=
  match fuel with
  | 0 => none
  | fuel + 1 =>
      match tokens with
      | .value :: rest =>
          if endsBlockPair rest then some (absent, rest)
          else node? fuel depth true true rest
      | _ => some (absent, tokens)

/-- The members of a block mapping, up to its end. -/
def blockMembers?
    (fuel depth : Nat)
    (tokens : List Token) :
    Option (List (String × Node) × Closing × List Token) :=
  match fuel with
  | 0 => none
  | fuel + 1 =>
      match tokens with
      | .blockEnd :: rest => some ([], .closed, rest)
      | .key :: rest => do
          let (key, rest) ←
            if endsBlockPair rest then some (absent, rest)
            else node? fuel depth true true rest
          let (value, rest) ← blockValue? fuel depth rest
          let (members, closing, rest) ← blockMembers? fuel depth rest
          let (members, closing) := withMember key value members closing
          some (members, closing, rest)
      | _ => none

/-- The value after a key between brackets, which `close` ends. -/
def flowValue?
    (fuel depth : Nat)
    (close : Token)
    (tokens : List Token) :
    Option (Node × List Token) :=
  match fuel with
  | 0 => none
  | fuel + 1 =>
      match tokens with
      | .value :: .flowEntry :: rest => some (absent, .flowEntry :: rest)
      | .value :: rest =>
          if rest.head? = some close then some (absent, rest)
          else node? fuel depth false false rest
      | _ => some (absent, tokens)

/-- The items of a bracketed sequence; all but the first follow a comma. -/
def flowItems?
    (fuel depth : Nat)
    (first : Bool)
    (tokens : List Token) :
    Option (List Node × List Token) :=
  match fuel with
  | 0 => none
  | fuel + 1 =>
      match tokens, first with
      | .flowSequenceEnd :: rest, _ => some ([], rest)
      | .flowEntry :: rest, false => flowItem? fuel depth rest
      | tokens, true => flowItem? fuel depth tokens
      | _, false => none

/--
An item of a bracketed sequence and those after it, or its end. A pair whose
key is left out takes the token after its mark with it, whatever that is.
-/
def flowItem?
    (fuel depth : Nat)
    (tokens : List Token) :
    Option (List Node × List Token) :=
  match fuel with
  | 0 => none
  | fuel + 1 =>
      match tokens with
      | .flowSequenceEnd :: rest => some ([], rest)
      | .key :: rest => do
          let (key, rest) ←
            if endsFlowPair .flowSequenceEnd rest then
              some (absent, rest.drop 1)
            else node? fuel (depth + 1) false false rest
          let (value, rest) ← flowValue? fuel (depth + 1) .flowSequenceEnd rest
          let (members, closing) := withMember key value [] .closed
          let item := atDepth depth (.table members closing)
          let (items, rest) ← flowItems? fuel depth false rest
          some (item :: items, rest)
      | _ => do
          let (item, rest) ← node? fuel depth false false tokens
          let (items, rest) ← flowItems? fuel depth false rest
          some (item :: items, rest)

/-- The members of a bracketed mapping; all but the first follow a comma. -/
def flowMembers?
    (fuel depth : Nat)
    (first : Bool)
    (tokens : List Token) :
    Option (List (String × Node) × Closing × List Token) :=
  match fuel with
  | 0 => none
  | fuel + 1 =>
      match tokens, first with
      | .flowMappingEnd :: rest, _ => some ([], .closed, rest)
      | .flowEntry :: rest, false => flowMember? fuel depth rest
      | tokens, true => flowMember? fuel depth tokens
      | _, false => none

/-- A member of a bracketed mapping and those after it, or its end. -/
def flowMember?
    (fuel depth : Nat)
    (tokens : List Token) :
    Option (List (String × Node) × Closing × List Token) :=
  match fuel with
  | 0 => none
  | fuel + 1 =>
      match tokens with
      | .flowMappingEnd :: rest => some ([], .closed, rest)
      | .key :: rest => do
          let (key, rest) ←
            if endsFlowPair .flowMappingEnd rest then some (absent, rest)
            else node? fuel depth false false rest
          let (value, rest) ← flowValue? fuel depth .flowMappingEnd rest
          let (members, closing, rest) ← flowMembers? fuel depth false rest
          let (members, closing) := withMember key value members closing
          some (members, closing, rest)
      | _ => do
          let (key, rest) ← node? fuel depth false false tokens
          let (members, closing, rest) ← flowMembers? fuel depth false rest
          let (members, closing) := withMember key absent members closing
          some (members, closing, rest)

end

/-- The content of a document after its mark. -/
def content?
    (fuel : Nat)
    (tokens : List Token) :
    Option (Node × List Token) :=
  match tokens with
  | [] => some (absent, [])
  | .documentStart :: _ => some (absent, tokens)
  | .documentEnd :: _ => some (absent, tokens)
  | _ => node? fuel 0 true false tokens

/-- The one document of some tokens; marks that end it may follow. -/
def root?
    (fuel : Nat)
    (tokens : List Token) :
    Option Node := do
  let (root, rest) ←
    match tokens with
    | [] => some (absent, [])
    | .documentStart :: rest => content? fuel rest
    | _ => node? fuel 0 true false tokens
  if rest.all (· = .documentEnd) then some root else none

/-- The document of a YAML text. -/
def parse (text : String) : Document :=
  let root := do
    let tokens ← tokens? text
    root? (4 * tokens.length + 4) tokens
  ⟨.yamlText, root.getD (.unreadable false), false⟩

end AccessTopology.Yaml
