import AccessTopology.Proofs.Json.Canonical
import AccessTopology.Proofs.Json.IntegerText
import AccessTopology.Proofs.Json.QuotedText

namespace AccessTopology

/-!
# Reading back compact texts

The parser takes the compact text of a value apart as the printer put it
together: it finds the value at the start of the text and goes on where the
value ends.  Where containers are nested too deeply it leaves some of them
empty, but it still finds their ends.
-/

namespace Json

/-- A node as the parser leaves it inside `depth` containers. -/
def entered
    (depth : Nat)
    (node : Node) :
    Node :=
  node.limited JsonText.maxDepth depth node.skippable

mutual

/-- What the parser makes of a value inside `depth` containers. -/
def nodeAt (depth : Nat) : Json → Node
  | .null => .null
  | .bool value => .bool value
  | .number value => .number value
  | .string text => .string text
  | .array items => entered depth (.list (itemsAt (depth + 1) items) .closed)
  | .object members =>
      entered depth (.table (membersAt (depth + 1) members) .closed)

/-- What the parser makes of the items of an array. -/
def itemsAt (depth : Nat) : List Json → List Node
  | [] => []
  | item :: items => nodeAt depth item :: itemsAt depth items

/-- What the parser makes of the members of an object. -/
def membersAt (depth : Nat) : List (String × Json) → List (String × Node)
  | [] => []
  | (name, value) :: members =>
      (name, nodeAt depth value) :: membersAt depth members

end

/-- The parser finds a value at the start of its text, inside any containers. -/
def ReadsBack (value : Json) : Prop :=
  ∀ (depth fuel : Nat) (rest : List Char),
    value.compactChars.length ≤ fuel →
      Stops rest →
        JsonText.value fuel depth (value.compactChars ++ rest) =
          (value.nodeAt depth, some rest)

/-- No integer's text starts with a blank, a bracket, a brace or a quote. -/
theorem integerChars_eq_cons
    (value : Int) :
    ∃ c cs,
      integerChars value = c :: cs ∧
        (c ≠ '[' ∧ c ≠ ']' ∧ c ≠ '\x7b' ∧ c ≠ '\x22') ∧
          ∀ text, JsonText.skipBlanks (c :: text) = c :: text := by
  obtain ⟨c, cs, written, rfl | isDigit⟩ :=
    JsonText.integerChars_eq_cons value
  · exact ⟨'-', cs, written, by decide, fun _ => rfl⟩
  · have apart
        (other : Char)
        (noDigit : other.isDigit = false) :
        c ≠ other :=
      JsonText.ne_of_isDigit isDigit noDigit
    refine ⟨c, cs, written,
      ⟨apart _ rfl, apart _ rfl, apart _ rfl, apart _ rfl⟩, ?_⟩
    intro text
    refine List.dropWhile_cons_of_neg ?_
    simp [apart ' ' rfl, apart '\n' rfl, apart '\t' rfl, apart '\r' rfl]

/-- No value's text starts with a blank or a closing bracket. -/
theorem Integral.compactChars_eq_cons
    {value : Json}
    (integral : value.Integral) :
    ∃ c cs,
      value.compactChars = c :: cs ∧
        c ≠ ']' ∧
          ∀ text, JsonText.skipBlanks (c :: text) = c :: text := by
  cases integral with
  | null =>
      exact ⟨_, _, rfl, by decide, fun _ => rfl⟩
  | bool value =>
      cases value <;> exact ⟨_, _, rfl, by decide, fun _ => rfl⟩
  | string text =>
      exact ⟨_, _, rfl, by decide, fun _ => rfl⟩
  | @number value fits =>
      obtain ⟨c, cs, written, ⟨_, notClosing, _⟩, solid⟩ :=
        integerChars_eq_cons value
      exact ⟨c, cs, written, notClosing, solid⟩
  | @array items _ =>
      cases items <;> exact ⟨_, _, rfl, by decide, fun _ => rfl⟩
  | @object members _ =>
      cases members <;> exact ⟨_, _, rfl, by decide, fun _ => rfl⟩

theorem readsBack_null : ReadsBack .null := by
  intro depth fuel rest enough _
  cases fuel with
  | zero =>
      simp [compactChars] at enough
  | succ fuel =>
      rfl

theorem readsBack_bool (value : Bool) : ReadsBack (.bool value) := by
  intro depth fuel rest enough _
  cases fuel with
  | zero =>
      cases value <;> simp [compactChars] at enough
  | succ fuel =>
      cases value <;> rfl

theorem readsBack_string (text : String) : ReadsBack (.string text) := by
  intro depth fuel rest enough _
  cases fuel with
  | zero =>
      simp [compactChars, quoted] at enough
  | succ fuel =>
      have readBack := JsonText.stringBody?_quoted text rest
      have quote (more : List Char) :
          JsonText.skipBlanks ('\x22' :: more) = '\x22' :: more :=
        rfl
      rw [compactChars, quoted, List.cons_append, List.append_assoc,
        List.singleton_append, JsonText.value, quote]
      simp only [readBack, String.ofList_toList]
      rfl

theorem readsBack_integer
    {value : Int}
    (fits : Number.fits value = true) :
    ReadsBack (.number (.integer value)) := by
  intro depth fuel rest enough stops
  obtain ⟨c, cs, written, ⟨notBracket, _, notBrace, notQuote⟩, solid⟩ :=
    integerChars_eq_cons value
  have readBack := JsonText.literal_integerChars fits stops
  cases fuel with
  | zero =>
      simp [compactChars, numberChars, written] at enough
  | succ fuel =>
      rw [compactChars, numberChars, nodeAt]
      rw [written, List.cons_append] at readBack ⊢
      simp [JsonText.value, solid, notBracket, notBrace, notQuote, readBack]

theorem stops_compactItems
    (items : List Json)
    (rest : List Char) :
    Stops (compactItems items ++ rest) := by
  cases items <;> simp [Stops, compactItems]

theorem stops_compactMembers
    (members : List (String × Json))
    (rest : List Char) :
    Stops (compactMembers members ++ rest) := by
  cases members with
  | nil =>
      simp [Stops, compactMembers]
  | cons member members =>
      obtain ⟨name, value⟩ := member
      simp [Stops, compactMembers]

/-- The parser finds the items of an array and the bracket that closes it. -/
theorem items_eq_itemsAt
    {item : Json}
    {items : List Json}
    (readBack : ∀ value ∈ item :: items, value.ReadsBack)
    (depth : Nat)
    {fuel : Nat}
    (enough : (item.compactChars ++ compactItems items).length ≤ fuel)
    (rest : List Char) :
    JsonText.items fuel depth
        (item.compactChars ++ (compactItems items ++ rest)) =
      (itemsAt depth (item :: items), .closed, some rest) := by
  induction items generalizing item fuel with
  | nil =>
      cases fuel with
      | zero =>
          simp [compactItems] at enough
      | succ fuel =>
          have found :=
            readBack item List.mem_cons_self depth fuel
              (compactItems [] ++ rest)
              (by simpa [compactItems] using enough)
              (stops_compactItems [] rest)
          rw [JsonText.items, found]
          rfl
  | cons next items inductionHypothesis =>
      cases fuel with
      | zero =>
          simp [compactItems] at enough
      | succ fuel =>
          obtain ⟨itemReadsBack, othersReadBack⟩ :=
            List.forall_mem_cons.mp readBack
          rw [compactItems, List.length_append, List.length_cons] at enough
          have found :=
            itemReadsBack depth fuel (compactItems (next :: items) ++ rest)
              (by omega) (stops_compactItems (next :: items) rest)
          have enoughForOthers :
              (next.compactChars ++ compactItems items).length ≤ fuel := by
            omega
          have comma (text : List Char) :
              JsonText.skipBlanks (',' :: text) = ',' :: text :=
            rfl
          rw [JsonText.items, found]
          simp only [compactItems, List.cons_append, comma, List.append_assoc,
            inductionHypothesis othersReadBack enoughForOthers]
          rfl

/-- A member is found where its value is, and what follows decides the rest. -/
theorem members_quoted
    {depth fuel : Nat}
    {text rest : List Char}
    {node : Node}
    (found : JsonText.value fuel depth text = (node, some rest))
    (name : String) :
    JsonText.members (fuel + 1) depth (quoted name ++ ':' :: text) =
      let (members, closing, rest) :=
        match JsonText.skipBlanks rest with
        | '\x7d' :: rest => ([], .closed, some rest)
        | ',' :: rest => JsonText.members fuel depth rest
        | _ => ([], .stopped false, none)
      ((name, node) :: members, closing, rest) := by
  have named := JsonText.stringBody?_quoted name (':' :: text)
  have quote (text : List Char) :
      JsonText.skipBlanks ('\x22' :: text) = '\x22' :: text :=
    rfl
  have colon (text : List Char) :
      JsonText.skipBlanks (':' :: text) = ':' :: text :=
    rfl
  rw [JsonText.members, quoted, List.cons_append, List.append_assoc,
    List.singleton_append, quote]
  simp only [named, colon, String.ofList_toList]
  rewrite [found]
  rfl

/-- The parser finds the members of an object and the brace that closes it. -/
theorem members_eq_membersAt
    {name : String}
    {value : Json}
    {members : List (String × Json)}
    (readBack : ∀ member ∈ (name, value) :: members, member.2.ReadsBack)
    (depth : Nat)
    {fuel : Nat}
    (enough :
      (quoted name ++ ':' :: value.compactChars ++
        compactMembers members).length ≤ fuel)
    (rest : List Char) :
    JsonText.members fuel depth
        (quoted name ++
          ':' :: (value.compactChars ++ (compactMembers members ++ rest))) =
      (membersAt depth ((name, value) :: members), .closed, some rest) := by
  induction members generalizing name value fuel with
  | nil =>
      cases fuel with
      | zero =>
          simp [compactMembers] at enough
      | succ fuel =>
          have valueReadsBack : value.ReadsBack :=
            readBack (name, value) List.mem_cons_self
          simp only [List.length_append, List.length_cons] at enough
          have found :=
            valueReadsBack depth fuel (compactMembers [] ++ rest) (by omega)
              (stops_compactMembers [] rest)
          rw [members_quoted found]
          rfl
  | cons next members inductionHypothesis =>
      obtain ⟨nextName, nextValue⟩ := next
      cases fuel with
      | zero =>
          simp [compactMembers] at enough
      | succ fuel =>
          have valueReadsBack : value.ReadsBack :=
            readBack (name, value) List.mem_cons_self
          rw [compactMembers, List.length_append, List.length_append,
            List.length_cons, List.length_cons] at enough
          have found :=
            valueReadsBack depth fuel
              (compactMembers ((nextName, nextValue) :: members) ++ rest)
              (by omega)
              (stops_compactMembers ((nextName, nextValue) :: members) rest)
          have enoughForOthers :
              (quoted nextName ++ ':' :: nextValue.compactChars ++
                compactMembers members).length ≤ fuel := by
            omega
          have more :=
            inductionHypothesis
              (fun member listed =>
                readBack member (List.mem_cons_of_mem _ listed))
              enoughForOthers
          have comma (text : List Char) :
              JsonText.skipBlanks (',' :: text) = ',' :: text :=
            rfl
          rw [members_quoted found]
          simp only [compactMembers, List.cons_append, comma,
            List.append_assoc, more]
          rfl

theorem container_eq_entered
    (depth : Nat)
    (node : Node)
    (rest : List Char) :
    JsonText.container depth node (some rest) =
      (entered depth node, some rest) := by
  rw [JsonText.container, entered, Option.isSome_some, Bool.and_true]

/-- The parser finds an array where it finds the items. -/
theorem readsBack_array
    {items : List Json}
    (integral : ∀ item ∈ items, item.Integral)
    (readBack : ∀ item ∈ items, item.ReadsBack) :
    ReadsBack (.array items) := by
  intro depth fuel rest enough _
  have bracket (text : List Char) :
      JsonText.skipBlanks ('[' :: text) = '[' :: text :=
    rfl
  cases fuel with
  | zero =>
      cases items <;> simp [compactChars] at enough
  | succ fuel =>
      cases items with
      | nil =>
          exact container_eq_entered depth (.list [] .closed) rest
      | cons item items =>
          obtain ⟨c, cs, written, notClosing, solid⟩ :=
            (integral item List.mem_cons_self).compactChars_eq_cons
          rw [compactChars, List.length_cons] at enough
          have found :=
            items_eq_itemsAt readBack (depth + 1) (Nat.le_of_succ_le_succ enough)
              rest
          rw [compactChars, List.cons_append, List.append_assoc,
            JsonText.value, bracket]
          rw [written, List.cons_append] at found ⊢
          simp only [solid, List.cons.injEq, notClosing, false_and, imp_false,
            not_false_eq_true, implies_true, found]
          exact container_eq_entered depth _ rest

/-- The parser finds an object where it finds the values of its members. -/
theorem readsBack_object
    {members : List (String × Json)}
    (readBack : ∀ member ∈ members, member.2.ReadsBack) :
    ReadsBack (.object members) := by
  intro depth fuel rest enough _
  have brace (text : List Char) :
      JsonText.skipBlanks ('\x7b' :: text) = '\x7b' :: text :=
    rfl
  have quote (text : List Char) :
      JsonText.skipBlanks ('\x22' :: text) = '\x22' :: text :=
    rfl
  cases fuel with
  | zero =>
      cases members with
      | nil =>
          simp [compactChars] at enough
      | cons member members =>
          simp [compactChars] at enough
  | succ fuel =>
      cases members with
      | nil =>
          exact container_eq_entered depth (.table [] .closed) rest
      | cons member members =>
          obtain ⟨name, value⟩ := member
          rw [compactChars, List.length_cons] at enough
          have found :=
            members_eq_membersAt readBack (depth + 1)
              (Nat.le_of_succ_le_succ enough) rest
          rw [quoted, List.cons_append] at found
          rw [compactChars, List.cons_append, JsonText.value, brace]
          simp only [quoted, List.cons_append, List.append_assoc] at found ⊢
          simp only [quote, List.cons.injEq, Char.reduceEq, false_and,
            imp_false, not_false_eq_true, implies_true, found]
          exact container_eq_entered depth _ rest

/-- The parser finds every value whose numbers are integers of 64 bits. -/
theorem Integral.readsBack
    {value : Json}
    (integral : value.Integral) :
    value.ReadsBack := by
  induction value using induction with
  | null =>
      exact readsBack_null
  | bool value =>
      exact readsBack_bool value
  | number value =>
      cases integral with
      | number fits =>
          exact readsBack_integer fits
  | string text =>
      exact readsBack_string text
  | array items inductionHypothesis =>
      cases integral with
      | array itemsIntegral =>
          exact readsBack_array itemsIntegral
            (fun item listed =>
              inductionHypothesis item listed (itemsIntegral item listed))
  | object members inductionHypothesis =>
      cases integral with
      | object membersIntegral =>
          exact readsBack_object
            (fun member listed =>
              inductionHypothesis member listed
                (membersIntegral member listed))

theorem itemsAt_eq
    {depth : Nat}
    {items : List Json}
    (complete : ∀ item ∈ items, item.nodeAt depth = .ofJson item) :
    itemsAt depth items = Node.ofItems items := by
  induction items with
  | nil =>
      rfl
  | cons item items inductionHypothesis =>
      obtain ⟨itemComplete, othersComplete⟩ :=
        List.forall_mem_cons.mp complete
      rw [itemsAt, Node.ofItems, itemComplete,
        inductionHypothesis othersComplete]

theorem membersAt_eq
    {depth : Nat}
    {members : List (String × Json)}
    (complete :
      ∀ member ∈ members, member.2.nodeAt depth = .ofJson member.2) :
    membersAt depth members = Node.ofMembers members := by
  induction members with
  | nil =>
      rfl
  | cons member members inductionHypothesis =>
      obtain ⟨memberComplete, othersComplete⟩ :=
        List.forall_mem_cons.mp complete
      rw [membersAt, Node.ofMembers, memberComplete,
        inductionHypothesis othersComplete]

/-- Within the limit the parser leaves nothing out. -/
theorem NestedWithin.nodeAt_eq
    {limit depth : Nat}
    {value : Json}
    (nested : value.NestedWithin limit)
    (within : depth + limit ≤ JsonText.maxDepth) :
    value.nodeAt depth = .ofJson value := by
  induction value using induction generalizing limit depth with
  | null | bool | number | string =>
      rfl
  | array items inductionHypothesis =>
      cases nested with
      | array itemsNested =>
          have complete :=
            itemsAt_eq (fun item listed =>
              inductionHypothesis item listed (itemsNested item listed)
                (Nat.succ_add_eq_add_succ depth _ ▸ within))
          rw [nodeAt, complete, entered, Node.limited, if_pos (by omega),
            Node.ofJson]
  | object members inductionHypothesis =>
      cases nested with
      | object membersNested =>
          have complete :=
            membersAt_eq (fun member listed =>
              inductionHypothesis member listed (membersNested member listed)
                (Nat.succ_add_eq_add_succ depth _ ▸ within))
          rw [nodeAt, complete, entered, Node.limited, if_pos (by omega),
            Node.ofJson]

/-- The compact text of a value is one document and reads back as the value. -/
theorem parse_compact
    {value : Json}
    (integral : value.Integral)
    (nested : value.NestedWithin JsonText.maxDepth) :
    JsonText.parse value.compact = ⟨.jsonText, .ofJson value, false⟩ := by
  have atEnd : Stops [] := by
    simp [Stops]
  have found :=
    integral.readsBack 0 (2 * value.compactChars.length + 2) []
      (by omega) atEnd
  rw [List.append_nil, nested.nodeAt_eq (Nat.zero_add _).le] at found
  rw [JsonText.parse, compact, String.toList_ofList]
  simp only [found]
  rfl

end Json

end AccessTopology
