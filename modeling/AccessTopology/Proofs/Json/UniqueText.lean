import AccessTopology.Proofs.Json.ParsedText

namespace AccessTopology.Json

/-!
# Values with one text

Two values with one compact text are equal, whatever they nest.  The parser
finds the same kind of value with the same end at the start of a text, so one
text has the same first item as another one, and the same remaining items.  It
need not look into containers that are nested too deeply, since each of them is
a text of its own.
-/

variable {left right : Json} {leftRest rightRest : List Char}

/-- One text begins with values that end at one place and look alike. -/
theorem split_eq
    (leftIntegral : left.Integral)
    (rightIntegral : right.Integral)
    (leftStops : Stops leftRest)
    (rightStops : Stops rightRest)
    (same :
      left.compactChars ++ leftRest = right.compactChars ++ rightRest) :
    left.compactChars = right.compactChars ∧ leftRest = rightRest ∧
      left.nodeAt 0 = right.nodeAt 0 := by
  let fuel := left.compactChars.length + right.compactChars.length
  have leftFound :=
    leftIntegral.readsBack 0 fuel leftRest (Nat.le_add_right _ _) leftStops
  have rightFound :=
    rightIntegral.readsBack 0 fuel rightRest (Nat.le_add_left _ _) rightStops
  rw [same, rightFound, Prod.mk.injEq, Option.some.injEq] at leftFound
  obtain ⟨sameNode, rfl⟩ := leftFound
  exact ⟨List.append_cancel_right same, rfl, sameNode.symm⟩

/-- A list of items has a text of its own if each of its items has. -/
theorem compactItems_inj
    {items others : List Json}
    (itemsIntegral : ∀ item ∈ items, item.Integral)
    (othersIntegral : ∀ other ∈ others, other.Integral)
    (unique :
      ∀ item ∈ items,
        ∀ other : Json,
          other.Integral →
            item.compactChars = other.compactChars → item = other)
    (same : compactItems items = compactItems others) :
    items = others := by
  induction items generalizing others with
  | nil =>
      cases others with
      | nil =>
          rfl
      | cons other others =>
          simp [compactItems] at same
  | cons item items inductionHypothesis =>
      cases others with
      | nil =>
          simp [compactItems] at same
      | cons other others =>
          obtain ⟨itemIntegral, itemsIntegral⟩ :=
            List.forall_mem_cons.mp itemsIntegral
          obtain ⟨otherIntegral, othersIntegral⟩ :=
            List.forall_mem_cons.mp othersIntegral
          obtain ⟨itemUnique, itemsUnique⟩ := List.forall_mem_cons.mp unique
          rw [compactItems, compactItems, List.cons.injEq] at same
          obtain ⟨sameItem, sameItems, _⟩ :=
            split_eq itemIntegral otherIntegral
              (by simpa using stops_compactItems items [])
              (by simpa using stops_compactItems others []) same.2
          have isOther : item = other :=
            itemUnique other otherIntegral sameItem
          have areOthers : items = others :=
            inductionHypothesis itemsIntegral othersIntegral itemsUnique
              sameItems
          rw [isOther, areOthers]

/-- A list of members has a text of its own if each of their values has. -/
theorem compactMembers_inj
    {members others : List (String × Json)}
    (membersIntegral : ∀ member ∈ members, member.2.Integral)
    (othersIntegral : ∀ other ∈ others, other.2.Integral)
    (unique :
      ∀ member ∈ members,
        ∀ other : Json,
          other.Integral →
            member.2.compactChars = other.compactChars → member.2 = other)
    (same : compactMembers members = compactMembers others) :
    members = others := by
  induction members generalizing others with
  | nil =>
      cases others with
      | nil =>
          rfl
      | cons other others =>
          simp [compactMembers] at same
  | cons member members inductionHypothesis =>
      cases others with
      | nil =>
          simp [compactMembers] at same
      | cons other others =>
          obtain ⟨name, value⟩ := member
          obtain ⟨otherName, otherValue⟩ := other
          obtain ⟨valueIntegral, membersIntegral⟩ :=
            List.forall_mem_cons.mp membersIntegral
          obtain ⟨otherIntegral, restIntegral⟩ :=
            List.forall_mem_cons.mp othersIntegral
          obtain ⟨valueUnique, membersUnique⟩ :=
            List.forall_mem_cons.mp unique
          rw [compactMembers, compactMembers, List.cons.injEq,
            List.append_assoc, List.append_assoc] at same
          obtain ⟨rfl, sameRest⟩ := JsonText.quoted_append_inj same.2
          rw [List.cons_append, List.cons_append, List.cons.injEq] at sameRest
          obtain ⟨sameValue, sameMembers, _⟩ :=
            split_eq valueIntegral otherIntegral
              (by simpa using stops_compactMembers members [])
              (by simpa using stops_compactMembers others []) sameRest.2
          have isOther : value = otherValue :=
            valueUnique otherValue otherIntegral sameValue
          have areOthers : members = others :=
            inductionHypothesis membersIntegral restIntegral membersUnique
              sameMembers
          rw [isOther, areOthers]

/-- Arrays with one text have items with one text. -/
theorem compactItems_eq_of_array
    {items others : List Json}
    (sameNode : nodeAt 0 (.array items) = nodeAt 0 (.array others))
    (same : compactChars (.array items) = compactChars (.array others)) :
    compactItems items = compactItems others := by
  cases items with
  | nil =>
      cases others with
      | nil =>
          rfl
      | cons other others =>
          cases sameNode
  | cons item items =>
      cases others with
      | nil =>
          cases sameNode
      | cons other others =>
          simpa [compactChars, compactItems] using same

/-- Objects with one text have members with one text. -/
theorem compactMembers_eq_of_object
    {members others : List (String × Json)}
    (sameNode : nodeAt 0 (.object members) = nodeAt 0 (.object others))
    (same :
      compactChars (.object members) = compactChars (.object others)) :
    compactMembers members = compactMembers others := by
  cases members with
  | nil =>
      cases others with
      | nil =>
          rfl
      | cons other others =>
          cases sameNode
  | cons member members =>
      cases others with
      | nil =>
          cases sameNode
      | cons other others =>
          simpa [compactChars, compactMembers] using same

/-- Values with one text look alike to the parser. -/
theorem Integral.nodeAt_eq
    (leftIntegral : left.Integral)
    (rightIntegral : right.Integral)
    (same : left.compactChars = right.compactChars) :
    left.nodeAt 0 = right.nodeAt 0 := by
  have atEnd : Stops [] := by
    simp [Stops]
  exact (split_eq leftIntegral rightIntegral atEnd atEnd
    (congrArg (· ++ []) same)).2.2

/-- Values with one compact text are equal. -/
theorem Integral.compactChars_inj
    (leftIntegral : left.Integral)
    (rightIntegral : right.Integral)
    (same : left.compactChars = right.compactChars) :
    left = right := by
  have sameNode := leftIntegral.nodeAt_eq rightIntegral same
  induction left using induction generalizing right with
  | null | bool | number | string =>
      cases right <;> cases sameNode
      rfl
  | array items inductionHypothesis =>
      cases right with
      | array others =>
          cases leftIntegral with
          | array itemsIntegral =>
              cases rightIntegral with
              | array othersIntegral =>
                  refine congrArg Json.array
                    (compactItems_inj itemsIntegral othersIntegral ?_
                      (compactItems_eq_of_array sameNode same))
                  intro item listed other otherIntegral sameText
                  have itemIntegral := itemsIntegral item listed
                  exact inductionHypothesis item listed itemIntegral
                    otherIntegral sameText
                    (itemIntegral.nodeAt_eq otherIntegral sameText)
      | _ =>
          cases sameNode
  | object members inductionHypothesis =>
      cases right with
      | object others =>
          cases leftIntegral with
          | object membersIntegral =>
              cases rightIntegral with
              | object othersIntegral =>
                  refine congrArg Json.object
                    (compactMembers_inj membersIntegral othersIntegral ?_
                      (compactMembers_eq_of_object sameNode same))
                  intro member listed other otherIntegral sameText
                  have memberIntegral := membersIntegral member listed
                  exact inductionHypothesis member listed memberIntegral
                    otherIntegral sameText
                    (memberIntegral.nodeAt_eq otherIntegral sameText)
      | _ =>
          cases sameNode

/-- Values have one canonical text when they are the same. -/
theorem Integral.canonicalText_eq_iff
    (leftIntegral : left.Integral)
    (rightIntegral : right.Integral) :
    left.canonicalText = right.canonicalText ↔ left.SameValue right := by
  rw [sameValue_iff_canonical_eq, canonicalText, canonicalText, compact,
    compact, String.ofList_inj]
  constructor
  · exact leftIntegral.canonical.compactChars_inj rightIntegral.canonical
  · intro same
    rw [same]

end AccessTopology.Json
