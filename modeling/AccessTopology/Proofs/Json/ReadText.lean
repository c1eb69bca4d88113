import AccessTopology.Document.Reader
import AccessTopology.Proofs.Json.UniqueText

namespace AccessTopology.Json

/-!
# Reading canonical texts

A reader of any value takes a document as its canonical value.  The canonical
text of a value within the limits of the grammar is a document of that kind, so
what is read back from it is the same value, with the names of every object in
order.
-/

/-- A reader of any value sorts the members of a value's objects. -/
theorem anyNode_ofJson (value : Json) :
    Reader.anyNode (.ofJson value) = .ok value.canonical := by
  induction value using induction with
  | null | bool | number | string =>
      rfl
  | array items inductionHypothesis =>
      have readItems :
          Reader.anyItems (Node.ofItems items) =
            .ok (canonicalItems items) := by
        induction items with
        | nil =>
            rfl
        | cons item items readOthers =>
            obtain ⟨readItem, readRest⟩ :=
              List.forall_mem_cons.mp inductionHypothesis
            rw [Node.ofItems, Reader.anyItems, readItem, readOthers readRest]
            rfl
      rw [Node.ofJson, Reader.anyNode, readItems]
      rfl
  | object members inductionHypothesis =>
      have readMembers :
          Reader.anyMembers (Node.ofMembers members) =
            .ok (canonicalMembers members) := by
        induction members with
        | nil =>
            rfl
        | cons member members readOthers =>
            obtain ⟨readMember, readRest⟩ :=
              List.forall_mem_cons.mp inductionHypothesis
            rw [Node.ofMembers, Reader.anyMembers, readMember,
              readOthers readRest]
            rfl
      rw [Node.ofJson, Reader.anyNode, readMembers]
      rfl

/-- The canonical text of a value reads back as the value in canonical form. -/
theorem read_canonicalText
    {value : Json}
    (integral : value.Integral)
    (nested : value.NestedWithin JsonText.maxDepth) :
    (JsonText.parse value.canonicalText).read Reader.any =
      .ok value.canonical := by
  have increase := keysIncrease_canonical value
  rw [canonicalText, parse_compact integral.canonical nested.canonical,
    Document.read, Reader.any, anyNode_ofJson, increase.canonical_eq]
  rfl

end AccessTopology.Json
