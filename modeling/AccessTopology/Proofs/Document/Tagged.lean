import AccessTopology.Proofs.Document.Codec
import AccessTopology.Proofs.Draft.Document

namespace AccessTopology

/-!
# Tagged records read back

A tagged record lists, among the members of its case, one that names the case.
Wherever that member stands, the others are read as the case's record.
-/

namespace Reader

/-- Members that are not the tag are all handed on. -/
theorem splitTag_of_untagged
    {tag : String}
    (named : List (String × α))
    (form : Form)
    {listed : List (String × Json)}
    (untagged : tag ∉ listed.map Prod.fst)
    (found : Option α) :
    splitTag tag named form (Node.ofMembers listed) found =
      .ok (found, Node.ofMembers listed) := by
  induction listed with
  | nil =>
      rfl
  | cons member rest inductionHypothesis =>
      obtain ⟨name, value⟩ := member
      rw [List.map_cons, List.mem_cons, not_or] at untagged
      have isOther : name ≠ tag := Ne.symm untagged.1
      simp only [Node.ofMembers, splitTag, isOther, ↓reduceIte,
        Json.anyNode_ofJson, inductionHypothesis untagged.2]
      rfl

/-- The tag is taken out from where it stands. -/
theorem splitTag_eq
    {tag name : String}
    {named : List (String × α)}
    {case : α}
    (known : named.lookup name = some case)
    {form : Form}
    {listed : List (String × Json)}
    (distinct : (listed.map Prod.fst).Nodup)
    (tagged : listed.lookup tag = some (.string name)) :
    splitTag tag named form (Node.ofMembers listed) none =
      .ok
        (some case,
          Node.ofMembers (listed.filter (fun member => member.1 ≠ tag))) := by
  induction listed with
  | nil =>
      cases tagged
  | cons member rest inductionHypothesis =>
      obtain ⟨memberName, value⟩ := member
      obtain ⟨firstDiffers, restDistinct⟩ := List.nodup_cons.mp distinct
      rw [KeyMap.lookup_cons_ite] at tagged
      by_cases isTag : tag = memberName
      · subst isTag
        have isName : value = .string name := by
          simpa using tagged
        have othersKept :
            rest.filter (fun member => member.1 ≠ tag) = rest := by
          rw [List.filter_eq_self]
          intro other isOther
          apply decide_eq_true
          intro same
          exact firstDiffers (List.mem_map.mpr ⟨other, isOther, same⟩)
        subst isName
        have readRest :=
          splitTag_of_untagged named form firstDiffers (some case)
        simp only [Node.ofMembers, Node.ofJson, splitTag, ↓reduceIte,
          Option.isSome_none, Bool.false_eq_true, string, case?, bind,
          Except.bind, known, readRest]
        rw [List.filter_cons_of_neg (by simp), othersKept]
      · have isOther : memberName ≠ tag := Ne.symm isTag
        rw [if_neg isTag] at tagged
        simp only [Node.ofMembers, splitTag, isOther, ↓reduceIte,
          Json.anyNode_ofJson, inductionHypothesis restDistinct tagged,
          List.filter_cons, ne_eq, not_false_eq_true, decide_true]
        rfl

/-- Without the tag a listing lists the other members. -/
theorem lookup_filter_untagged
    (tag : String)
    (listed : List (String × Json))
    (query : String) :
    (listed.filter (fun member => member.1 ≠ tag)).lookup query =
      if query = tag then none else listed.lookup query := by
  induction listed with
  | nil =>
      simp
  | cons member rest inductionHypothesis =>
      by_cases isTag : member.1 = tag
      · rw [List.filter_cons_of_neg (by simpa using isTag),
          inductionHypothesis, KeyMap.lookup_cons_ite, isTag]
        by_cases asked : query = tag
        · simp [asked]
        · simp [asked]
      · rw [List.filter_cons_of_pos (by simpa using isTag),
          KeyMap.lookup_cons_ite, KeyMap.lookup_cons_ite, inductionHypothesis]
        by_cases asked : query = member.1
        · simp [asked, isTag]
        · simp [asked]

end Reader

namespace Json

/-- Two listings of an object show the same under every name. -/
theorem SameValue.lookup
    {members listed : List (String × Json)}
    (same : SameValue (.object members) (.object listed))
    (membersDistinct : (members.map Prod.fst).Nodup)
    (listedDistinct : (listed.map Prod.fst).Nodup)
    (name : String) :
    Option.Rel SameValue (members.lookup name) (listed.lookup name) := by
  cases same with
  | object agree =>
      have related := agree name
      rwa [KeyMap.get?_ofList_of_nodup membersDistinct,
        KeyMap.get?_ofList_of_nodup listedDistinct] at related

variable {tag : String} {text : Json} {members listed : List (String × Json)}

/-- A listing of a tagged record lists the record without the tag. -/
theorem SameValue.untagged
    (same :
      SameValue (.object ((tag, text) :: members)) (.object listed))
    (distinct : (((tag, text) :: members).map Prod.fst).Nodup)
    (listedDistinct : (listed.map Prod.fst).Nodup) :
    SameValue (.object members)
      (.object (listed.filter (fun member => member.1 ≠ tag))) := by
  obtain ⟨untagged, membersDistinct⟩ := List.nodup_cons.mp distinct
  refine .object ?_
  intro query
  rw [KeyMap.get?_ofList_of_nodup membersDistinct,
    KeyMap.get?_ofList_of_nodup
      (listedDistinct.sublist (List.filter_sublist.map Prod.fst)),
    Reader.lookup_filter_untagged]
  by_cases asked : query = tag
  · have notMember : members.lookup tag = none := by
      apply KeyMap.lookup_eq_none_of_forall_ne
      intro member isMember isTag
      exact untagged (List.mem_map.mpr ⟨member, isMember, isTag.symm⟩)
    simp [asked, notMember]
  · have related := same.lookup distinct listedDistinct query
    rw [KeyMap.lookup_cons_ite, if_neg asked] at related
    rw [if_neg asked]
    exact related

/-- A listing of a tagged record lists the tag. -/
theorem SameValue.lookup_tag
    {name : String}
    (same :
      SameValue (.object ((tag, .string name) :: members)) (.object listed))
    (distinct : (((tag, Json.string name) :: members).map Prod.fst).Nodup)
    (listedDistinct : (listed.map Prod.fst).Nodup) :
    listed.lookup tag = some (.string name) := by
  have related := same.lookup distinct listedDistinct tag
  rw [KeyMap.lookup_cons_ite, if_pos rfl] at related
  cases found : listed.lookup tag with
  | none =>
      simp [found] at related
  | some value =>
      simp only [found, Option.rel_some_some] at related
      cases related
      rfl

end Json

/-- A tagged record is read as the case that its tag names. -/
theorem Reader.reads_tagged
    {tag name : String}
    {named : List (String × Reader α)}
    {reader : Reader α}
    (known : named.lookup name = some reader)
    {members : List (String × Json)}
    {result : α}
    (untagged : tag ∉ members.map Prod.fst)
    (reads : reader.Reads (.object members) result) :
    (Reader.tagged tag named).Reads
      (.object ((tag, .string name) :: members)) result := by
  have distinct :
      (((tag, Json.string name) :: members).map Prod.fst).Nodup :=
    List.nodup_cons.mpr ⟨untagged, reads.distinct.names⟩
  constructor
  · exact .object distinct
      (List.forall_mem_cons.mpr ⟨.string name, reads.distinct.values⟩)
  · intro form listing same listingDistinct
    cases same with
    | @object _ listed agree =>
        have same := Json.SameValue.object agree
        have listedNames := listingDistinct.names
        have othersDistinct :
            Json.NamesDistinct
              (.object (listed.filter (fun member => member.1 ≠ tag))) :=
          .object (listedNames.sublist (List.filter_sublist.map Prod.fst))
            (fun member isOther =>
              listingDistinct.values member (List.mem_filter.mp isOther).1)
        have readOthers :=
          reads.read .value _ (same.untagged distinct listedNames)
            othersDistinct
        rw [Node.ofJson] at readOthers
        simp only [Node.ofJson, Reader.tagged,
          splitTag_eq known listedNames
            (same.lookup_tag distinct listedNames),
          bind, Except.bind, Closing.check]
        exact readOthers

end AccessTopology
