import AccessTopology.Proofs.Json.ReadText
import Mathlib.Data.List.Perm.Basic

namespace AccessTopology

/-!
# Reading values back

A value reads as a result when it does so however the members of its objects
are listed.  What the readers of scalars, lists, maps and arbitrary values make
of written values is settled here; records are left to their fields.
-/

/-- The map of a reordered map's entries is that map. -/
theorem KeyMap.ofList_eq_of_perm
    {map : KeyMap α}
    {entries : List (String × α)}
    (sameEntries : entries.Perm map.entries) :
    ofList entries = map := by
  have keysDistinct : (entries.map Prod.fst).Nodup :=
    (sameEntries.map Prod.fst).nodup_iff.mpr map.nodup_keys
  apply eq_of_mem_entries_iff
  intro entry
  rw [mem_entries_ofList_iff (consistent_of_nodup keysDistinct),
    sameEntries.mem_iff]

namespace Json

/-- No object of a value names a member twice. -/
inductive NamesDistinct : Json → Prop
  | null : NamesDistinct .null
  | bool (value : Bool) : NamesDistinct (.bool value)
  | number (value : Number) : NamesDistinct (.number value)
  | string (value : String) : NamesDistinct (.string value)
  | array {items : List Json} :
      (∀ item ∈ items, NamesDistinct item) → NamesDistinct (.array items)
  | object {members : List (String × Json)} :
      (members.map Prod.fst).Nodup →
      (∀ member ∈ members, NamesDistinct member.2) →
        NamesDistinct (.object members)

/-- Where names increase, none is given twice. -/
theorem KeysIncrease.namesDistinct
    {value : Json}
    (increase : value.KeysIncrease) :
    value.NamesDistinct := by
  induction value using induction with
  | null =>
      exact .null
  | bool value =>
      exact .bool value
  | number value =>
      exact .number value
  | string value =>
      exact .string value
  | array items inductionHypothesis =>
      cases increase with
      | array itemsIncrease =>
          exact .array fun item listed =>
            inductionHypothesis item listed (itemsIncrease item listed)
  | object members inductionHypothesis =>
      cases increase with
      | object ordered membersIncrease =>
          have distinct : (members.map Prod.fst).Nodup :=
            KeyMap.nodup_keys ⟨members, ordered⟩
          exact .object distinct fun member listed =>
            inductionHypothesis member listed (membersIncrease member listed)

theorem NamesDistinct.names
    {members : List (String × Json)}
    (distinct : NamesDistinct (.object members)) :
    (members.map Prod.fst).Nodup := by
  cases distinct with
  | object namesDistinct _ =>
      exact namesDistinct

theorem NamesDistinct.values
    {members : List (String × Json)}
    (distinct : NamesDistinct (.object members)) :
    ∀ member ∈ members, member.2.NamesDistinct := by
  cases distinct with
  | object _ valuesDistinct =>
      exact valuesDistinct

theorem SameValue.refl (value : Json) : value.SameValue value :=
  (sameValue_iff_canonical_eq value value).mpr rfl

theorem SameValue.symm
    {left right : Json}
    (same : left.SameValue right) :
    right.SameValue left := by
  rw [sameValue_iff_canonical_eq] at same ⊢
  exact same.symm

/-- How a member of an object stands in a listing of the object. -/
structure ListedAs (member listing : String × Json) : Prop where
  name : member.1 = listing.1
  value : member.2.SameValue listing.2
  distinct : listing.2.NamesDistinct

/-- Whatever stands in a listing of an object is a member of it. -/
theorem exists_listedAs
    {members listed : List (String × Json)}
    (same : SameValue (.object members) (.object listed))
    (distinct : NamesDistinct (.object listed))
    {listing : String × Json}
    (isListed : listing ∈ listed) :
    ∃ member ∈ members, ListedAs member listing := by
  have found :
      (KeyMap.ofList listed).get? listing.1 = some listing.2 :=
    KeyMap.get?_ofList_of_mem distinct.names isListed
  cases same with
  | object agree =>
      have related := agree listing.1
      rw [found] at related
      cases memberFound : (KeyMap.ofList members).get? listing.1 with
      | none =>
          rw [memberFound] at related
          cases related
      | some member =>
          rw [memberFound] at related
          cases related with
          | some sameValue =>
              exact ⟨_, KeyMap.mem_of_get?_ofList memberFound, rfl,
                sameValue, distinct.values listing isListed⟩

/-- Where each of some values stems from a source, so does their list. -/
theorem exists_sources
    {relation : α → β → Prop}
    {sources : List α}
    {values : List β}
    (stems : ∀ value ∈ values, ∃ source ∈ sources, relation source value) :
    ∃ chosen,
      List.Forall₂ relation chosen values ∧
        ∀ source ∈ chosen, source ∈ sources := by
  induction values with
  | nil =>
      exact ⟨[], .nil, by simp⟩
  | cons value rest inductionHypothesis =>
      obtain ⟨⟨source, isSource, related⟩, restStems⟩ :=
        List.forall_mem_cons.mp stems
      obtain ⟨chosen, restRelated, fromSources⟩ :=
        inductionHypothesis restStems
      exact ⟨source :: chosen, .cons related restRelated,
        List.forall_mem_cons.mpr ⟨isSource, fromSources⟩⟩

/-- A listing of an object holds its members, up to their order. -/
theorem exists_perm_listedAs
    {members listed : List (String × Json)}
    (same : SameValue (.object members) (.object listed))
    (membersDistinct : NamesDistinct (.object members))
    (listedDistinct : NamesDistinct (.object listed)) :
    ∃ reordered,
      reordered.Perm members ∧ List.Forall₂ ListedAs reordered listed := by
  obtain ⟨reordered, related, fromMembers⟩ :=
    exists_sources (fun _ => exists_listedAs same listedDistinct)
  have sameNames : reordered.map Prod.fst = listed.map Prod.fst := by
    rw [← List.forall₂_eq_eq_eq, List.forall₂_map_left_iff,
      List.forall₂_map_right_iff]
    exact related.imp (fun _ _ listedAs => listedAs.name)
  have reorderedNames : (reordered.map Prod.fst).Nodup :=
    sameNames ▸ listedDistinct.names
  refine ⟨reordered, ?_, related⟩
  rw [List.perm_ext_iff_of_nodup reorderedNames.of_map
    membersDistinct.names.of_map]
  intro member
  refine ⟨fromMembers member, ?_⟩
  intro isMember
  obtain ⟨listing, isListed, listedAs⟩ :=
    exists_listedAs same.symm membersDistinct isMember
  have nameKept : member.1 ∈ reordered.map Prod.fst := by
    rw [sameNames, ← listedAs.name]
    exact List.mem_map_of_mem isListed
  obtain ⟨kept, isKept, sameName⟩ := List.mem_map.mp nameKept
  have keptIsMember : kept = member :=
    List.inj_on_of_nodup_map membersDistinct.names (fromMembers kept isKept)
      isMember sameName
  exact keptIsMember ▸ isKept

/--
What the members of an object stand for is found in each of its listings, up to
the order of the members.
-/
theorem exists_perm_relating
    {relation : α → String × Json → Prop}
    {parts : List α}
    {members listed : List (String × Json)}
    (related : List.Forall₂ relation parts members)
    (same : SameValue (.object members) (.object listed))
    (membersDistinct : NamesDistinct (.object members))
    (listedDistinct : NamesDistinct (.object listed)) :
    ∃ reordered,
      reordered.Perm parts ∧
        List.Forall₂
          (fun part listing =>
            ∃ member, relation part member ∧ ListedAs member listing)
          reordered listed := by
  obtain ⟨middle, middleOrder, listedAs⟩ :=
    exists_perm_listedAs same membersDistinct listedDistinct
  obtain ⟨reordered, relatedFlipped, partsOrder⟩ :=
    List.perm_comp_forall₂ middleOrder related.flip
  refine ⟨reordered, partsOrder, ?_⟩
  clear same listedDistinct partsOrder middleOrder
  induction listedAs generalizing reordered with
  | nil =>
      cases relatedFlipped
      exact .nil
  | cons firstListed _ inductionHypothesis =>
      cases relatedFlipped with
      | cons relatedFirst relatedRest =>
          exact .cons ⟨_, relatedFirst, firstListed⟩
            (inductionHypothesis _ relatedRest)

end Json

/--
A reader takes a value for a result however the members of the value's objects
are listed, in documents of every form.
-/
structure Reader.Reads
    (reader : Reader α)
    (value : Json)
    (result : α) :
    Prop where
  distinct :
    value.NamesDistinct
  read :
    ∀ form listing,
      value.SameValue listing →
        listing.NamesDistinct →
          reader form (.ofJson listing) = .ok result

namespace Reader.Reads

/-- What is read of a value as it is listed. -/
theorem read_self
    {reader : Reader α}
    {value : Json}
    {result : α}
    (reads : reader.Reads value result)
    (form : Form) :
    reader form (.ofJson value) = .ok result :=
  reads.read form value (.refl value) reads.distinct

/-- What is read of the document of a value. -/
theorem read_document
    {reader : Reader α}
    {value : Json}
    {result : α}
    (reads : reader.Reads value result) :
    (Document.ofJson value).read reader = .ok result := by
  simp only [Document.read, Document.ofJson, reads.read_self, bind,
    Except.bind, Bool.false_eq_true, ↓reduceIte]

/-- A value is not read as two results. -/
theorem unique
    {reader : Reader α}
    {value : Json}
    {first second : α}
    (left : reader.Reads value first)
    (right : reader.Reads value second) :
    first = second := by
  have same := (left.read_self .value).symm.trans (right.read_self .value)
  rwa [Except.ok.injEq] at same

/-- What a reader makes of a value may be put into another form. -/
theorem map
    {reader : Reader α}
    {value : Json}
    {result : α}
    (reads : reader.Reads value result)
    (change : α → β) :
    Reader.Reads (fun form node => (reader form node).map change) value
      (change result) where
  distinct := reads.distinct
  read := by
    intro form listing same distinct
    rw [reads.read form listing same distinct]
    rfl

theorem string (text : String) :
    Reader.string.Reads (.string text) text where
  distinct := .string text
  read := by
    intro form listing same _
    cases same
    rfl

theorem bool (value : Bool) :
    Reader.bool.Reads (.bool value) value where
  distinct := .bool value
  read := by
    intro form listing same _
    cases same
    rfl

theorem count (value : Nat) :
    Reader.count.Reads (.ofNat value) value where
  distinct := .number _
  read := by
    intro form listing same _
    cases same
    simp [Node.ofJson, Reader.count, Node.resolved]

/-- A case is read by the name under which it is listed. -/
theorem cases
    {named : List (String × α)}
    {name : String}
    {value : α}
    (found : named.lookup name = some value) :
    (Reader.cases named).Reads (.string name) value where
  distinct := .string name
  read := by
    intro form listing same _
    cases same
    simp only [Node.ofJson, Reader.cases, case?, found]

/-- A reader of any value reads those back whose names increase. -/
theorem any
    {value : Json}
    (increase : value.KeysIncrease) :
    Reader.any.Reads value value where
  distinct := increase.namesDistinct
  read := by
    intro form listing same _
    rw [Json.sameValue_iff_canonical_eq, increase.canonical_eq] at same
    rw [Reader.any, Json.anyNode_ofJson, same]

theorem none (reader : Reader α) :
    (Reader.option reader).Reads .null none where
  distinct := .null
  read := by
    intro form listing same _
    cases same
    rfl

theorem some
    {reader : Reader α}
    {value : Json}
    {result : α}
    (present : value ≠ .null)
    (reads : reader.Reads value result) :
    (Reader.option reader).Reads value (some result) where
  distinct := reads.distinct
  read := by
    intro form listing same distinct
    have notAbsent : Reader.isAbsent (.ofJson listing) = false := by
      cases same <;> simp_all [Node.ofJson, Reader.isAbsent]
    rw [Reader.option, notAbsent, reads.read form listing same distinct]
    rfl

/-- A list is read item by item. -/
theorem list
    {reader : Reader α}
    {values : List Json}
    {results : List α}
    (reads : List.Forall₂ reader.Reads values results) :
    (Reader.list reader).Reads (.array values) results where
  distinct := by
    refine .array ?_
    induction reads with
    | nil =>
        simp
    | cons readsFirst _ inductionHypothesis =>
        exact List.forall_mem_cons.mpr
          ⟨readsFirst.distinct, inductionHypothesis⟩
  read := by
    intro form listing same distinct
    cases same with
    | @array _ listed sameItems =>
        cases distinct with
        | array itemsDistinct =>
            have readItems :
                Reader.items reader form (Node.ofItems listed) =
                  .ok results := by
              induction reads generalizing listed with
              | nil =>
                  cases sameItems
                  rfl
              | cons readsFirst _ inductionHypothesis =>
                  cases sameItems with
                  | cons sameFirst sameRest =>
                      obtain ⟨firstDistinct, restDistinct⟩ :=
                        List.forall_mem_cons.mp itemsDistinct
                      rw [Node.ofItems, Reader.items,
                        readsFirst.read form _ sameFirst firstDistinct,
                        inductionHypothesis sameRest restDistinct]
                      rfl
            rw [Node.ofJson, Reader.list, readItems]
            rfl

/-- Members are read one by one, under their names. -/
theorem members_eq_of_forall₂
    {reader : Reader α}
    {form : Form}
    {entries : List (String × α)}
    {listed : List (String × Json)}
    (read :
      List.Forall₂
        (fun entry member =>
          entry.1 = member.1 ∧
            reader form (.ofJson member.2) = .ok entry.2)
        entries listed) :
    Reader.members reader form (Node.ofMembers listed) = .ok entries := by
  induction read with
  | nil =>
      rfl
  | cons readFirst _ inductionHypothesis =>
      obtain ⟨sameName, readValue⟩ := readFirst
      rw [Node.ofMembers, Reader.members, readValue, inductionHypothesis,
        ← sameName]
      rfl

/-- A map is read entry by entry. -/
theorem keyMap
    {reader : Reader α}
    {write : α → Json}
    {map : KeyMap α}
    (reads : ∀ entry ∈ map.entries, reader.Reads (write entry.2) entry.2) :
    (Reader.map reader).Reads
      (.object (map.entries.map (fun entry => (entry.1, write entry.2))))
      map := by
  have written :
      List.Forall₂
        (fun entry member =>
          entry.1 = member.1 ∧ reader.Reads member.2 entry.2)
        map.entries
        (map.entries.map (fun entry => (entry.1, write entry.2))) :=
    List.forall₂_map_right_iff.mpr
      (List.forall₂_same.mpr fun entry listed => ⟨rfl, reads entry listed⟩)
  have namesDistinct :
      Json.NamesDistinct
        (.object
          (map.entries.map (fun entry => (entry.1, write entry.2)))) := by
    refine .object ?_ ?_
    · rw [List.map_map]
      exact map.nodup_keys
    · exact List.forall_mem_map.mpr
        (fun entry listed => (reads entry listed).distinct)
  refine ⟨namesDistinct, ?_⟩
  intro form listing same distinct
  cases same with
  | @object _ listed sameMembers =>
      obtain ⟨entries, sameEntries, related⟩ :=
        Json.exists_perm_relating written (.object sameMembers) namesDistinct
          distinct
      have readMembers :
          Reader.members reader form (Node.ofMembers listed) =
            .ok entries := by
        refine members_eq_of_forall₂ (related.imp ?_)
        rintro entry listing ⟨member, ⟨sameName, readsMember⟩, listedAs⟩
        exact ⟨sameName.trans listedAs.name,
          readsMember.read form _ listedAs.value listedAs.distinct⟩
      rw [Node.ofJson, Reader.map, readMembers,
        ← KeyMap.ofList_eq_of_perm sameEntries]
      rfl

end Reader.Reads

end AccessTopology
