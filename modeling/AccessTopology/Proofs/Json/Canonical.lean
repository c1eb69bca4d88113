import AccessTopology.Json.Value
import AccessTopology.Proofs.KeyMap.Extensionality
import Mathlib.Data.List.Forall2
import Mathlib.Tactic.MkIffOfInductiveProp

namespace AccessTopology

/-!
# Canonical form of JSON values

Two values are the same value when they differ only in how they list the
members of objects: in the order of names, and in members that a later one of
the same name replaces.  The canonical form lists the members of every object
by increasing name, each name once.  It is the same value, and two values have
one canonical form exactly when they are the same.
-/

namespace KeyMap

theorem entries_inj
    {left right : KeyMap α} :
    left.entries = right.entries ↔ left = right := by
  cases left
  cases right
  simp

/-- Maps in which the same is found under every key are equal. -/
theorem eq_iff_get?_eq
    {left right : KeyMap α} :
    left = right ↔ ∀ key, left.get? key = right.get? key := by
  constructor
  · rintro rfl key
    rfl
  · intro same
    refine eq_of_mem_entries_iff ?_
    intro entry
    rw [← get?_eq_some_iff, ← get?_eq_some_iff, same]

/-- A list with other values has these under the same keys. -/
theorem lookup_map
    (change : α → β)
    (entries : List (String × α))
    (key : String) :
    (entries.map (fun entry => (entry.1, change entry.2))).lookup key =
      (entries.lookup key).map change := by
  induction entries with
  | nil =>
      rfl
  | cons first rest inductionHypothesis =>
      rw [List.map_cons, lookup_cons_ite, lookup_cons_ite first,
        inductionHypothesis]
      by_cases isFirst : key = first.1
      · simp [isFirst]
      · simp [isFirst]

/-- The map of a list with other values finds these under the same keys. -/
theorem get?_ofList_map
    (change : α → β)
    (entries : List (String × α))
    (key : String) :
    (ofList (entries.map (fun entry => (entry.1, change entry.2)))).get? key =
      ((ofList entries).get? key).map change := by
  rw [get?_ofList, get?_ofList, ← List.map_reverse, lookup_map]

/-- A list in the order of its keys is the list of its map. -/
theorem entries_ofList_of_pairwise
    {entries : List (String × α)}
    (ordered :
      entries.Pairwise (fun earlier later => earlier.1 < later.1)) :
    (ofList entries).entries = entries := by
  let map : KeyMap α := ⟨entries, ordered⟩
  have sameMap : ofList map.entries = map := by
    refine eq_of_mem_entries_iff ?_
    intro entry
    exact mem_entries_ofList_iff (consistent_of_nodup map.nodup_keys)
  exact congrArg KeyMap.entries sameMap

end KeyMap

namespace Json

/-- What holds of every value whose parts it holds of holds of every value. -/
theorem induction
    {property : Json → Prop}
    (null : property .null)
    (bool : ∀ value, property (.bool value))
    (number : ∀ value, property (.number value))
    (string : ∀ value, property (.string value))
    (array :
      ∀ items, (∀ item ∈ items, property item) → property (.array items))
    (object :
      ∀ members,
        (∀ member ∈ members, property member.2) →
          property (.object members))
    (value : Json) :
    property value := by
  refine Json.rec (motive_1 := property)
    (motive_2 := fun items => ∀ item ∈ items, property item)
    (motive_3 := fun members => ∀ member ∈ members, property member.2)
    (motive_4 := fun member => property member.2)
    null bool number string array object ?_ ?_ ?_ ?_ ?_ value
  · simp
  · intro item items ofItem ofItems
    exact List.forall_mem_cons.mpr ⟨ofItem, ofItems⟩
  · simp
  · intro member members ofMember ofMembers
    exact List.forall_mem_cons.mpr ⟨ofMember, ofMembers⟩
  · intro name value ofValue
    exact ofValue

/-- The canonical form of each item of a list. -/
theorem canonicalItems_eq_map (items : List Json) :
    canonicalItems items = items.map canonical := by
  induction items with
  | nil =>
      rfl
  | cons item items inductionHypothesis =>
      rw [canonicalItems, inductionHypothesis, List.map_cons]

theorem canonicalMembers_eq_map (members : List (String × Json)) :
    canonicalMembers members =
      members.map (fun member => (member.1, member.2.canonical)) := by
  induction members with
  | nil =>
      rfl
  | cons member members inductionHypothesis =>
      rw [canonicalMembers, inductionHypothesis, List.map_cons]

/--
Two values that differ only in how they list the members of objects, where the
last member of a name counts.
-/
@[mk_iff]
inductive SameValue : Json → Json → Prop
  | null : SameValue .null .null
  | bool (value : Bool) : SameValue (.bool value) (.bool value)
  | number (value : Number) : SameValue (.number value) (.number value)
  | string (value : String) : SameValue (.string value) (.string value)
  | array {left right : List Json} :
      List.Forall₂ SameValue left right →
        SameValue (.array left) (.array right)
  | object {left right : List (String × Json)} :
      (∀ name,
        Option.Rel SameValue ((KeyMap.ofList left).get? name)
          ((KeyMap.ofList right).get? name)) →
        SameValue (.object left) (.object right)

/-- The members of every object have strictly increasing names. -/
inductive KeysIncrease : Json → Prop
  | null : KeysIncrease .null
  | bool (value : Bool) : KeysIncrease (.bool value)
  | number (value : Number) : KeysIncrease (.number value)
  | string (value : String) : KeysIncrease (.string value)
  | array {items : List Json} :
      (∀ item ∈ items, KeysIncrease item) → KeysIncrease (.array items)
  | object {members : List (String × Json)} :
      members.Pairwise (fun earlier later => earlier.1 < later.1) →
      (∀ member ∈ members, KeysIncrease member.2) →
        KeysIncrease (.object members)

/-- Every number is an integer that fits 64 bits, signed or unsigned. -/
inductive Integral : Json → Prop
  | null : Integral .null
  | bool (value : Bool) : Integral (.bool value)
  | number {value : Int} :
      Number.fits value = true → Integral (.number (.integer value))
  | string (value : String) : Integral (.string value)
  | array {items : List Json} :
      (∀ item ∈ items, Integral item) → Integral (.array items)
  | object {members : List (String × Json)} :
      (∀ member ∈ members, Integral member.2) →
        Integral (.object members)

/-- No more than a number of containers are inside one another. -/
inductive NestedWithin : Nat → Json → Prop
  | null (limit : Nat) : NestedWithin limit .null
  | bool (limit : Nat) (value : Bool) : NestedWithin limit (.bool value)
  | number (limit : Nat) (value : Number) :
      NestedWithin limit (.number value)
  | string (limit : Nat) (value : String) :
      NestedWithin limit (.string value)
  | array {limit : Nat} {items : List Json} :
      (∀ item ∈ items, NestedWithin limit item) →
        NestedWithin (limit + 1) (.array items)
  | object {limit : Nat} {members : List (String × Json)} :
      (∀ member ∈ members, NestedWithin limit member.2) →
        NestedWithin (limit + 1) (.object members)

/-- Where a relation of items is equality of images, so it is of lists. -/
theorem forall₂_iff_map_eq
    {relation : α → α → Prop}
    {image : α → β}
    {left right : List α}
    (agree :
      ∀ value ∈ left,
        ∀ other, relation value other ↔ image value = image other) :
    List.Forall₂ relation left right ↔ left.map image = right.map image := by
  induction left generalizing right with
  | nil =>
      cases right <;> simp
  | cons value rest inductionHypothesis =>
      obtain ⟨valueAgrees, restAgrees⟩ := List.forall_mem_cons.mp agree
      cases right with
      | nil =>
          simp
      | cons other others =>
          rw [List.forall₂_cons, valueAgrees,
            inductionHypothesis restAgrees, List.map_cons, List.map_cons,
            List.cons.injEq]

/-- Two values are the same when they have one canonical form. -/
theorem sameValue_iff_canonical_eq
    (left right : Json) :
    left.SameValue right ↔ left.canonical = right.canonical := by
  induction left using induction generalizing right with
  | null | bool | number | string =>
      cases right <;> simp [sameValue_iff, canonical, eq_comm]
  | array items inductionHypothesis =>
      cases right with
      | array others =>
          simp [sameValue_iff, canonical, canonicalItems_eq_map,
            forall₂_iff_map_eq inductionHypothesis]
      | _ =>
          simp [sameValue_iff, canonical]
  | object members inductionHypothesis =>
      cases right with
      | object others =>
          have agree (name : String) :
              Option.Rel SameValue ((KeyMap.ofList members).get? name)
                  ((KeyMap.ofList others).get? name) ↔
                ((KeyMap.ofList members).get? name).map canonical =
                  ((KeyMap.ofList others).get? name).map canonical := by
            cases found : (KeyMap.ofList members).get? name with
            | none =>
                cases (KeyMap.ofList others).get? name <;> simp
            | some value =>
                have listed := KeyMap.mem_of_get?_ofList found
                cases (KeyMap.ofList others).get? name with
                | none =>
                    simp
                | some other =>
                    simp [inductionHypothesis _ listed]
          simp [sameValue_iff, canonical, canonicalMembers_eq_map, agree,
            ← KeyMap.get?_ofList_map, ← KeyMap.eq_iff_get?_eq,
            KeyMap.entries_inj]
      | _ =>
          simp [sameValue_iff, canonical]

/-- A member of a canonical object stands for one that was listed. -/
theorem exists_of_mem_canonical
    {members : List (String × Json)}
    {member : String × Json}
    (listed :
      member ∈ (KeyMap.ofList (canonicalMembers members)).entries) :
    ∃ original ∈ members, member = (original.1, original.2.canonical) := by
  have inMembers := KeyMap.mem_entries_ofList listed
  rw [canonicalMembers_eq_map, List.mem_map] at inMembers
  obtain ⟨original, isOriginal, same⟩ := inMembers
  exact ⟨original, isOriginal, same.symm⟩

theorem keysIncrease_canonical (value : Json) :
    value.canonical.KeysIncrease := by
  induction value using induction with
  | null =>
      exact .null
  | bool value =>
      exact .bool value
  | number value =>
      exact .number value
  | string value =>
      exact .string value
  | array items inductionHypothesis =>
      rw [canonical, canonicalItems_eq_map]
      exact .array (List.forall_mem_map.mpr inductionHypothesis)
  | object members inductionHypothesis =>
      refine .object (KeyMap.ordered _) ?_
      intro member listed
      obtain ⟨original, isOriginal, rfl⟩ := exists_of_mem_canonical listed
      exact inductionHypothesis original isOriginal

/-- A value in which names increase is canonical. -/
theorem KeysIncrease.canonical_eq
    {value : Json}
    (increase : value.KeysIncrease) :
    value.canonical = value := by
  induction value using induction with
  | null | bool | number | string =>
      rfl
  | array items inductionHypothesis =>
      cases increase with
      | array itemsIncrease =>
          have unchanged : items.map canonical = items.map id :=
            List.map_congr_left
              (fun item listed =>
                inductionHypothesis item listed (itemsIncrease item listed))
          rw [canonical, canonicalItems_eq_map, unchanged, List.map_id]
  | object members inductionHypothesis =>
      cases increase with
      | object ordered membersIncrease =>
          have unchanged :
              members.map (fun member => (member.1, member.2.canonical)) =
                members.map id := by
            refine List.map_congr_left ?_
            intro member listed
            rw [inductionHypothesis member listed
              (membersIncrease member listed)]
            rfl
          rw [canonical, canonicalMembers_eq_map, unchanged, List.map_id,
            KeyMap.entries_ofList_of_pairwise ordered]

/-- Every value is the same as its canonical form. -/
theorem sameValue_canonical (value : Json) :
    value.SameValue value.canonical := by
  rw [sameValue_iff_canonical_eq, (keysIncrease_canonical value).canonical_eq]

theorem Integral.canonical
    {value : Json}
    (integral : value.Integral) :
    value.canonical.Integral := by
  induction value using induction with
  | null | bool | number | string =>
      exact integral
  | array items inductionHypothesis =>
      cases integral with
      | array itemsIntegral =>
          rw [Json.canonical, canonicalItems_eq_map]
          refine .array (List.forall_mem_map.mpr ?_)
          intro item listed
          exact inductionHypothesis item listed (itemsIntegral item listed)
  | object members inductionHypothesis =>
      cases integral with
      | object membersIntegral =>
          refine .object ?_
          intro member listed
          obtain ⟨original, isOriginal, rfl⟩ := exists_of_mem_canonical listed
          exact inductionHypothesis original isOriginal
            (membersIntegral original isOriginal)

theorem NestedWithin.canonical
    {limit : Nat}
    {value : Json}
    (nested : value.NestedWithin limit) :
    value.canonical.NestedWithin limit := by
  induction value using induction generalizing limit with
  | null | bool | number | string =>
      exact nested
  | array items inductionHypothesis =>
      cases nested with
      | array itemsNested =>
          rw [Json.canonical, canonicalItems_eq_map]
          refine .array (List.forall_mem_map.mpr ?_)
          intro item listed
          exact inductionHypothesis item listed (itemsNested item listed)
  | object members inductionHypothesis =>
      cases nested with
      | object membersNested =>
          refine .object ?_
          intro member listed
          obtain ⟨original, isOriginal, rfl⟩ := exists_of_mem_canonical listed
          exact inductionHypothesis original isOriginal
            (membersNested original isOriginal)

/-- A value that is spelled canonically and has no numbers but integers. -/
structure Plain (value : Json) : Prop where
  increase : value.KeysIncrease
  integral : value.Integral

namespace Plain

theorem bool (value : Bool) : Plain (.bool value) :=
  ⟨.bool value, .bool value⟩

theorem string (text : String) : Plain (.string text) :=
  ⟨.string text, .string text⟩

theorem array
    {items : List Json}
    (plain : ∀ item ∈ items, item.Plain) :
    Plain (.array items) :=
  ⟨.array fun item listed => (plain item listed).increase,
    .array fun item listed => (plain item listed).integral⟩

theorem object
    {members : List (String × Json)}
    (ordered : members.Pairwise (fun earlier later => earlier.1 < later.1))
    (plain : ∀ member ∈ members, member.2.Plain) :
    Plain (.object members) :=
  ⟨.object ordered fun member listed => (plain member listed).increase,
    .object fun member listed => (plain member listed).integral⟩

/-- An object of two plain members, named in order, is plain. -/
theorem pair
    {name otherName : String}
    {value other : Json}
    (increases : name < otherName)
    (valuePlain : value.Plain)
    (otherPlain : other.Plain) :
    Plain (.object [(name, value), (otherName, other)]) := by
  refine .object (List.pairwise_pair.mpr increases) ?_
  simp [valuePlain, otherPlain]

/-- A map of plain values is written as a plain object. -/
theorem ofMap
    {map : KeyMap Json}
    (plain : ∀ entry ∈ map.entries, entry.2.Plain) :
    Plain (.ofMap map) :=
  .object map.ordered plain

/-- A member that is there only with a text is plain. -/
theorem of_mem_optional
    {name : String}
    {text? : Option String}
    {member : String × Json}
    (listed :
      member ∈ (text?.map (fun text => (name, Json.string text))).toList) :
    member.2.Plain := by
  simp only [Option.mem_toList, Option.map_eq_some_iff] at listed
  obtain ⟨text, _, rfl⟩ := listed
  exact .string text

end Plain

end Json

end AccessTopology
