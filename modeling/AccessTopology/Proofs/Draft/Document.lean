import AccessTopology.Draft.Basic
import AccessTopology.Proofs.Json.Canonical

namespace AccessTopology

/-!
# Documents of drafts

The document that a draft is written as tells the draft: whatever the order of
its members, it has one member for each field of the draft, and the external
name has a member only where there is one.  A list of drafts is told by its
document as well, the order of the list included.
-/

namespace KeyMap

/-- Where no key is listed twice, the map of a list finds what the list does. -/
theorem get?_ofList_of_nodup
    {entries : List (String × α)}
    (distinct : (entries.map Prod.fst).Nodup)
    (key : String) :
    (ofList entries).get? key = entries.lookup key := by
  cases found : entries.lookup key with
  | none =>
      rw [get?_ofList]
      refine lookup_eq_none_of_forall_ne ?_
      intro entry listed isKey
      have held :=
        lookup_of_mem distinct
          (List.mem_reverse.mp (isKey ▸ listed : (key, entry.2) ∈ _))
      rw [found] at held
      cases held
  | some value =>
      refine get?_ofList_of_mem distinct ?_
      obtain ⟨before, after, split, _⟩ := List.lookup_eq_some_iff.mp found
      simp [split]

end KeyMap

namespace Json

/--
Values with a property are told apart by the canonical forms of what they are
written as.
-/
def FaithfulOn
    (holds : α → Prop)
    (write : α → Json) :
    Prop :=
  ∀ left right,
    holds left → holds right →
      (write left).canonical = (write right).canonical → left = right

/-- An object that names no member twice. -/
def IsRecord (value : Json) : Prop :=
  ∃ members,
    value = .object members ∧ (members.map Prod.fst).Nodup

/-- The members of a record keep their names in its canonical form. -/
theorem IsRecord.member?_canonical
    {value : Json}
    (isRecord : value.IsRecord)
    (name : String) :
    value.canonical.member? name = (value.member? name).map canonical := by
  obtain ⟨members, rfl, distinct⟩ := isRecord
  have found :=
    (KeyMap.get?_ofList_map canonical members name).trans
      (congrArg (Option.map canonical)
        (KeyMap.get?_ofList_of_nodup distinct name))
  rw [canonical, canonicalMembers_eq_map]
  exact found

/-- Records with one canonical form have the same canonical members. -/
theorem IsRecord.map_member?_eq
    {left right : Json}
    (leftRecord : left.IsRecord)
    (rightRecord : right.IsRecord)
    (same : left.canonical = right.canonical)
    (name : String) :
    (left.member? name).map canonical =
      (right.member? name).map canonical := by
  rw [← leftRecord.member?_canonical, ← rightRecord.member?_canonical, same]

theorem faithfulOn_string : FaithfulOn (fun _ => True) string := by
  intro left right _ _ same
  simpa [canonical] using same

variable {holds : α → Prop} {write : α → Json}

theorem faithfulOn_ofList
    (faithful : FaithfulOn holds write) :
    FaithfulOn (fun values => ∀ value ∈ values, holds value)
      (ofList write) := by
  intro left right leftHolds rightHolds same
  simp only [ofList, canonical, canonicalItems_eq_map, List.map_map,
    array.injEq] at same
  induction left generalizing right with
  | nil =>
      cases right with
      | nil =>
          rfl
      | cons other others =>
          simp at same
  | cons value values inductionHypothesis =>
      cases right with
      | nil =>
          simp at same
      | cons other others =>
          obtain ⟨valueHolds, valuesHold⟩ := List.forall_mem_cons.mp leftHolds
          obtain ⟨otherHolds, othersHold⟩ :=
            List.forall_mem_cons.mp rightHolds
          rw [List.map_cons, List.map_cons, List.cons.injEq] at same
          rw [faithful value other valueHolds otherHolds same.1,
            inductionHypothesis others valuesHold othersHold same.2]

theorem isRecord_ofKeyMap
    (write : α → Json)
    (map : KeyMap α) :
    IsRecord (ofKeyMap write map) := by
  refine ⟨_, rfl, ?_⟩
  rw [List.map_map]
  exact map.nodup_keys

/-- The object of a map has the written form of what the map holds. -/
theorem member?_ofKeyMap
    (write : α → Json)
    (map : KeyMap α)
    (key : String) :
    (ofKeyMap write map).member? key = (map.get? key).map write :=
  KeyMap.lookup_map write map.entries key

theorem faithfulOn_ofKeyMap
    (faithful : FaithfulOn holds write) :
    FaithfulOn
      (fun map : KeyMap α => ∀ entry ∈ map.entries, holds entry.2)
      (ofKeyMap write) := by
  intro left right leftHolds rightHolds same
  refine KeyMap.eq_iff_get?_eq.mpr ?_
  intro key
  have sameMember :=
    (isRecord_ofKeyMap write left).map_member?_eq
      (isRecord_ofKeyMap write right) same key
  rw [member?_ofKeyMap, member?_ofKeyMap] at sameMember
  cases leftFound : left.get? key with
  | none =>
      cases rightFound : right.get? key with
      | none =>
          rfl
      | some other =>
          simp [leftFound, rightFound] at sameMember
  | some value =>
      cases rightFound : right.get? key with
      | none =>
          simp [leftFound, rightFound] at sameMember
      | some other =>
          rw [leftFound, rightFound] at sameMember
          rw [faithful value other
            (leftHolds (key, value) (KeyMap.get?_eq_some_iff.mp leftFound))
            (rightHolds (key, other) (KeyMap.get?_eq_some_iff.mp rightFound))
            (Option.some.inj sameMember)]

/-- Maps of plain values are told apart. -/
theorem faithfulOn_ofMap :
    FaithfulOn
      (fun map : KeyMap Json => ∀ entry ∈ map.entries, entry.2.Plain)
      ofMap := by
  have faithful : FaithfulOn Plain id := by
    intro left right leftPlain rightPlain same
    rwa [id_eq, id_eq, leftPlain.increase.canonical_eq,
      rightPlain.increase.canonical_eq] at same
  have isMap : ofMap = ofKeyMap id := by
    funext map
    simp [ofMap, ofKeyMap]
  rw [isMap]
  exact faithfulOn_ofKeyMap faithful

theorem integral_ofList
    {values : List α}
    (integral : ∀ value ∈ values, (write value).Integral) :
    (ofList write values).Integral :=
  .array (List.forall_mem_map.mpr integral)

theorem integral_ofKeyMap
    {map : KeyMap α}
    (integral : ∀ value, (write value).Integral) :
    (ofKeyMap write map).Integral := by
  refine .object (List.forall_mem_map.mpr ?_)
  intro entry _
  exact integral entry.2

end Json

theorem ResourceKind.faithfulOn_toJson :
    Json.FaithfulOn (fun _ => True) ResourceKind.toJson := by
  intro left right _ _ same
  have sameName : left.name = right.name := by
    simpa [toJson, Json.canonical] using same
  revert sameName
  cases left <;> cases right <;> simp [name]

namespace Reference

theorem isRecord_toJson (reference : Reference) :
    reference.toJson.IsRecord := by
  cases reference <;> exact ⟨_, rfl, by simp⟩

theorem faithfulOn_toJson :
    Json.FaithfulOn (fun _ => True) Reference.toJson := by
  intro left right _ _ same
  have sameMember :=
    left.isRecord_toJson.map_member?_eq right.isRecord_toJson same
  have sameTag := sameMember "from"
  cases left with
  | draft key field =>
      cases right with
      | draft otherKey otherField =>
          have sameKey := sameMember "key"
          have sameField := sameMember "field"
          simp [toJson, Json.member?, KeyMap.lookup_cons_ite, Json.canonical,
            LogicalKey.text_inj] at sameKey sameField
          rw [sameKey, sameField]
      | external other =>
          simp [toJson, Json.member?, Json.canonical] at sameTag
  | external value =>
      cases right with
      | draft otherKey otherField =>
          simp [toJson, Json.member?, Json.canonical] at sameTag
      | external other =>
          have sameValue := sameMember "value"
          simp [toJson, Json.member?, KeyMap.lookup_cons_ite, Json.canonical]
            at sameValue
          rw [sameValue]

end Reference

theorem Reference.integral_toJson (reference : Reference) :
    reference.toJson.Integral := by
  cases reference <;> exact .object (by simp [Json.Integral.string])

theorem ProviderConfigName.faithfulOn_toJson :
    Json.FaithfulOn (fun _ => True) ProviderConfigName.toJson := by
  rintro ⟨left⟩ ⟨right⟩ _ _ same
  have isRecord (config : ProviderConfigName) : config.toJson.IsRecord :=
    ⟨_, rfl, by simp⟩
  have sameName := (isRecord _).map_member?_eq (isRecord _) same "name"
  simpa [toJson, Json.member?, Json.canonical] using sameName

namespace Draft

/-- A draft whose fields are plain. -/
def Plain (draft : Draft) : Prop :=
  ∀ field ∈ draft.forProvider.entries, field.2.Plain

theorem isRecord_toJson (draft : Draft) :
    draft.toJson.IsRecord := by
  refine ⟨_, rfl, ?_⟩
  cases draft.externalName <;> simp

/-- Drafts are told apart by their documents. -/
theorem faithfulOn_toJson :
    Json.FaithfulOn Plain Draft.toJson := by
  intro left right leftPlain rightPlain same
  have sameMember (name : String) :=
    left.isRecord_toJson.map_member?_eq right.isRecord_toJson same name
  simp only [toJson, Json.member?] at sameMember
  have sameKind : left.kind = right.kind := by
    refine ResourceKind.faithfulOn_toJson _ _ trivial trivial ?_
    simpa using sameMember "kind"
  have sameVersion : left.apiVersion = right.apiVersion := by
    refine Json.faithfulOn_string _ _ trivial trivial ?_
    simpa [KeyMap.lookup_cons_ite] using sameMember "apiVersion"
  have sameKey : left.key = right.key := by
    refine LogicalKey.text_inj.mp
      (Json.faithfulOn_string _ _ trivial trivial ?_)
    simpa [KeyMap.lookup_cons_ite] using sameMember "key"
  have sameFields : left.forProvider = right.forProvider := by
    refine Json.faithfulOn_ofMap _ _ leftPlain rightPlain ?_
    simpa [KeyMap.lookup_cons_ite] using sameMember "forProvider"
  have sameReferences : left.references = right.references := by
    refine Json.faithfulOn_ofKeyMap Reference.faithfulOn_toJson _ _
      (fun _ _ => trivial) (fun _ _ => trivial) ?_
    simpa [KeyMap.lookup_cons_ite] using sameMember "references"
  have samePolicies :
      left.managementPolicies = right.managementPolicies := by
    refine Json.faithfulOn_ofList Json.faithfulOn_string _ _
      (fun _ _ => trivial) (fun _ _ => trivial) ?_
    change (Json.ofStrings _).canonical = (Json.ofStrings _).canonical
    simpa [KeyMap.lookup_cons_ite] using sameMember "managementPolicies"
  have sameConfig : left.providerConfig = right.providerConfig := by
    refine ProviderConfigName.faithfulOn_toJson _ _ trivial trivial ?_
    simpa [KeyMap.lookup_cons_ite] using sameMember "providerConfigRef"
  have sameTags : left.tags = right.tags := by
    refine Json.faithfulOn_ofKeyMap Json.faithfulOn_string _ _
      (fun _ _ => trivial) (fun _ _ => trivial) ?_
    change left.tags.toJson.canonical = right.tags.toJson.canonical
    simpa [KeyMap.lookup_cons_ite] using sameMember "tags"
  have sameName : left.externalName = right.externalName := by
    have sameWritten := sameMember "externalName"
    cases leftName : left.externalName <;>
      cases rightName : right.externalName <;>
        simp [KeyMap.lookup_cons_ite, Json.canonical, leftName, rightName]
          at sameWritten ⊢
    exact sameWritten
  cases left
  cases right
  congr

/-- A draft's document has no numbers but those of the draft's fields. -/
theorem Plain.integral_toJson
    {draft : Draft}
    (plain : draft.Plain) :
    draft.toJson.Integral := by
  refine .object ?_
  intro member listed
  rcases List.mem_append.mp listed with isShared | isName
  · simp only [List.mem_cons, List.not_mem_nil, or_false] at isShared
    obtain rfl | rfl | rfl | rfl | rfl | rfl | rfl | rfl := isShared
    · exact .string _
    · exact .string _
    · exact .string _
    · exact .object fun field held => (plain field held).integral
    · exact Json.integral_ofKeyMap Reference.integral_toJson
    · exact .array (List.forall_mem_map.mpr fun text _ => .string text)
    · exact .object (List.forall_mem_singleton.mpr (.string _))
    · exact Json.integral_ofKeyMap .string
  · exact (Json.Plain.of_mem_optional isName).integral

end Draft

end AccessTopology
