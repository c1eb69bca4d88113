import AccessTopology.Proofs.Document.Tagged
import AccessTopology.Proofs.Spec.Document

namespace AccessTopology

/-!
# Drafts read back

References, provider configuration names and drafts read back from what they are
written as.  A draft's own fields are arbitrary values, which have to be in
canonical form, as those of every draft are that was read.
-/

namespace Codec

/-- Keys. -/
def key : Codec LogicalKey :=
  plain LogicalKey.reader (fun key => .string key.text) (fun _ => True)
    (fun key _ => (Reader.Reads.string key.text).map LogicalKey.mk)

@[simp] theorem keeps_key (value : LogicalKey) :
    key.Keeps value :=
  trivial

/-- Resource kinds. -/
def resourceKind : Codec ResourceKind :=
  named (ResourceKind.all.map (fun kind => (kind.name, kind)))
    ResourceKind.name
    (fun kind => by cases kind <;> decide)

@[simp] theorem keeps_resourceKind (kind : ResourceKind) :
    resourceKind.Keeps kind :=
  trivial

/-- Maps of arbitrary values. -/
def fields : Codec (KeyMap Json) :=
  plain (.map .any) .ofMap
    (fun map => ∀ entry ∈ map.entries, entry.2.KeysIncrease)
    (fun map increase => by
      have reads := any.keyMap.reads increase (.whole _ _)
      simpa [keyMap, any, plain, Json.ofKeyMap, Json.ofMap] using reads)

@[simp] theorem keeps_fields (map : KeyMap Json) :
    fields.Keeps map ↔ ∀ entry ∈ map.entries, entry.2.KeysIncrease :=
  .rfl

end Codec

namespace Reference

/-- Columns of references to drafts: the key and the field that is wanted. -/
def draftColumns : List (Column (LogicalKey × String)) :=
  [.kept .required "key" .key Prod.fst (fun (_, field) value => (value, field)),
    .kept .required "field" .text Prod.snd (fun (key, _) value => (key, value))]

/-- The table of references to drafts. -/
def draftTable : Table (LogicalKey × String) where
  initial := (LogicalKey.mk "", "")
  columns := draftColumns
  starts := by
    simp [draftColumns]
  distinct := by
    decide
  commute := by
    simp [draftColumns, Column.Commute]
  rebuilt := by
    simp [draftColumns, Column.putAll]

theorem reads_draft
    (key : LogicalKey)
    (field : String) :
    draftReader.Reads
      (.object [("key", .string key.text), ("field", .string field)])
      (draft key field) := by
  have keeps : draftTable.Keeps (key, field) := by
    simp [Table.Keeps, draftTable, draftColumns]
  exact (draftTable.reads keeps (.whole _ _)).map
    (fun (key, field) => draft key field)

theorem reads_external (value : String) :
    externalReader.Reads (.object [("value", .string value)])
      (external value) := by
  have writtenDistinct :
      Json.NamesDistinct (.object [("value", .string value)]) :=
    .object (by simp) (by simpa using Json.NamesDistinct.string value)
  refine ⟨writtenDistinct, ?_⟩
  intro form listing same distinct
  cases same with
  | @object _ listed agree =>
      obtain ⟨reordered, sameMembers, listedAs⟩ :=
        Json.exists_perm_listedAs (.object agree) writtenDistinct distinct
      obtain rfl := List.perm_singleton.mp sameMembers
      rw [List.forall₂_cons_left_iff] at listedAs
      obtain ⟨⟨name, listing⟩, rest, onlyListed, noRest, rfl⟩ := listedAs
      obtain rfl := List.forall₂_nil_left_iff.mp noRest
      obtain ⟨rfl, sameValue, _⟩ := onlyListed
      cases sameValue
      rfl

/-- References. -/
def codec : Codec Reference :=
  .plain reader toJson (fun _ => True) (by
    intro reference _
    cases reference with
    | draft key field =>
        exact Reader.reads_tagged rfl (by simp) (reads_draft key field)
    | external value =>
        exact Reader.reads_tagged rfl (by simp) (reads_external value))

@[simp] theorem keeps_codec (reference : Reference) :
    codec.Keeps reference :=
  trivial

end Reference

namespace ProviderConfigName

/-- Columns of provider configuration names. -/
def columns : List (Column ProviderConfigName) :=
  [.kept .required "name" .text ProviderConfigName.name
    (fun _ value => ⟨value⟩)]

/-- The table of provider configuration names. -/
def table : Table ProviderConfigName where
  initial := ⟨""⟩
  columns := columns
  starts := by
    simp [columns]
  distinct := by
    decide
  commute := by
    simp [columns]
  rebuilt := by
    simp [columns, Column.putAll]

/-- Provider configuration names. -/
def codec : Codec ProviderConfigName where
  reader := reader
  write := toJson
  layout := table.layout
  Keeps _ := True
  reads := by
    intro config _ shorter abridges
    apply table.reads _ abridges
    simp [Table.Keeps, table, columns]

@[simp] theorem keeps_codec (config : ProviderConfigName) :
    codec.Keeps config :=
  trivial

end ProviderConfigName

namespace Draft

/-- Columns of drafts. -/
def columns : List (Column Draft) :=
  [.kept .required "kind" .resourceKind Draft.kind
      (fun draft value => { draft with kind := value }),
    .kept .required "apiVersion" .text Draft.apiVersion
      (fun draft value => { draft with apiVersion := value }),
    .kept .required "key" .key Draft.key
      (fun draft value => { draft with key := value }),
    .kept .required "forProvider" .fields Draft.forProvider
      (fun draft value => { draft with forProvider := value }),
    .kept .defaulted "references" Reference.codec.keyMap Draft.references
      (fun draft value => { draft with references := value }),
    .kept .required "managementPolicies" .texts Draft.managementPolicies
      (fun draft value => { draft with managementPolicies := value }),
    .kept .required "providerConfigRef" ProviderConfigName.codec
      Draft.providerConfig
      (fun draft value => { draft with providerConfig := value }),
    .kept .required "tags" .tags Draft.tags
      (fun draft value => { draft with tags := value }),
    .ifPresent "externalName" .text Draft.externalName
      (fun draft value => { draft with externalName := value })]

/-- The table of drafts. -/
def table : Table Draft where
  initial :=
    { kind := .group, apiVersion := "", key := ⟨""⟩, forProvider := .empty,
      references := .empty, managementPolicies := [], providerConfig := ⟨""⟩,
      tags := .empty, externalName := none }
  columns := columns
  starts := by
    simp [columns]
  distinct := by
    decide
  commute := by
    simp [columns, Column.Commute]
  rebuilt := by
    simp [columns, Column.putAll]

/-- The values of a draft's own fields are in canonical form. -/
def Spelled (draft : Draft) : Prop :=
  ∀ entry ∈ draft.forProvider.entries, entry.2.KeysIncrease

theorem toJson_eq (draft : Draft) :
    draft.toJson = table.write draft := by
  obtain ⟨_, _, _, _, _, _, _, _, externalName⟩ := draft
  cases externalName with
  | none =>
      rfl
  | some name =>
      rfl

/-- Drafts. -/
def codec : Codec Draft where
  reader := reader
  write := toJson
  layout := table.layout
  Keeps := Spelled
  reads := by
    intro draft spelled shorter abridges
    rw [toJson_eq] at abridges
    apply table.reads _ abridges
    simpa [Table.Keeps, table, columns, Spelled] using spelled

@[simp] theorem keeps_codec (draft : Draft) :
    codec.Keeps draft ↔ draft.Spelled :=
  .rfl

end Draft

end AccessTopology
