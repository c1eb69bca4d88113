import AccessTopology.Proofs.Digest
import AccessTopology.Proofs.Draft.Document
import AccessTopology.Proofs.Json.ReadText
import AccessTopology.Proofs.Rendering.Outcome
import AccessTopology.Proofs.Topology.Fields

namespace AccessTopology

/-!
# What canonical texts tell

The canonical text of a value tells the value, up to the order in which its
objects list their members.  The canonical text of a pass's drafts therefore
tells the drafts, so that two passes that draft differently have one digest only
where the hash of two messages is the same.  The text of an inline policy that
was declared as a document tells that document.
-/

namespace Json

/--
What is read from a text is a value with the names of its objects in order; if
they were in order before, it is that value itself.
-/
def RecoveredFrom
    (text : String)
    (value : Json) :
    Prop :=
  ∃ sorted,
    (JsonText.parse text).read Reader.any = .ok sorted ∧
      sorted.KeysIncrease ∧
        value.SameValue sorted ∧
          (value.KeysIncrease → sorted = value)

theorem recoveredFrom_canonicalText
    {value : Json}
    (integral : value.Integral)
    (nested : value.NestedWithin JsonText.maxDepth) :
    RecoveredFrom value.canonicalText value :=
  ⟨value.canonical, read_canonicalText integral nested,
    keysIncrease_canonical value, sameValue_canonical value,
    KeysIncrease.canonical_eq⟩

end Json

namespace Draft

/-- Lists of plain drafts are equal when they have one canonical text. -/
theorem canonicalText_listToJson_eq_iff
    {left right : List Draft}
    (leftPlain : ∀ draft ∈ left, draft.Plain)
    (rightPlain : ∀ draft ∈ right, draft.Plain) :
    (listToJson left).canonicalText = (listToJson right).canonicalText ↔
      left = right := by
  have integral {drafts : List Draft}
      (plain : ∀ draft ∈ drafts, draft.Plain) :
      (listToJson drafts).Integral :=
    Json.integral_ofList fun draft listed =>
      (plain draft listed).integral_toJson
  rw [Json.Integral.canonicalText_eq_iff (integral leftPlain)
    (integral rightPlain), Json.sameValue_iff_canonical_eq]
  constructor
  · exact Json.faithfulOn_ofList faithfulOn_toJson left right leftPlain
      rightPlain
  · intro same
    rw [same]

/--
A draft holds the inline policy of a permission set as a text; a policy that was
declared as a document is written canonically and can be read back.
-/
structure HoldsPolicy
    (draft : Draft)
    (set : PermissionSet) :
    Prop where
  kind :
    draft.kind = .inlinePolicy
  key :
    draft.key = .inlinePolicy set.name
  text :
    ∃ text,
      draft.forProvider.get? "inlinePolicy" = some (.string text) ∧
        ∀ document,
          set.inlinePolicy = some document →
            document.asString? = none →
              text = document.canonicalText ∧
                (document.Integral →
                  document.NestedWithin JsonText.maxDepth →
                    Json.RecoveredFrom text document)

end Draft

namespace PermissionSet

variable {set : PermissionSet} {document : Json}

/-- A document is declared as a policy by its canonical text. -/
theorem inlinePolicyText?_of_document
    (declared : set.inlinePolicy = some document)
    (noText : document.asString? = none)
    (notNull : document ≠ .null) :
    set.inlinePolicyText? = some document.canonicalText := by
  rw [inlinePolicyText?, declared]
  cases document with
  | null =>
      exact absurd rfl notNull
  | string text =>
      cases noText
  | bool | number | array | object =>
      rfl

/-- The draft of a permission set's inline policy holds that policy. -/
theorem holdsPolicy_compiled
    {scope : Scope}
    {observations : Observations}
    {text : String}
    (asked : set.inlinePolicyText? = some text) :
    ((Declaration.inlinePolicy set text).compiled scope
      observations).HoldsPolicy set := by
  refine ⟨rfl, rfl, text, ?_, ?_⟩
  · refine KeyMap.get?_ofList_of_mem (Declaration.nodup_fields _) ?_
    exact List.mem_cons_of_mem _ (List.mem_singleton.mpr rfl)
  · intro document declared noText
    have notNull : document ≠ .null := by
      rintro rfl
      rw [inlinePolicyText?, declared] at asked
      cases asked
    rw [inlinePolicyText?_of_document declared noText notNull,
      Option.some.injEq] at asked
    subst asked
    exact ⟨rfl, Json.recoveredFrom_canonicalText⟩

end PermissionSet

namespace Composite

variable {composite other : Composite} {settings otherSettings : Settings}
  {stages otherStages : List Stage} {rendering otherRendering : Rendering}

/-- A rendering drafts what its topology asks for only. -/
theorem exists_declaration_of_mem_drafts
    (rendered : composite.renderIn settings stages = .ok rendering)
    {draft : Draft}
    (drafted : draft ∈ rendering.drafts) :
    ∃ declaration,
      composite.spec.Asks declaration ∧
        declaration.compiled (composite.scope settings)
          (composite.observations settings) = draft := by
  obtain ⟨_, valid, ledger, made, rfl⟩ := renderIn_eq_ok_iff.mp rendered
  have drafts :=
    (draftsIn_of_runStages valid (ledger_eq_ok_iff.mp made).1).2
  rw [drafts] at drafted
  obtain ⟨declaration, kept, isDraft⟩ := List.mem_map.mp drafted
  have listed := (dropRepeats_sublist _ _).subset kept
  exact ⟨declaration, Spec.asks_of_mem_declarationsIn listed, isDraft⟩

/-- The drafts of a rendering are plain. -/
theorem plain_of_mem_drafts
    (rendered : composite.renderIn settings stages = .ok rendering) :
    ∀ draft ∈ rendering.drafts, draft.Plain := by
  intro draft drafted
  obtain ⟨declaration, _, rfl⟩ :=
    exists_declaration_of_mem_drafts rendered drafted
  exact declaration.plain_compiled

/-- Two renderings have one text of their drafts when they draft the same. -/
theorem canonicalText_drafts_eq_iff
    (rendered : composite.renderIn settings stages = .ok rendering)
    (otherRendered :
      other.renderIn otherSettings otherStages = .ok otherRendering) :
    (Draft.listToJson rendering.drafts).canonicalText =
        (Draft.listToJson otherRendering.drafts).canonicalText ↔
      rendering.drafts = otherRendering.drafts :=
  Draft.canonicalText_listToJson_eq_iff (plain_of_mem_drafts rendered)
    (plain_of_mem_drafts otherRendered)

theorem digest_of_renderIn
    (rendered : composite.renderIn settings stages = .ok rendering) :
    rendering.digest =
      Digest.ofText (Draft.listToJson rendering.drafts).canonicalText := by
  obtain ⟨_, _, _, _, rfl⟩ := renderIn_eq_ok_iff.mp rendered
  rfl

/-- One digest of different drafts is a collision of their texts' bytes. -/
theorem collide_of_digest_eq
    (rendered : composite.renderIn settings stages = .ok rendering)
    (otherRendered :
      other.renderIn otherSettings otherStages = .ok otherRendering)
    (different : rendering.drafts ≠ otherRendering.drafts)
    (same : rendering.digest = otherRendering.digest) :
    Digest.Collide
      (Draft.listToJson rendering.drafts).canonicalText.toUTF8.toList
      (Draft.listToJson otherRendering.drafts).canonicalText.toUTF8.toList :=
    by
  rw [digest_of_renderIn rendered, digest_of_renderIn otherRendered] at same
  refine Digest.collide_of_ofText_eq ?_ same
  exact (canonicalText_drafts_eq_iff rendered otherRendered).not.mpr different

/-- Every draft of an inline policy holds the policy of a declared set. -/
theorem exists_holdsPolicy
    (rendered : composite.renderIn settings stages = .ok rendering)
    {draft : Draft}
    (drafted : draft ∈ rendering.drafts)
    (isPolicy : draft.kind = .inlinePolicy) :
    ∃ set ∈ composite.spec.permissionSets, draft.HoldsPolicy set := by
  obtain ⟨declaration, asked, rfl⟩ :=
    exists_declaration_of_mem_drafts rendered drafted
  cases declaration with
  | inlinePolicy set text =>
      exact ⟨set, asked.1, PermissionSet.holdsPolicy_compiled asked.2⟩
  | _ =>
      cases isPolicy

/-- A policy that is declared as a document is drafted. -/
theorem exists_mem_drafts_holdsPolicy
    (rendered : composite.render settings = .ok rendering)
    {set : PermissionSet}
    (declared : set ∈ composite.spec.permissionSets)
    {document : Json}
    (isDocument : set.inlinePolicy = some document)
    (noText : document.asString? = none)
    (notNull : document ≠ .null) :
    ∃ draft ∈ rendering.drafts, draft.HoldsPolicy set := by
  have asked :=
    PermissionSet.inlinePolicyText?_of_document isDocument noText notNull
  have listed :
      Declaration.inlinePolicy set document.canonicalText ∈
        composite.spec.declarations := by
    refine Spec.mem_declarations_iff.mpr ⟨?_, declared, asked⟩
    intro principal
    cases principal
  exact ⟨_, (mem_drafts_iff rendered).mpr ⟨_, listed, rfl⟩,
    PermissionSet.holdsPolicy_compiled asked⟩

end Composite

/-- Canonical texts are a normal form that tells what is written. -/
structure CanonicalTextsTell : Prop where
  same_iff :
    ∀ left right : Json,
      left.Integral → right.Integral →
        (left.canonicalText = right.canonicalText ↔ left.SameValue right)
  ordered :
    ∀ value : Json,
      ∃ sorted : Json,
        value.canonicalText = sorted.compact ∧
          sorted.KeysIncrease ∧ value.SameValue sorted
  recovered :
    ∀ value : Json,
      value.Integral → value.NestedWithin JsonText.maxDepth →
        Json.RecoveredFrom value.canonicalText value
  drafts_iff :
    ∀ (composite other : Composite) (settings otherSettings : Settings)
      (stages otherStages : List Stage)
      (rendering otherRendering : Rendering),
      composite.renderIn settings stages = .ok rendering →
        other.renderIn otherSettings otherStages = .ok otherRendering →
          ((Draft.listToJson rendering.drafts).canonicalText =
              (Draft.listToJson otherRendering.drafts).canonicalText ↔
            rendering.drafts = otherRendering.drafts)
  digests :
    ∀ (composite other : Composite) (settings otherSettings : Settings)
      (stages otherStages : List Stage)
      (rendering otherRendering : Rendering),
      composite.renderIn settings stages = .ok rendering →
        other.renderIn otherSettings otherStages = .ok otherRendering →
          rendering.drafts ≠ otherRendering.drafts →
            rendering.digest = otherRendering.digest →
              Digest.Collide
                (Draft.listToJson
                  rendering.drafts).canonicalText.toUTF8.toList
                (Draft.listToJson
                  otherRendering.drafts).canonicalText.toUTF8.toList
  policies :
    ∀ (composite : Composite) (settings : Settings) (stages : List Stage)
      (rendering : Rendering),
      composite.renderIn settings stages = .ok rendering →
        ∀ draft ∈ rendering.drafts,
          draft.kind = .inlinePolicy →
            ∃ set ∈ composite.spec.permissionSets, draft.HoldsPolicy set
  documents :
    ∀ (composite : Composite) (settings : Settings) (rendering : Rendering),
      composite.render settings = .ok rendering →
        ∀ set ∈ composite.spec.permissionSets,
          ∀ document,
            set.inlinePolicy = some document →
              document.asString? = none →
                document ≠ .null →
                  ∃ draft ∈ rendering.drafts, draft.HoldsPolicy set

/--
Values are told by their canonical texts, drafts by the texts of their lists,
and declared policy documents by the texts that are drafted for them.
-/
theorem canonical_texts_tell : CanonicalTextsTell where
  same_iff _ _ := Json.Integral.canonicalText_eq_iff
  ordered value :=
    ⟨value.canonical, rfl, value.keysIncrease_canonical,
      value.sameValue_canonical⟩
  recovered _ := Json.recoveredFrom_canonicalText
  drafts_iff _ _ _ _ _ _ _ _ := Composite.canonicalText_drafts_eq_iff
  digests _ _ _ _ _ _ _ _ := Composite.collide_of_digest_eq
  policies _ _ _ _ rendered _ := Composite.exists_holdsPolicy rendered
  documents _ _ _ rendered _ declared _ :=
    Composite.exists_mem_drafts_holdsPolicy rendered declared

end AccessTopology
