import AccessTopology.Proofs.Observation
import AccessTopology.Proofs.Readiness.Entries
import AccessTopology.Proofs.Rendering.Observed

namespace AccessTopology

/-!
# What an observed object lends

An observed object says something about the key in its annotation and about no
other.  The draft and the states of a resource are therefore what they are
without the object, unless the object is marked with that resource's key.  An
object marked for a resource of another kind lends it nothing, except where the
name of one of the two spells the key of the other.
-/

/-- An object that is not marked with a key changes nothing under it. -/
theorem Observations.get?_ofObjects_of_ne
    {settings : Settings}
    {object : Json}
    {key : LogicalKey}
    (notMarked : Observation.key? settings object ≠ some key)
    (before after : List Json) :
    (ofObjects settings (before ++ object :: after)).get? key =
      (ofObjects settings (before ++ after)).get? key := by
  rw [get?_ofObjects, get?_ofObjects]
  simp only [List.reverse_append, List.reverse_cons, List.find?_append,
    List.find?_singleton, notMarked, decide_false, Bool.false_eq_true,
    if_false, Option.or_none]

namespace Composite

/-- Under two lists of observed objects a composite shows a key alike. -/
structure ShowsAlike
    (composite : Composite)
    (settings : Settings)
    (first second : List Json)
    (key : LogicalKey) :
    Prop where
  started :
    ∀ scope kind tags,
      Draft.start scope (.ofObjects settings first) kind key tags =
        Draft.start scope (.ofObjects settings second) kind key tags
  drafted :
    ∀ stages rendering,
      (composite.observing first).renderIn settings stages = .ok rendering →
        ∃ other,
          (composite.observing second).renderIn settings stages =
              .ok other ∧
            ∀ draft, draft.key = key →
              (draft ∈ rendering.drafts ↔ draft ∈ other.drafts)
  states :
    ∀ kind,
      (((composite.observing first).status settings).ofKind kind).get?
          key.text =
        (((composite.observing second).status settings).ofKind kind).get?
          key.text

variable {composite : Composite} {settings : Settings}
  {first second : List Json} {key : LogicalKey}

/-- A ledger named after what says the same about a key keeps its drafts. -/
theorem mem_drafts_named_iff
    {ledger : Ledger}
    {left right : Observations}
    (same : left.get? key = right.get? key)
    (namedLeft : ledger.named left = ledger)
    {draft : Draft}
    (held : draft.key = key) :
    draft ∈ ledger.drafts ↔ draft ∈ (ledger.named right).drafts := by
  have sameName : left.externalName? key = right.externalName? key := by
    rw [Observations.externalName?, same, ← Observations.externalName?]
  have renamed {other : Draft} (heldToo : other.key = key) :
      other.named left = other.named right := by
    rw [Draft.named, Draft.named, heldToo, sameName]
  conv_lhs => rw [← namedLeft]
  rw [Ledger.drafts_named, Ledger.drafts_named, List.mem_map, List.mem_map]
  constructor
  · rintro ⟨other, listed, rfl⟩
    exact ⟨other, listed, (renamed held).symm⟩
  · rintro ⟨other, listed, rfl⟩
    exact ⟨other, listed, renamed held⟩

/-- What is observed under a key decides how a composite shows it. -/
theorem showsAlike_of_get?_eq
    (same :
      (Observations.ofObjects settings first).get? key =
        (Observations.ofObjects settings second).get? key) :
    composite.ShowsAlike settings first second key where
  started := by
    intro scope kind tags
    rw [Draft.start, Draft.start, same]
  drafted := by
    intro stages rendering rendered
    obtain ⟨engine, valid, ledger, made, rfl⟩ :=
      renderIn_eq_ok_iff.mp rendered
    have madeOther :=
      (composite.observing first).ledger_observing settings stages second
    rw [made] at madeOther
    refine ⟨_, renderIn_eq_ok_iff.mpr
      ⟨engine, valid, _, madeOther, rfl⟩, ?_⟩
    intro draft held
    exact mem_drafts_named_iff same (named_of_ledger made) held
  states := StatusSummary.get?_ofKind_congr same (composite.scope settings)

/--
The keys of two resources of different kinds are equal only where the name of
one spells the other.  Where neither does, an observed object that is marked
with the key of one changes nothing about the other, in any composite.
-/
theorem kinds_lend_only_where_spelled
    {left right : ResourceIdentity}
    (kindsDiffer : left.kind ≠ right.kind) :
    (left.key = right.key ↔ left.Spells right ∨ right.Spells left) ∧
      (¬left.Spells right → ¬right.Spells left →
        ∀ (composite : Composite) (settings : Settings)
          (before : List Json) (object : Json) (after : List Json),
          Observation.key? settings object = some right.key →
            composite.ShowsAlike settings (before ++ object :: after)
              (before ++ after) left.key) := by
  have sameKey := ResourceIdentity.key_eq_iff_of_kind_ne kindsDiffer
  refine ⟨sameKey, ?_⟩
  intro leftSilent rightSilent composite settings before object after marked
  have keysDiffer : left.key ≠ right.key := by
    rw [Ne, sameKey]
    exact not_or.mpr ⟨leftSilent, rightSilent⟩
  refine showsAlike_of_get?_eq
    (Observations.get?_ofObjects_of_ne ?_ before after)
  rw [marked, Ne, Option.some.injEq]
  exact keysDiffer.symm

/-- An object marked for a membership says nothing about the group it is in. -/
theorem membership_lends_group_nothing :
    LogicalKey.group "ops" ≠ .membership "jane" "ops" ∧
      sample.ShowsAlike {}
        [Json.annotatedReady {}
          (LogicalKey.membership "jane" "ops").text "m-1"]
        [] (.group "ops") := by
  have kindsDiffer :
      (ResourceIdentity.group "ops").kind ≠
        (ResourceIdentity.membership "jane" "ops").kind := by
    decide
  have keysDiffer :
      (ResourceIdentity.group "ops").key ≠
        (ResourceIdentity.membership "jane" "ops").key := by
    decide +kernel
  have marked :
      Observation.key? {}
          (.annotatedReady {} (LogicalKey.membership "jane" "ops").text
            "m-1") =
        some (ResourceIdentity.membership "jane" "ops").key := by
    decide +kernel
  obtain ⟨sameKey, silent⟩ := kinds_lend_only_where_spelled kindsDiffer
  have neither := not_or.mp (mt sameKey.mpr keysDiffer)
  exact ⟨keysDiffer, silent neither.1 neither.2 sample {} [] _ [] marked⟩

/-- A group whose name spells a membership, whose object is still observed. -/
def spelledGroup : Composite :=
  { spec :=
      { identityStore := some { id := some "d-1234567890" }
        groups := [{ name := "membership jane ops" }] }
    observed :=
      [Json.annotatedReady {}
        (LogicalKey.membership "jane" "ops").text "m-1"] }

/--
The key of a group whose name spells a membership is the membership's, whose
object lends the group its external name and readiness.
-/
theorem spelled_membership_lends_group :
    ResourceKind.group ≠ ResourceKind.groupMembership ∧
      (∀ name ∈ ["membership jane ops", "jane", "ops"],
        Text.slugify name ≠ "") ∧
      LogicalKey.group "membership jane ops" = .membership "jane" "ops" ∧
      (spelledGroup.status {}).principals.get?
          (LogicalKey.group "membership jane ops").text =
        some ⟨.ready, some "m-1"⟩ ∧
      (spelledGroup.render {}).toOption.map
          (fun rendering =>
            rendering.drafts.map
              (fun draft => (draft.kind, draft.externalName))) =
        some [(.group, some "m-1")] := by
  decide +kernel

end Composite

end AccessTopology
