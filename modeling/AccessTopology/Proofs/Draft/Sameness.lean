import AccessTopology.Draft.Basic
import AccessTopology.Proofs.Json.Sameness

namespace AccessTopology.Draft

/-!
# Sameness of drafts

Two drafts that are the same agree on their kind, their key and their
references, and hold the same texts in their fields.
-/

/-- Every draft is the same as itself. -/
theorem same_refl (draft : Draft) : draft.same draft = true := by
  simp [same, Json.sameMembers_refl]

variable {left right : Draft}

theorem kind_eq_of_same
    (same : left.same right = true) :
    left.kind = right.kind := by
  simp only [Draft.same, Bool.and_eq_true, beq_iff_eq] at same
  exact same.1.1.1.1.1.1.1.1

theorem key_eq_of_same
    (same : left.same right = true) :
    left.key = right.key := by
  simp only [Draft.same, Bool.and_eq_true, beq_iff_eq] at same
  exact same.1.1.1.1.1.1.2

theorem sameMembers_of_same
    (same : left.same right = true) :
    Json.sameMembers left.forProvider.entries right.forProvider.entries =
      true := by
  simp only [Draft.same, Bool.and_eq_true, beq_iff_eq] at same
  exact same.1.1.1.1.1.2

theorem references_eq_of_same
    (same : left.same right = true) :
    left.references = right.references := by
  simp only [Draft.same, Bool.and_eq_true, beq_iff_eq] at same
  exact same.1.1.1.1.2

/-- A field that two same drafts have holds the same value in both. -/
theorem same_get?_of_same
    (same : left.same right = true)
    {name : String}
    {leftValue rightValue : Json}
    (leftHolds : left.forProvider.get? name = some leftValue)
    (rightHolds : right.forProvider.get? name = some rightValue) :
    leftValue.same rightValue = true := by
  obtain ⟨other, otherHolds, sameValue⟩ :=
    Json.lookup_of_sameMembers (sameMembers_of_same same) leftHolds
  have isOther : rightValue = other :=
    Option.some.inj (rightHolds.symm.trans otherHolds)
  rw [isOther]
  exact sameValue

/-- A field in which two same drafts hold texts holds one text. -/
theorem text_eq_of_same
    (same : left.same right = true)
    {name leftText rightText : String}
    (leftHolds : left.forProvider.get? name = some (.string leftText))
    (rightHolds : right.forProvider.get? name = some (.string rightText)) :
    leftText = rightText := by
  have sameValue := same_get?_of_same same leftHolds rightHolds
  rwa [Json.same, beq_iff_eq] at sameValue

end AccessTopology.Draft
