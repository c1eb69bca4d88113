import AccessTopology.Json.Value
import AccessTopology.KeyMap.Lookup

namespace AccessTopology.Json

/-!
# Sameness of JSON values

Sameness is equality up to the sign of zero.  Every value is the same as
itself, and two objects that are the same hold the same value under every name.
-/

mutual

/-- Every value is the same as itself. -/
theorem same_refl : (value : Json) → value.same value = true
  | .null => rfl
  | .bool value => by
      simp [same]
  | .number value => by
      rw [same]
      exact Number.same_refl value
  | .string value => by
      simp [same]
  | .array items => by
      rw [same]
      exact sameItems_refl items
  | .object members => by
      rw [same]
      exact sameMembers_refl members

/-- Every list of values is the same as itself. -/
theorem sameItems_refl : (items : List Json) → sameItems items items = true
  | [] => rfl
  | item :: rest => by
      rw [sameItems, same_refl item, sameItems_refl rest]
      rfl

/-- Every list of members is the same as itself. -/
theorem sameMembers_refl :
    (members : List (String × Json)) →
      sameMembers members members = true
  | [] => rfl
  | (name, value) :: rest => by
      rw [sameMembers, same_refl value, sameMembers_refl rest]
      simp

end

/--
Under a name that one of two same objects has, the other has the same value.
-/
theorem lookup_of_sameMembers
    {left right : List (String × Json)}
    (same : sameMembers left right = true)
    {name : String}
    {value : Json}
    (found : left.lookup name = some value) :
    ∃ other,
      right.lookup name = some other ∧ value.same other = true := by
  induction left generalizing right with
  | nil =>
      simp at found
  | cons leftHead leftRest inductionHypothesis =>
      cases right with
      | nil =>
          simp [sameMembers] at same
      | cons rightHead rightRest =>
          obtain ⟨leftName, leftValue⟩ := leftHead
          obtain ⟨rightName, rightValue⟩ := rightHead
          rw [sameMembers, Bool.and_eq_true, Bool.and_eq_true,
            beq_iff_eq] at same
          obtain ⟨⟨sameName, sameValue⟩, sameRest⟩ := same
          subst sameName
          rw [KeyMap.lookup_cons_ite] at found ⊢
          by_cases asked : name = leftName
          · rw [if_pos asked] at found ⊢
            rw [Option.some.injEq] at found
            exact ⟨rightValue, rfl, found ▸ sameValue⟩
          · rw [if_neg asked] at found ⊢
            exact inductionHypothesis sameRest found

end AccessTopology.Json
