import AccessTopology.Identity.LogicalKey
import AccessTopology.Proofs.Text.Ascii

namespace AccessTopology

/-!
# Letter case in keys

Names that differ in the case of ASCII letters only have one slug, and add the
same segment to a key.
-/

namespace Text

/-- Texts are equal but for the case of ASCII letters. -/
def SameIgnoringCase (left right : String) : Prop :=
  left.toList.map Char.toLower = right.toList.map Char.toLower

/-- What a slug sees of a character does not depend on its letter case. -/
theorem lowercase_congr
    {left right : Char}
    (same : left.toLower = right.toLower) :
    lowercase left = lowercase right := by
  have kelvinBeyond : 128 ≤ '\u212a'.toNat := by
    decide
  have dottedBeyond : 128 ≤ '\u0130'.toNat := by
    decide
  have sameKelvin : left = '\u212a' ↔ right = '\u212a' := by
    rw [← toLower_eq_iff kelvinBeyond, same, toLower_eq_iff kelvinBeyond]
  have sameDotted : left = '\u0130' ↔ right = '\u0130' := by
    rw [← toLower_eq_iff dottedBeyond, same, toLower_eq_iff dottedBeyond]
  simp only [lowercase, sameKelvin, sameDotted, same]

theorem flatMap_lowercase_congr
    {left right : List Char}
    (same : left.map Char.toLower = right.map Char.toLower) :
    left.flatMap lowercase = right.flatMap lowercase := by
  induction left generalizing right with
  | nil =>
      rw [List.map_nil, eq_comm, List.map_eq_nil_iff] at same
      rw [same]
  | cons c rest inductionHypothesis =>
      rw [List.map_cons, eq_comm, List.map_eq_cons_iff] at same
      obtain ⟨other, otherRest, rfl, sameLetter, sameRest⟩ := same
      rw [List.flatMap_cons, List.flatMap_cons,
        lowercase_congr sameLetter, inductionHypothesis sameRest.symm]

theorem slugify_eq_of_sameIgnoringCase
    {left right : String}
    (same : SameIgnoringCase left right) :
    slugify left = slugify right := by
  rw [slugify, slugify, slugChars, slugChars, flatMap_lowercase_congr same]

end Text

/-- Names that differ in letter case only add the same segment to a key. -/
theorem LogicalKey.segment_eq_of_sameIgnoringCase
    {left right : String}
    (same : Text.SameIgnoringCase left right) :
    segment left = segment right := by
  rw [segment, segment, Text.slugify_eq_of_sameIgnoringCase same]

end AccessTopology
