import Mathlib.Data.List.Basic

namespace AccessTopology

/-!
# Lists with values put among their own

A list is enlarged by some values when these are put anywhere among its own and
its own stay in their order.  Where the values put in can be told from the
others, leaving them out gives the list back.
-/

/-- The second list is the first with values of `extra` put among its own. -/
inductive Enlarged (extra : List α) : List α → List α → Prop
  | nil :
      Enlarged extra [] []
  | keep (value : α) {smaller larger : List α} :
      Enlarged extra smaller larger →
        Enlarged extra (value :: smaller) (value :: larger)
  | add {value : α} {smaller larger : List α} :
      value ∈ extra →
      Enlarged extra smaller larger →
        Enlarged extra smaller (value :: larger)

namespace Enlarged

variable {extra smaller larger : List α}

theorem refl
    (extra values : List α) :
    Enlarged extra values values := by
  induction values with
  | nil =>
      exact .nil
  | cons value rest inductionHypothesis =>
      exact .keep value inductionHypothesis

theorem append
    {smallerRest largerRest : List α}
    (first : Enlarged extra smaller larger)
    (second : Enlarged extra smallerRest largerRest) :
    Enlarged extra (smaller ++ smallerRest) (larger ++ largerRest) := by
  induction first with
  | nil =>
      exact second
  | keep value _ inductionHypothesis =>
      exact .keep value inductionHypothesis
  | add isExtra _ inductionHypothesis =>
      exact .add isExtra inductionHypothesis

/-- A block of extra values may be put before a list. -/
theorem append_left
    {block : List α}
    (areExtra : block ⊆ extra)
    (enlarged : Enlarged extra smaller larger) :
    Enlarged extra smaller (block ++ larger) := by
  induction block with
  | nil =>
      exact enlarged
  | cons value rest inductionHypothesis =>
      rw [List.cons_subset] at areExtra
      exact .add areExtra.1 (inductionHypothesis areExtra.2)

/-- A block of extra values may be put between two parts of a list. -/
theorem insert
    {block : List α}
    (areExtra : block ⊆ extra)
    (before after : List α) :
    Enlarged extra (before ++ after) (before ++ (block ++ after)) :=
  (refl extra before).append ((refl extra after).append_left areExtra)

/-- An enlarged list holds nothing but its own values and extra ones. -/
theorem mem_or_mem
    (enlarged : Enlarged extra smaller larger)
    {value : α}
    (member : value ∈ larger) :
    value ∈ smaller ∨ value ∈ extra := by
  induction enlarged with
  | nil =>
      exact .inl member
  | keep first _ inductionHypothesis =>
      rcases List.mem_cons.mp member with isFirst | inRest
      · exact .inl (isFirst ▸ List.mem_cons_self)
      · exact (inductionHypothesis inRest).imp_left
          (List.mem_cons_of_mem first)
  | add isExtra _ inductionHypothesis =>
      rcases List.mem_cons.mp member with isFirst | inRest
      · exact .inr (isFirst ▸ isExtra)
      · exact inductionHypothesis inRest

/-- Without its extra values an enlarged list is what it was. -/
theorem filter_eq
    (enlarged : Enlarged extra smaller larger)
    {keep : α → Bool}
    (kept : ∀ value ∈ smaller, keep value = true)
    (dropped : ∀ value ∈ extra, keep value = false) :
    larger.filter keep = smaller := by
  induction enlarged with
  | nil =>
      rfl
  | keep value _ inductionHypothesis =>
      rw [List.forall_mem_cons] at kept
      rw [List.filter_cons_of_pos kept.1, inductionHypothesis kept.2]
  | add isExtra _ inductionHypothesis =>
      rw [List.filter_cons_of_neg (by simp [dropped _ isExtra]),
        inductionHypothesis kept]

end Enlarged

end AccessTopology
