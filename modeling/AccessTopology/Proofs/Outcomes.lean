namespace AccessTopology

/-!
# Outcomes that agree

Two computations agree when both fail with one error or both succeed with
results that are related.
-/

/-- Both outcomes are one error, or results that are related. -/
inductive OutcomesAgree
    {ε α β : Type}
    (related : α → β → Prop) :
    Except ε α → Except ε β → Prop
  | failed (error : ε) :
      OutcomesAgree related (.error error) (.error error)
  | succeeded
      {left : α}
      {right : β} :
      related left right →
        OutcomesAgree related (.ok left) (.ok right)

end AccessTopology
