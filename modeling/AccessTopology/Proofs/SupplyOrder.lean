namespace AccessTopology

/-!
# Lists in order of supply

A list is in order when each of its values finds what it needs among the values
before it.  Lists in order may be joined.
-/

variable {α γ : Type}

/-- Each value of a list finds what it needs in `met` or before itself. -/
def InSupplyOrder
    (supplied : List α → α → Prop) :
    (met : List α) →
    List α →
    Prop
  | _, [] => True
  | met, value :: rest =>
      supplied met value ∧ InSupplyOrder supplied (met ++ [value]) rest

namespace InSupplyOrder

variable {supplied : List α → α → Prop} {met : List α}

theorem append
    {first second : List α}
    (firstOrdered : InSupplyOrder supplied met first)
    (secondOrdered : InSupplyOrder supplied (met ++ first) second) :
    InSupplyOrder supplied met (first ++ second) := by
  induction first generalizing met with
  | nil =>
      simpa using secondOrdered
  | cons value rest inductionHypothesis =>
      refine ⟨firstOrdered.1, inductionHypothesis firstOrdered.2 ?_⟩
      simpa using secondOrdered

/--
Values that find what they need in `met` are in order, however they are listed.
-/
theorem of_met
    {values : List α}
    (enough :
      ∀ value ∈ values,
        ∀ more, supplied (met ++ more) value) :
    InSupplyOrder supplied met values := by
  induction values generalizing met with
  | nil =>
      trivial
  | cons value rest inductionHypothesis =>
      constructor
      · simpa using enough value List.mem_cons_self []
      · refine inductionHypothesis ?_
        intro later laterMember more
        have laterEnough :=
          enough later (List.mem_cons_of_mem value laterMember)
            ([value] ++ more)
        simpa using laterEnough

/-- Lists that are in order wherever they stand may be joined. -/
theorem flatMap
    {sources : List γ}
    {values : γ → List α}
    (ordered :
      ∀ source ∈ sources,
        ∀ more, InSupplyOrder supplied (met ++ more) (values source)) :
    InSupplyOrder supplied met (sources.flatMap values) := by
  induction sources generalizing met with
  | nil =>
      trivial
  | cons source rest inductionHypothesis =>
      rw [List.flatMap_cons]
      refine append ?_ (inductionHypothesis ?_)
      · simpa using ordered source List.mem_cons_self []
      · intro later laterMember more
        rw [List.append_assoc]
        exact ordered later (List.mem_cons_of_mem source laterMember) _

/-- A value of an ordered list finds what it needs before itself. -/
theorem supplied_of_split
    {before after : List α}
    {value : α}
    (ordered : InSupplyOrder supplied met (before ++ value :: after)) :
    supplied (met ++ before) value := by
  induction before generalizing met with
  | nil =>
      simpa using ordered.1
  | cons first rest inductionHypothesis =>
      simpa using inductionHypothesis ordered.2

end InSupplyOrder

end AccessTopology
