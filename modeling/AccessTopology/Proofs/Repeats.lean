import Mathlib.Data.List.Nodup

namespace AccessTopology

/-!
# Lists without repeats

A list may name one thing several times.  `dropRepeats` keeps the first value
of every label and drops the later ones; what is kept stays in its order, no
label is lost and none is left twice.
-/

/-- The values of a list that do not repeat the label of an earlier one. -/
def dropRepeats
    [DecidableEq β]
    (label : α → β) :
    List α → List α
  | [] => []
  | value :: rest =>
      value ::
        (dropRepeats label rest).filter
          (fun later => label later ≠ label value)

/--
The values of a list that repeat no label of an earlier one and none in `met`.
-/
def dropRepeatsAfter
    [DecidableEq β]
    (label : α → β)
    (met : List β)
    (values : List α) :
    List α :=
  (dropRepeats label values).filter (fun value => label value ∉ met)

variable {α β γ : Type} [DecidableEq β]

/-- What is kept stands in the order of the list. -/
theorem dropRepeats_sublist
    (label : α → β)
    (values : List α) :
    (dropRepeats label values).Sublist values := by
  induction values with
  | nil =>
      exact .slnil
  | cons value rest inductionHypothesis =>
      exact (List.filter_sublist.trans inductionHypothesis).cons_cons value

/-- Every label of a list is the label of a value that is kept. -/
theorem exists_mem_dropRepeats
    (label : α → β)
    {values : List α}
    {value : α}
    (member : value ∈ values) :
    ∃ kept ∈ dropRepeats label values, label kept = label value := by
  induction values with
  | nil =>
      simp at member
  | cons first rest inductionHypothesis =>
      by_cases sameLabel : label value = label first
      · exact ⟨first, List.mem_cons_self, sameLabel.symm⟩
      · have inRest : value ∈ rest := by
          rcases List.mem_cons.mp member with isFirst | inRest
          · exact absurd (congrArg label isFirst) sameLabel
          · exact inRest
        obtain ⟨kept, keptInRest, keptLabel⟩ :=
          inductionHypothesis inRest
        refine ⟨kept, List.mem_cons_of_mem first ?_, keptLabel⟩
        exact List.mem_filter.mpr
          ⟨keptInRest, by simpa [keptLabel] using sameLabel⟩

/-- Keeping first values loses no label and invents none. -/
theorem mem_map_dropRepeats
    {label : α → β}
    {values : List α}
    {wanted : β} :
    wanted ∈ (dropRepeats label values).map label ↔
      wanted ∈ values.map label := by
  constructor
  · intro kept
    exact ((dropRepeats_sublist label values).map label).subset kept
  · intro listed
    obtain ⟨value, member, sameLabel⟩ := List.mem_map.mp listed
    obtain ⟨kept, keptMember, keptLabel⟩ :=
      exists_mem_dropRepeats label member
    exact List.mem_map.mpr
      ⟨kept, keptMember, keptLabel.trans sameLabel⟩

/-- No two kept values share a label. -/
theorem nodup_map_dropRepeats
    (label : α → β)
    (values : List α) :
    ((dropRepeats label values).map label).Nodup := by
  induction values with
  | nil =>
      exact List.nodup_nil
  | cons value rest inductionHypothesis =>
      rw [dropRepeats, List.map_cons, List.nodup_cons]
      constructor
      · intro repeated
        obtain ⟨later, laterMember, sameLabel⟩ := List.mem_map.mp repeated
        simp [sameLabel] at laterMember
      · exact (List.filter_sublist.map label).nodup inductionHypothesis

/-- A list without repeats keeps all its values. -/
theorem dropRepeats_eq_self
    {label : α → β}
    {values : List α}
    (noRepeats : (values.map label).Nodup) :
    dropRepeats label values = values := by
  induction values with
  | nil =>
      rfl
  | cons value rest inductionHypothesis =>
      rw [List.map_cons, List.nodup_cons] at noRepeats
      rw [dropRepeats, inductionHypothesis noRepeats.2]
      congr 1
      refine List.filter_eq_self.mpr ?_
      intro later laterMember
      have differs : label later ≠ label value :=
        fun same => noRepeats.1 (List.mem_map.mpr ⟨later, laterMember, same⟩)
      simpa using differs

theorem dropRepeatsAfter_nil
    (label : α → β)
    (values : List α) :
    dropRepeatsAfter label [] values = dropRepeats label values := by
  simp [dropRepeatsAfter]

theorem dropRepeatsAfter_cons_of_new
    {label : α → β}
    {met : List β}
    {value : α}
    (new : label value ∉ met)
    (rest : List α) :
    dropRepeatsAfter label met (value :: rest) =
      value :: dropRepeatsAfter label (met ++ [label value]) rest := by
  rw [dropRepeatsAfter, dropRepeats,
    List.filter_cons_of_pos (by simpa using new), List.filter_filter]
  congr 1
  refine List.filter_congr ?_
  intro later _
  simp [not_or]

theorem dropRepeatsAfter_cons_of_met
    {label : α → β}
    {met : List β}
    {value : α}
    (alreadyMet : label value ∈ met)
    (rest : List α) :
    dropRepeatsAfter label met (value :: rest) =
      dropRepeatsAfter label met rest := by
  rw [dropRepeatsAfter, dropRepeats,
    List.filter_cons_of_neg (by simpa using alreadyMet), List.filter_filter]
  refine List.filter_congr ?_
  intro later _
  by_cases laterMet : label later ∈ met
  · simp [laterMet]
  · have differs : label later ≠ label value :=
      fun same => laterMet (same ▸ alreadyMet)
    simp [laterMet, differs]

/-- Of two lists the second adds the labels that the first does not have. -/
theorem dropRepeats_append
    (label : α → β)
    (first second : List α) :
    dropRepeats label (first ++ second) =
      dropRepeats label first ++
        dropRepeatsAfter label (first.map label) second := by
  induction first with
  | nil =>
      rw [List.nil_append, List.map_nil, dropRepeatsAfter_nil]
      rfl
  | cons value rest inductionHypothesis =>
      rw [List.cons_append, dropRepeats, inductionHypothesis,
        dropRepeatsAfter, List.filter_append, List.filter_filter,
        dropRepeats, List.cons_append]
      congr 2
      refine List.filter_congr ?_
      intro later _
      simp

theorem dropRepeats_append_congr
    {label : α → β}
    {first first' second second' : List α}
    (sameFirst : dropRepeats label first = dropRepeats label first')
    (sameSecond : dropRepeats label second = dropRepeats label second') :
    dropRepeats label (first ++ second) =
      dropRepeats label (first' ++ second') := by
  have sameLabels :
      ∀ wanted, wanted ∈ first.map label ↔ wanted ∈ first'.map label := by
    intro wanted
    rw [← mem_map_dropRepeats, sameFirst, mem_map_dropRepeats]
  rw [dropRepeats_append, dropRepeats_append, sameFirst,
    dropRepeatsAfter, dropRepeatsAfter, sameSecond]
  simp only [sameLabels]

/-- Repeats within each of several joined lists may be dropped beforehand. -/
theorem dropRepeats_flatMap_congr
    {label : α → β}
    {sources : List γ}
    {left right : γ → List α}
    (same :
      ∀ source,
        dropRepeats label (left source) =
          dropRepeats label (right source)) :
    dropRepeats label (sources.flatMap left) =
      dropRepeats label (sources.flatMap right) := by
  induction sources with
  | nil =>
      rfl
  | cons source rest inductionHypothesis =>
      exact dropRepeats_append_congr (same source) inductionHypothesis

/-- Repeats among images are repeats among the values they come from. -/
theorem dropRepeats_map
    (label : γ → β)
    (image : α → γ)
    (values : List α) :
    dropRepeats label (values.map image) =
      (dropRepeats (fun value => label (image value)) values).map image := by
  induction values with
  | nil =>
      rfl
  | cons value rest inductionHypothesis =>
      rw [List.map_cons, dropRepeats, inductionHypothesis,
        List.filter_map, dropRepeats, List.map_cons]
      rfl

/-- Values may be left out by their labels before or after repeats are dropped. -/
theorem dropRepeats_filter
    (label : α → β)
    (keep : β → Bool)
    (values : List α) :
    dropRepeats label (values.filter (fun value => keep (label value))) =
      (dropRepeats label values).filter (fun value => keep (label value)) := by
  induction values with
  | nil =>
      rfl
  | cons value rest inductionHypothesis =>
      by_cases kept : keep (label value) = true
      · rw [List.filter_cons, if_pos kept, dropRepeats, dropRepeats,
          List.filter_cons, if_pos kept, inductionHypothesis,
          List.filter_filter, List.filter_filter]
        congr 1
        refine List.filter_congr ?_
        intro later _
        exact Bool.and_comm _ _
      · rw [List.filter_cons, if_neg kept, dropRepeats, List.filter_cons,
          if_neg kept, inductionHypothesis, List.filter_filter]
        refine List.filter_congr ?_
        intro later _
        -- Whatever repeats the label of the value is left out with it.
        by_cases laterKept : keep (label later) = true
        · have differs : label later ≠ label value :=
            fun same => kept (same ▸ laterKept)
          simp [laterKept, differs]
        · simp [laterKept]

/-- Two labels that tell the same values of a list apart drop the same repeats. -/
theorem dropRepeats_congr
    [DecidableEq γ]
    {left : α → β}
    {right : α → γ}
    {values : List α}
    (agree :
      ∀ value ∈ values,
        ∀ other ∈ values,
          left value = left other ↔ right value = right other) :
    dropRepeats left values = dropRepeats right values := by
  induction values with
  | nil =>
      rfl
  | cons value rest inductionHypothesis =>
      have restAgrees :
          dropRepeats left rest = dropRepeats right rest :=
        inductionHypothesis
          (fun other otherMember another anotherMember =>
            agree other (List.mem_cons_of_mem value otherMember)
              another (List.mem_cons_of_mem value anotherMember))
      rw [dropRepeats, dropRepeats, restAgrees]
      congr 1
      refine List.filter_congr ?_
      intro later laterMember
      have inRest : later ∈ rest :=
        (dropRepeats_sublist right rest).subset laterMember
      have same :=
        agree later (List.mem_cons_of_mem value inRest)
          value List.mem_cons_self
      simp [same]

/--
Where the label tells values apart, dropping repeats drops no value altogether.
-/
theorem mem_dropRepeats
    {label : α → β}
    {values : List α}
    (apart :
      ∀ value ∈ values,
        ∀ other ∈ values,
          label value = label other → value = other)
    {value : α} :
    value ∈ dropRepeats label values ↔ value ∈ values := by
  constructor
  · exact fun kept => (dropRepeats_sublist label values).subset kept
  · intro member
    obtain ⟨kept, keptMember, sameLabel⟩ :=
      exists_mem_dropRepeats label member
    have keptListed : kept ∈ values :=
      (dropRepeats_sublist label values).subset keptMember
    exact apart kept keptListed value member sameLabel ▸ keptMember

/-- What is kept before a value is what would be kept of the values before it. -/
theorem exists_split_of_dropRepeats
    {label : α → β}
    {values kept later : List α}
    {value : α}
    (split : dropRepeats label values = kept ++ value :: later) :
    ∃ before after,
      values = before ++ value :: after ∧
        dropRepeats label before = kept := by
  induction values generalizing kept later with
  | nil =>
      simp [dropRepeats] at split
  | cons first rest inductionHypothesis =>
      rw [dropRepeats] at split
      cases kept with
      | nil =>
          rw [List.nil_append, List.cons.injEq] at split
          exact ⟨[], rest, by rw [split.1, List.nil_append], rfl⟩
      | cons keptFirst keptRest =>
          rw [List.cons_append, List.cons.injEq] at split
          obtain ⟨isFirst, restSplit⟩ := split
          obtain ⟨keptPart, valuePart, restKept, keptEq, valueEq⟩ :=
            List.filter_eq_append_iff.mp restSplit
          obtain ⟨skipped, laterPart, valueSplit, noneKept, _, _⟩ :=
            List.filter_eq_cons_iff.mp valueEq
          rw [valueSplit, ← List.append_assoc] at restKept
          obtain ⟨before, after, isRest, keptBefore⟩ :=
            inductionHypothesis restKept
          refine ⟨first :: before, after, by rw [isRest]; rfl, ?_⟩
          have skippedDropped :
              skipped.filter (fun other => label other ≠ label first) =
                [] :=
            List.filter_eq_nil_iff.mpr noneKept
          rw [dropRepeats, keptBefore, List.filter_append, keptEq,
            skippedDropped, List.append_nil, isFirst]

/-- Where labels are distinct, a value is the only one of its label. -/
theorem filter_eq_singleton_of_nodup
    {label : α → β}
    {values : List α}
    (distinct : (values.map label).Nodup)
    {value : α}
    (member : value ∈ values) :
    values.filter (fun other => label other = label value) = [value] := by
  induction values with
  | nil =>
      simp at member
  | cons first rest inductionHypothesis =>
      rw [List.map_cons, List.nodup_cons] at distinct
      rcases List.mem_cons.mp member with isFirst | inRest
      · subst isFirst
        have noOther :
            rest.filter (fun other => label other = label value) = [] := by
          refine List.filter_eq_nil_iff.mpr ?_
          intro other otherMember same
          exact distinct.1
            (List.mem_map.mpr ⟨other, otherMember, of_decide_eq_true same⟩)
        rw [List.filter_cons_of_pos (by simp), noOther]
      · have differs : label first ≠ label value :=
          fun same =>
            distinct.1 (List.mem_map.mpr ⟨value, inRest, same.symm⟩)
        rw [List.filter_cons_of_neg (by simpa using differs)]
        exact inductionHypothesis distinct.2 inRest

/-- Where labels are distinct, a search for a label finds the value that has it. -/
theorem find?_eq_some_of_nodup
    {label : α → β}
    {values : List α}
    (distinct : (values.map label).Nodup)
    {value : α}
    (member : value ∈ values) :
    values.find? (fun other => label other = label value) = some value := by
  rw [← List.head?_filter, filter_eq_singleton_of_nodup distinct member]
  rfl

end AccessTopology
