import AccessTopology.Topology.Assignment
import AccessTopology.Validation.Rule
import Mathlib.Data.List.Nodup

namespace AccessTopology

/-!
# What a valid topology guarantees

A topology without errors has an instance wherever one is needed, and its
declared names have pairwise distinct keys.  A declared group, user or
permission set is therefore known by its key, and two names of one kind with
the same key are the same name.
-/

theorem repeats_eq_nil_iff
    {key : α → LogicalKey}
    {met : List LogicalKey}
    {values : List α} :
    repeats key met values = [] ↔
      (values.map key).Nodup ∧ ∀ value ∈ values, key value ∉ met := by
  induction values generalizing met with
  | nil =>
      simp [repeats]
  | cons value rest inductionHypothesis =>
      rw [repeats]
      by_cases alreadyMet : key value ∈ met
      · simp [alreadyMet]
      · rw [if_neg alreadyMet, inductionHypothesis, List.map_cons,
          List.nodup_cons]
        constructor
        · rintro ⟨restDistinct, restNew⟩
          refine ⟨⟨?_, restDistinct⟩, ?_⟩
          · intro repeated
            obtain ⟨later, laterMember, sameKey⟩ :=
              List.mem_map.mp repeated
            exact restNew later laterMember (by simp [sameKey])
          · intro other member
            rcases List.mem_cons.mp member with isValue | inRest
            · exact isValue ▸ alreadyMet
            · exact fun otherMet =>
                restNew other inRest (List.mem_append_left _ otherMet)
        · rintro ⟨⟨valueNew, restDistinct⟩, allNew⟩
          refine ⟨restDistinct, ?_⟩
          intro other member otherMet
          rcases List.mem_append.mp otherMet with before | isValue
          · exact allNew other (List.mem_cons_of_mem value member) before
          · have sameKey : key other = key value := by
              simpa using isValue
            exact valueNew (List.mem_map.mpr ⟨other, member, sameKey⟩)

/-- Violations that are all errors contain no error only when there are none. -/
theorem any_error_eq_false_iff
    {violations : List Violation}
    (allErrors :
      ∀ violation ∈ violations, violation.severity = .error) :
    violations.any (·.severity = .error) = false ↔ violations = [] := by
  cases violations with
  | nil =>
      simp
  | cons first rest =>
      simp [allErrors first List.mem_cons_self]

namespace Spec

/--
A topology has no errors when the four rules that can raise one find nothing.
-/
theorem hasErrors_eq_false_iff (spec : Spec) :
    spec.report.hasErrors = false ↔
      Rule.nameViolations spec = [] ∧
        Rule.uniqueNameViolations spec = [] ∧
          Rule.accountViolations spec = [] ∧
            Rule.instanceViolations spec = [] := by
  have nameErrors :
      ∀ violation ∈ Rule.nameViolations spec,
        violation.severity = .error := by
    simp only [Rule.nameViolations, List.forall_mem_map]
    exact fun _ _ => rfl
  have uniqueNameErrors :
      ∀ violation ∈ Rule.uniqueNameViolations spec,
        violation.severity = .error := by
    simp only [Rule.uniqueNameViolations, List.forall_mem_map]
    exact fun _ _ => rfl
  have accountErrors :
      ∀ violation ∈ Rule.accountViolations spec,
        violation.severity = .error := by
    simp only [Rule.accountViolations, List.forall_mem_map]
    exact fun _ _ => rfl
  have instanceErrors :
      ∀ violation ∈ Rule.instanceViolations spec,
        violation.severity = .error := by
    intro violation member
    simp only [Rule.instanceViolations] at member
    split at member
    · rw [List.mem_singleton.mp member]
      rfl
    · simp at member
  have federationWarns :
      (Rule.federationViolations spec).any (·.severity = .error) =
        false := by
    simp only [Rule.federationViolations]
    split <;> rfl
  rw [← any_error_eq_false_iff nameErrors,
    ← any_error_eq_false_iff uniqueNameErrors,
    ← any_error_eq_false_iff accountErrors,
    ← any_error_eq_false_iff instanceErrors]
  simp only [report, Report.hasErrors, Report.ofViolations, Rule.all,
    List.flatMap_cons, List.flatMap_nil, List.append_nil, List.any_append,
    Rule.violations, Bool.or_eq_false_iff, federationWarns, and_true]

/-- Declared names have pairwise distinct keys. -/
def DistinctNames (spec : Spec) : Prop :=
  (spec.declaredKeys.map Prod.fst).Nodup

/-- No name is reported as taken exactly where declared names are distinct. -/
theorem distinctNames_iff {spec : Spec} :
    Rule.uniqueNames.violations spec = [] ↔ spec.DistinctNames := by
  rw [Rule.violations, Rule.uniqueNameViolations, List.map_eq_nil_iff,
    repeats_eq_nil_iff]
  simp [DistinctNames]

/-- A topology without errors declares distinct names. -/
theorem distinctNames_of_valid
    {spec : Spec}
    (valid : spec.report.hasErrors = false) :
    spec.DistinctNames :=
  distinctNames_iff.mp ((hasErrors_eq_false_iff spec).mp valid).2.1

/-- A topology without errors has an instance if it needs one. -/
theorem instance_of_valid
    {spec : Spec}
    (valid : spec.report.hasErrors = false)
    (needed : spec.permissionSets ≠ [] ∨ spec.assignments ≠ []) :
    spec.instanceArn?.isSome = true := by
  have found := (hasErrors_eq_false_iff spec).mp valid |>.2.2.2
  by_contra missing
  rw [Bool.not_eq_true, ← Option.not_isNone, Bool.not_eq_false'] at missing
  have demanded :
      (!spec.permissionSets.isEmpty || !spec.assignments.isEmpty) =
        true := by
    simpa using needed
  simp [Rule.instanceViolations, demanded, missing] at found

namespace DistinctNames

variable {spec : Spec}

theorem groups
    (distinct : spec.DistinctNames) :
    (spec.groups.map (fun group => LogicalKey.group group.name)).Nodup := by
  simp only [DistinctNames, declaredKeys, List.map_append, List.map_map,
    List.nodup_append] at distinct
  exact distinct.1.1

theorem users
    (distinct : spec.DistinctNames) :
    (spec.users.map (fun user => LogicalKey.user user.name)).Nodup := by
  simp only [DistinctNames, declaredKeys, List.map_append, List.map_map,
    List.nodup_append] at distinct
  exact distinct.1.2.1

theorem permissionSets
    (distinct : spec.DistinctNames) :
    (spec.permissionSets.map
      (fun set => LogicalKey.permissionSet set.name)).Nodup := by
  simp only [DistinctNames, declaredKeys, List.map_append, List.map_map,
    List.nodup_append] at distinct
  exact distinct.2.1

/-- A declared group is known by its key. -/
theorem group_eq
    (distinct : spec.DistinctNames)
    {left right : Group}
    (leftDeclared : left ∈ spec.groups)
    (rightDeclared : right ∈ spec.groups)
    (sameKey :
      LogicalKey.group left.name = LogicalKey.group right.name) :
    left = right :=
  List.inj_on_of_nodup_map distinct.groups leftDeclared rightDeclared sameKey

theorem user_eq
    (distinct : spec.DistinctNames)
    {left right : User}
    (leftDeclared : left ∈ spec.users)
    (rightDeclared : right ∈ spec.users)
    (sameKey :
      LogicalKey.user left.name = LogicalKey.user right.name) :
    left = right :=
  List.inj_on_of_nodup_map distinct.users leftDeclared rightDeclared sameKey

theorem permissionSet_eq
    (distinct : spec.DistinctNames)
    {left right : PermissionSet}
    (leftDeclared : left ∈ spec.permissionSets)
    (rightDeclared : right ∈ spec.permissionSets)
    (sameKey :
      LogicalKey.permissionSet left.name =
        LogicalKey.permissionSet right.name) :
    left = right :=
  List.inj_on_of_nodup_map distinct.permissionSets
    leftDeclared rightDeclared sameKey

/-- A declared permission set is the one found under its name. -/
theorem permissionSet?_eq
    (distinct : spec.DistinctNames)
    {set : PermissionSet}
    (declared : set ∈ spec.permissionSets) :
    spec.permissionSet? set.name = some set := by
  cases found : spec.permissionSet? set.name with
  | none =>
      have absent := List.find?_eq_none.mp found set declared
      simp at absent
  | some other =>
      have otherDeclared : other ∈ spec.permissionSets :=
        List.mem_of_find?_eq_some found
      have sameName : other.name = set.name := by
        simpa using List.find?_some found
      rw [distinct.permissionSet_eq otherDeclared declared (by rw [sameName])]

end DistinctNames

end Spec

end AccessTopology
