import AccessTopology.Proofs.Topology.Resolution

namespace AccessTopology

/-!
# Topologies with the same names

The rules look at the names that a topology declares, at the accounts that it
uses and at whether it has an instance.  Two topologies that agree on these, in
whatever order, are both valid or both invalid, and declare the same principals
and permission sets.
-/

namespace Spec

/-- Two topologies declare the same names and use the same accounts. -/
structure SameNames (left right : Spec) : Prop where
  groups :
    (left.groups.map Group.name).Perm (right.groups.map Group.name)
  users :
    (left.users.map User.name).Perm (right.users.map User.name)
  permissionSets :
    (left.permissionSets.map PermissionSet.name).Perm
      (right.permissionSets.map PermissionSet.name)
  assignments :
    left.assignments.Perm right.assignments
  accounts :
    ∀ account, account ∈ left.accounts ↔ account ∈ right.accounts
  managed :
    left.identityStoreId?.isSome = right.identityStoreId?.isSome
  placed :
    left.instanceArn?.isSome = right.instanceArn?.isSome

/--
A topology is valid when its names have slugs and distinct keys, its accounts
are account ids, and it has an instance if it needs one.
-/
theorem hasErrors_eq_false_iff_forall (spec : Spec) :
    spec.report.hasErrors = false ↔
      (∀ declared ∈ spec.declaredNames, Text.slugify declared.2 ≠ "") ∧
        spec.DistinctNames ∧
          (∀ account ∈ spec.accounts, isAccountId account = true) ∧
            (spec.permissionSets = [] ∧ spec.assignments = [] ∨
              spec.instanceArn?.isSome = true) := by
  have namesSlugged :
      Rule.nameViolations spec = [] ↔
        ∀ declared ∈ spec.declaredNames, Text.slugify declared.2 ≠ "" := by
    simp [Rule.nameViolations, List.filter_eq_nil_iff]
  have keysDistinct :
      Rule.uniqueNameViolations spec = [] ↔ spec.DistinctNames :=
    distinctNames_iff
  have accountsFormed :
      Rule.accountViolations spec = [] ↔
        ∀ account ∈ spec.accounts, isAccountId account = true := by
    simp [Rule.accountViolations, List.filter_eq_nil_iff]
  have instancePresent :
      Rule.instanceViolations spec = [] ↔
        spec.permissionSets = [] ∧ spec.assignments = [] ∨
          spec.instanceArn?.isSome = true := by
    cases held : spec.instanceArn? <;>
      simp [Rule.instanceViolations, held]
  rw [hasErrors_eq_false_iff, namesSlugged, keysDistinct, accountsFormed,
    instancePresent]

namespace SameNames

variable {left right : Spec}

/-- What is made of names is permuted as the names are. -/
private theorem map_perm_of_names
    {name : α → String}
    {first second : List α}
    (names : (first.map name).Perm (second.map name))
    (image : String → β) :
    (first.map (fun value => image (name value))).Perm
      (second.map (fun value => image (name value))) := by
  have images := names.map image
  rw [List.map_map, List.map_map] at images
  exact images

theorem groupKeys_perm
    (same : left.SameNames right) :
    (left.groups.map (fun group => LogicalKey.group group.name)).Perm
      (right.groups.map (fun group => LogicalKey.group group.name)) :=
  map_perm_of_names same.groups LogicalKey.group

theorem userKeys_perm
    (same : left.SameNames right) :
    (left.users.map (fun user => LogicalKey.user user.name)).Perm
      (right.users.map (fun user => LogicalKey.user user.name)) :=
  map_perm_of_names same.users LogicalKey.user

theorem permissionSetKeys_perm
    (same : left.SameNames right) :
    (left.permissionSets.map
        (fun set => LogicalKey.permissionSet set.name)).Perm
      (right.permissionSets.map
        (fun set => LogicalKey.permissionSet set.name)) :=
  map_perm_of_names same.permissionSets LogicalKey.permissionSet

theorem declaredNames_perm
    (same : left.SameNames right) :
    left.declaredNames.Perm right.declaredNames :=
  ((map_perm_of_names same.groups _).append
    (map_perm_of_names same.users _)).append
      (map_perm_of_names same.permissionSets _)

theorem distinctNames
    (same : left.SameNames right)
    (distinct : left.DistinctNames) :
    right.DistinctNames := by
  have keys :
      (left.declaredKeys.map Prod.fst).Perm
        (right.declaredKeys.map Prod.fst) := by
    simp only [declaredKeys, List.map_append, List.map_map]
    exact (same.groupKeys_perm.append same.userKeys_perm).append
      same.permissionSetKeys_perm
  exact keys.nodup_iff.mp distinct

/-- With the same names, a valid topology makes the other one valid. -/
theorem valid_of_valid
    (same : left.SameNames right)
    (valid : left.report.hasErrors = false) :
    right.report.hasErrors = false := by
  rw [hasErrors_eq_false_iff_forall] at valid ⊢
  obtain ⟨slugged, distinct, formed, present⟩ := valid
  refine ⟨?_, ?_, ?_, ?_⟩
  · exact fun declared listed =>
      slugged declared (same.declaredNames_perm.mem_iff.mpr listed)
  · exact same.distinctNames distinct
  · exact fun account used =>
      formed account ((same.accounts account).mpr used)
  · rw [← same.placed]
    refine present.imp_left ?_
    rintro ⟨noSets, noAssignments⟩
    have rightSets := same.permissionSets
    have rightAssignments := same.assignments
    rw [noSets, List.map_nil, List.nil_perm, List.map_eq_nil_iff]
      at rightSets
    rw [noAssignments, List.nil_perm] at rightAssignments
    exact ⟨rightSets, rightAssignments⟩

theorem declares_iff
    (same : left.SameNames right)
    (kind : PrincipalKind)
    (name : String) :
    left.Declares kind name ↔ right.Declares kind name := by
  cases kind with
  | group =>
      simpa only [Declares, List.mem_map] using same.groups.mem_iff
  | user =>
      simpa only [Declares, List.mem_map] using same.users.mem_iff

theorem declaresPermissionSet_iff
    (same : left.SameNames right)
    (name : String) :
    left.DeclaresPermissionSet name ↔ right.DeclaresPermissionSet name := by
  simpa only [DeclaresPermissionSet, List.mem_map] using
    same.permissionSets.mem_iff

end SameNames

end Spec

end AccessTopology
