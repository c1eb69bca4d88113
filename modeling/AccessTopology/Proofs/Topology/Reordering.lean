import AccessTopology.Proofs.Topology.Identities
import Mathlib.Data.Multiset.MapFold

namespace AccessTopology

/-!
# Topologies in another order

The lists of a topology, and the lists inside its declarations, may be written
in another order.  Where declared names are distinct the reordered topology asks
for the same declarations, up to the order inside them, which no draft shows.
-/

/-- A user whose groups are listed in another order. -/
structure User.Reordered (left right : User) : Prop where
  groups : left.groups.Perm right.groups
  rest : { left with groups := right.groups } = right

/-- A permission set whose lists are in another order. -/
structure PermissionSet.Reordered (left right : PermissionSet) : Prop where
  managedPolicies : left.managedPolicies.Perm right.managedPolicies
  customerPolicies : left.customerPolicies.Perm right.customerPolicies
  accounts : left.accounts.Perm right.accounts
  groups : left.groups.Perm right.groups
  users : left.users.Perm right.users
  rest :
    { left with
      managedPolicies := right.managedPolicies
      customerPolicies := right.customerPolicies
      accounts := right.accounts
      groups := right.groups
      users := right.users } = right

/--
A topology whose lists, and the lists inside its declarations, are in another
order.
-/
structure Spec.Reordered (left right : Spec) : Prop where
  groups : left.groups.Perm right.groups
  users :
    Multiset.Rel User.Reordered
      (left.users : Multiset User) (right.users : Multiset User)
  permissionSets :
    Multiset.Rel PermissionSet.Reordered
      (left.permissionSets : Multiset PermissionSet)
      (right.permissionSets : Multiset PermissionSet)
  assignments : left.assignments.Perm right.assignments
  rest :
    { left with
      groups := right.groups
      users := right.users
      permissionSets := right.permissionSets
      assignments := right.assignments } = right

/-- Lists of related members have the same images where related members do. -/
theorem perm_map_of_rel
    {related : α → α → Prop}
    {left right : List α}
    (rel :
      Multiset.Rel related (left : Multiset α) (right : Multiset α))
    {image : α → β}
    (same : ∀ first second, related first second →
      image first = image second) :
    (left.map image).Perm (right.map image) := by
  have sameImages :
      Multiset.Rel Eq
        ((left : Multiset α).map image) ((right : Multiset α).map image) :=
    Multiset.rel_map.mpr
      (rel.mono fun first _ second _ => same first second)
  exact Multiset.coe_eq_coe.mp (Multiset.rel_eq.mp sameImages)

namespace User.Reordered

variable {left right : User}

theorem symm (reordered : left.Reordered right) : right.Reordered left where
  groups := reordered.groups.symm
  rest := by
    calc
      { right with groups := left.groups } =
          { ({ left with groups := right.groups } : User) with
            groups := left.groups } := by
        rw [reordered.rest]
      _ = left := rfl

theorem name_eq (reordered : left.Reordered right) : left.name = right.name := by
  rw [← reordered.rest]

end User.Reordered

namespace PermissionSet.Reordered

variable {left right : PermissionSet}

theorem symm (reordered : left.Reordered right) : right.Reordered left where
  managedPolicies := reordered.managedPolicies.symm
  customerPolicies := reordered.customerPolicies.symm
  accounts := reordered.accounts.symm
  groups := reordered.groups.symm
  users := reordered.users.symm
  rest := by
    cases left
    cases right
    have rest := reordered.rest
    simp only [PermissionSet.mk.injEq] at rest ⊢
    simp [rest]

theorem name_eq (reordered : left.Reordered right) : left.name = right.name := by
  rw [← reordered.rest]

theorem tags_eq (reordered : left.Reordered right) : left.tags = right.tags := by
  rw [← reordered.rest]

theorem inlinePolicyText?_eq
    (reordered : left.Reordered right) :
    left.inlinePolicyText? = right.inlinePolicyText? := by
  rw [← reordered.rest]
  rfl

theorem principals_perm
    (reordered : left.Reordered right) :
    left.principals.Perm right.principals :=
  (reordered.groups.map _).append (reordered.users.map _)

end PermissionSet.Reordered

/-- A binding of a permission set has one of its principals and accounts. -/
theorem PermissionSet.mem_assignments_iff
    {set : PermissionSet}
    {binding : Assignment} :
    binding ∈ set.assignments ↔
      binding.permissionSet = set.name ∧
        (binding.principalKind, binding.principal) ∈ set.principals ∧
          binding.account ∈ set.accounts ∧
            binding.tags = set.tags := by
  rw [assignments, List.mem_flatMap]
  constructor
  · rintro ⟨principal, held, onAccount⟩
    obtain ⟨account, used, rfl⟩ := List.mem_map.mp onAccount
    exact ⟨rfl, held, used, rfl⟩
  · rintro ⟨sameSet, held, used, sameTags⟩
    refine ⟨_, held, List.mem_map.mpr ⟨binding.account, used, ?_⟩⟩
    cases binding
    simp_all

namespace Declaration

/-- A declaration of a topology and the same of a reordered topology. -/
inductive Reordered : Declaration → Declaration → Prop
  | group (declared : Group) :
      Reordered (.group declared) (.group declared)
  | user
      {left right : User} :
      left.Reordered right →
        Reordered (.user left) (.user right)
  | membership (member container : String) :
      Reordered (.membership member container)
        (.membership member container)
  | permissionSet
      {left right : PermissionSet} :
      left.Reordered right →
        Reordered (.permissionSet left) (.permissionSet right)
  | inlinePolicy
      {left right : PermissionSet}
      (document : String) :
      left.Reordered right →
        Reordered (.inlinePolicy left document)
          (.inlinePolicy right document)
  | managedPolicy
      {left right : PermissionSet}
      (arn : String) :
      left.Reordered right →
        Reordered (.managedPolicy left arn) (.managedPolicy right arn)
  | customerPolicy
      {left right : PermissionSet}
      (policy : CustomerPolicy) :
      left.Reordered right →
        Reordered (.customerPolicy left policy)
          (.customerPolicy right policy)
  | assignment (binding : Assignment) :
      Reordered (.assignment binding) (.assignment binding)

namespace Reordered

variable {left right : Declaration}

/-- The order inside a declaration is no part of its identity. -/
theorem identity_eq
    (reordered : left.Reordered right) :
    left.identity = right.identity := by
  cases reordered with
  | group | membership | assignment =>
      rfl
  | user same =>
      rw [identity, identity, same.name_eq]
  | permissionSet same | inlinePolicy _ same | managedPolicy _ same
  | customerPolicy _ same =>
      rw [identity, identity, same.name_eq]

/-- The draft of a declaration shows neither its order nor the topology's. -/
theorem draftWith_eq
    (reordered : left.Reordered right)
    (scope : Scope)
    (spec : Spec)
    (observations : Observations)
    (home : String)
    (references : List (String × Reference)) :
    left.draftWith scope observations home references =
      right.draftWith { scope with spec := spec } observations home
        references := by
  cases reordered with
  | group | membership | assignment =>
      rfl
  | user same =>
      rw [← same.rest]
      rfl
  | permissionSet same | inlinePolicy _ same | managedPolicy _ same
  | customerPolicy _ same =>
      rw [← same.rest]
      rfl

theorem compiled_eq
    (reordered : left.Reordered right)
    {scope : Scope}
    {spec : Spec}
    (sameNames : scope.SameNames { scope with spec := spec })
    (observations : Observations) :
    left.compiled scope observations =
      right.compiled { scope with spec := spec } observations := by
  have sameKind : left.kind = right.kind := by
    rw [← left.kind_identity, reordered.identity_eq, right.kind_identity]
  have sameReferences :
      left.references scope =
        right.references { scope with spec := spec } := by
    rw [← left.references_identity, reordered.identity_eq,
      sameNames.references_eq, right.references_identity]
  have sameHome :
      scope.home left.kind.service =
        Scope.home { scope with spec := spec } right.kind.service := by
    rw [sameKind]
    cases right.kind.service <;> rfl
  rw [compiled, compiled, sameReferences, sameHome]
  exact reordered.draftWith_eq scope spec observations _ _

end Reordered

end Declaration

namespace Spec.Reordered

variable {left right : Spec}

theorem symm (reordered : left.Reordered right) : right.Reordered left where
  groups := reordered.groups.symm
  users :=
    Multiset.rel_flip.mp
      (reordered.users.mono fun _ _ _ _ same => same.symm)
  permissionSets :=
    Multiset.rel_flip.mp
      (reordered.permissionSets.mono fun _ _ _ _ same => same.symm)
  assignments := reordered.assignments.symm
  rest := by
    cases left
    cases right
    have rest := reordered.rest
    simp only [Spec.mk.injEq] at rest ⊢
    simp [rest]

theorem exists_user
    (reordered : left.Reordered right)
    {user : User}
    (declared : user ∈ left.users) :
    ∃ other ∈ right.users, user.Reordered other :=
  Multiset.exists_mem_of_rel_of_mem reordered.users declared

theorem exists_permissionSet
    (reordered : left.Reordered right)
    {set : PermissionSet}
    (declared : set ∈ left.permissionSets) :
    ∃ other ∈ right.permissionSets, set.Reordered other :=
  Multiset.exists_mem_of_rel_of_mem reordered.permissionSets declared

private theorem mem_accounts
    (reordered : left.Reordered right)
    {account : String}
    (used : account ∈ left.accounts) :
    account ∈ right.accounts := by
  rw [accounts, List.mem_append, List.mem_flatMap] at used ⊢
  rcases used with ⟨set, declared, held⟩ | direct
  · obtain ⟨other, otherDeclared, same⟩ :=
      reordered.exists_permissionSet declared
    exact .inl ⟨other, otherDeclared, same.accounts.mem_iff.mp held⟩
  · exact .inr ((reordered.assignments.map _).mem_iff.mp direct)

/-- A reordered topology has the same names. -/
theorem sameNames
    (reordered : left.Reordered right) :
    left.SameNames right where
  groups := reordered.groups.map Group.name
  users := perm_map_of_rel reordered.users fun _ _ same => same.name_eq
  permissionSets :=
    perm_map_of_rel reordered.permissionSets fun _ _ same => same.name_eq
  assignments := reordered.assignments
  accounts := fun _ => ⟨reordered.mem_accounts, reordered.symm.mem_accounts⟩
  managed := by
    rw [← reordered.rest]
    rfl
  placed := by
    rw [← reordered.rest]
    rfl

/-- The tags under a name are found whatever the order. -/
private theorem tags_of_found
    (reordered : left.Reordered right)
    (distinct : right.DistinctNames)
    {name : String}
    {tags : TagMap}
    (found :
      (left.permissionSet? name).map PermissionSet.tags = some tags) :
    (right.permissionSet? name).map PermissionSet.tags = some tags := by
  obtain ⟨set, isFirst, rfl⟩ := Option.map_eq_some_iff.mp found
  have named : set.name = name := by
    simpa using List.find?_some isFirst
  obtain ⟨other, declared, same⟩ :=
    reordered.exists_permissionSet (List.mem_of_find?_eq_some isFirst)
  rw [← named, same.name_eq, distinct.permissionSet?_eq declared,
    Option.map_some, same.tags_eq]

/-- Where declared names are distinct, the order does not change what is asked. -/
theorem mem_expandAssignments
    (reordered : left.Reordered right)
    (distinct : left.DistinctNames)
    {binding : Assignment}
    (asked : binding ∈ left.expandAssignments) :
    binding ∈ right.expandAssignments := by
  have rightDistinct : right.DistinctNames :=
    reordered.sameNames.distinctNames distinct
  rw [expandAssignments, List.mem_append] at asked ⊢
  rcases asked with expanded | direct
  · obtain ⟨set, declared, held⟩ := List.mem_flatMap.mp expanded
    obtain ⟨other, otherDeclared, same⟩ :=
      reordered.exists_permissionSet declared
    refine .inl (List.mem_flatMap.mpr ⟨other, otherDeclared, ?_⟩)
    rw [PermissionSet.mem_assignments_iff] at held ⊢
    rw [← same.name_eq, ← same.tags_eq, ← same.principals_perm.mem_iff,
      ← same.accounts.mem_iff]
    exact held
  · obtain ⟨declared, listed, rfl⟩ := List.mem_map.mp direct
    refine .inr (List.mem_map.mpr
      ⟨declared, reordered.assignments.mem_iff.mp listed, ?_⟩)
    -- The tags are those of the first set of the name, which is the only one.
    have sameTags :
        (right.permissionSet? declared.permissionSet).map
            PermissionSet.tags =
          (left.permissionSet? declared.permissionSet).map
            PermissionSet.tags :=
      Option.ext fun _ =>
        ⟨reordered.symm.tags_of_found distinct,
          reordered.tags_of_found rightDistinct⟩
    rw [DirectAssignment.toAssignment, DirectAssignment.toAssignment,
      sameTags]

/--
Where declared names are distinct, a reordered topology asks for the same
declarations, up to the order inside them.
-/
theorem exists_asked
    (reordered : left.Reordered right)
    (distinct : left.DistinctNames)
    {declaration : Declaration}
    (asked : left.Asks declaration) :
    ∃ other, right.Asks other ∧ declaration.Reordered other := by
  cases declaration with
  | group declared =>
      exact ⟨.group declared, reordered.groups.mem_iff.mp asked,
        .group declared⟩
  | user declared =>
      obtain ⟨other, otherDeclared, same⟩ := reordered.exists_user asked
      exact ⟨.user other, otherDeclared, .user same⟩
  | membership member container =>
      obtain ⟨user, declared, named, listed⟩ := asked
      obtain ⟨other, otherDeclared, same⟩ := reordered.exists_user declared
      refine ⟨.membership member container,
        ⟨other, otherDeclared, ?_, ?_⟩, .membership member container⟩
      · rw [← same.name_eq, named]
      · exact same.groups.mem_iff.mp listed
  | permissionSet set =>
      obtain ⟨other, otherDeclared, same⟩ :=
        reordered.exists_permissionSet asked
      exact ⟨.permissionSet other, otherDeclared, .permissionSet same⟩
  | inlinePolicy set document =>
      obtain ⟨other, otherDeclared, same⟩ :=
        reordered.exists_permissionSet asked.1
      refine ⟨.inlinePolicy other document, ⟨otherDeclared, ?_⟩,
        .inlinePolicy document same⟩
      rw [← same.inlinePolicyText?_eq, asked.2]
  | managedPolicy set arn =>
      obtain ⟨other, otherDeclared, same⟩ :=
        reordered.exists_permissionSet asked.1
      exact ⟨.managedPolicy other arn,
        ⟨otherDeclared, same.managedPolicies.mem_iff.mp asked.2⟩,
        .managedPolicy arn same⟩
  | customerPolicy set policy =>
      obtain ⟨other, otherDeclared, same⟩ :=
        reordered.exists_permissionSet asked.1
      exact ⟨.customerPolicy other policy,
        ⟨otherDeclared, same.customerPolicies.mem_iff.mp asked.2⟩,
        .customerPolicy policy same⟩
  | assignment binding =>
      exact ⟨.assignment binding,
        reordered.mem_expandAssignments distinct asked,
        .assignment binding⟩

theorem exists_declaration
    (reordered : left.Reordered right)
    (distinct : left.DistinctNames)
    {declaration : Declaration}
    (listed : declaration ∈ left.declarations) :
    ∃ other ∈ right.declarations, declaration.Reordered other := by
  obtain ⟨managed, asked⟩ := mem_declarations_iff.mp listed
  obtain ⟨other, otherAsked, same⟩ := reordered.exists_asked distinct asked
  refine ⟨other, mem_declarations_iff.mpr ⟨?_, otherAsked⟩, same⟩
  rw [← reordered.sameNames.managed, ← other.kind_identity,
    ← same.identity_eq, declaration.kind_identity]
  exact managed

theorem identities_subset
    (reordered : left.Reordered right)
    (distinct : left.DistinctNames) :
    left.identities ⊆ right.identities := by
  intro identity listed
  obtain ⟨declaration, declared, rfl⟩ := List.mem_map.mp listed
  obtain ⟨other, otherDeclared, same⟩ :=
    reordered.exists_declaration distinct declared
  exact List.mem_map.mpr ⟨other, otherDeclared, same.identity_eq.symm⟩

end Spec.Reordered

/-- The user with the groups listed the other way round. -/
def User.reversed (user : User) : User :=
  { user with groups := user.groups.reverse }

/-- The permission set with all of its lists the other way round. -/
def PermissionSet.reversed (set : PermissionSet) : PermissionSet :=
  { set with
    managedPolicies := set.managedPolicies.reverse
    customerPolicies := set.customerPolicies.reverse
    accounts := set.accounts.reverse
    groups := set.groups.reverse
    users := set.users.reverse }

/-- The topology with all lists the other way round, also inside declarations. -/
def Spec.reversed (spec : Spec) : Spec :=
  { spec with
    groups := spec.groups.reverse
    users := (spec.users.map User.reversed).reverse
    permissionSets :=
      (spec.permissionSets.map PermissionSet.reversed).reverse
    assignments := spec.assignments.reverse }

theorem User.reordered_reversed (user : User) :
    user.Reordered user.reversed where
  groups := user.groups.reverse_perm.symm
  rest := rfl

theorem PermissionSet.reordered_reversed (set : PermissionSet) :
    set.Reordered set.reversed where
  managedPolicies := set.managedPolicies.reverse_perm.symm
  customerPolicies := set.customerPolicies.reverse_perm.symm
  accounts := set.accounts.reverse_perm.symm
  groups := set.groups.reverse_perm.symm
  users := set.users.reverse_perm.symm
  rest := rfl

theorem Spec.reordered_reversed (spec : Spec) :
    spec.Reordered spec.reversed where
  groups := spec.groups.reverse_perm.symm
  users := by
    rw [reversed, Multiset.coe_reverse, ← Multiset.map_coe,
      Multiset.rel_map_right]
    exact Multiset.rel_refl_of_refl_on
      fun user _ => user.reordered_reversed
  permissionSets := by
    rw [reversed, Multiset.coe_reverse, ← Multiset.map_coe,
      Multiset.rel_map_right]
    exact Multiset.rel_refl_of_refl_on
      fun set _ => set.reordered_reversed
  assignments := spec.assignments.reverse_perm.symm
  rest := rfl

end AccessTopology
