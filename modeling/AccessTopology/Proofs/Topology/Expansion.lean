import AccessTopology.Proofs.Topology.Declarations
import AccessTopology.Proofs.Topology.Resolution
import Mathlib.Algebra.GroupWithZero.Nat
import Mathlib.Data.List.Count

namespace AccessTopology

/-!
# How often an assignment is asked for

A permission set asks for each of its principals on each of its accounts, as
often as both are listed, and a topology asks for what its permission sets ask
for and then for what is declared on its own.  Where no name is taken twice,
assignments that bind the same have the same tags, so the first of them stands
for all.
-/

/-- What an assignment binds, whatever its tags. -/
def Assignment.binding (assignment : Assignment) : DirectAssignment :=
  { principal := assignment.principal
    principalKind := assignment.principalKind
    permissionSet := assignment.permissionSet
    account := assignment.account }

theorem Assignment.sameBinding_iff_binding_eq
    {left right : Assignment} :
    left.sameBinding right = true ↔ left.binding = right.binding := by
  simp only [sameBinding, Bool.and_eq_true, beq_iff_eq, binding,
    DirectAssignment.mk.injEq]
  constructor
  · rintro ⟨⟨⟨set, kind⟩, principal⟩, account⟩
    exact ⟨principal, kind, set, account⟩
  · rintro ⟨principal, kind, set, account⟩
    exact ⟨⟨⟨set, kind⟩, principal⟩, account⟩

namespace PermissionSet

/-- The names of the principals of a kind that hold a permission set. -/
def holders (set : PermissionSet) : PrincipalKind → List String
  | .group => set.groups
  | .user => set.users

/-- How often a permission set lists both the account and the principal. -/
def timesListed
    (set : PermissionSet)
    (binding : DirectAssignment) :
    Nat :=
  set.accounts.count binding.account *
    (set.holders binding.principalKind).count binding.principal

/-- A principal is listed as often as its kind's list has its name. -/
theorem count_principals
    (set : PermissionSet)
    (kind : PrincipalKind)
    (principal : String) :
    set.principals.count (kind, principal) =
      (set.holders kind).count principal := by
  have own :
      ∀ (kind : PrincipalKind) (names : List String),
        (names.map (Prod.mk kind)).count (kind, principal) =
          names.count principal :=
    fun kind names =>
      List.count_map_of_injective names (Prod.mk kind)
        (fun _ _ same => (Prod.mk.inj same).2) principal
  have other :
      ∀ (otherKind : PrincipalKind) (names : List String),
        kind ≠ otherKind →
          (names.map (Prod.mk otherKind)).count (kind, principal) = 0 := by
    intro otherKind names differ
    refine List.count_eq_zero.mpr ?_
    intro listed
    obtain ⟨name, _, same⟩ := List.mem_map.mp listed
    exact differ (Prod.mk.inj same).1.symm
  rw [principals, List.count_append]
  cases kind with
  | group =>
      rw [own, other .user set.users nofun]
      rfl
  | user =>
      rw [own, other .group set.groups nofun, Nat.zero_add]
      rfl

/-- What a permission set binds for one of its principals. -/
def bindingsOf
    (set : PermissionSet)
    (holder : PrincipalKind × String) :
    List DirectAssignment :=
  set.accounts.map
    (fun account => ⟨holder.2, holder.1, set.name, account⟩)

theorem map_binding_assignments (set : PermissionSet) :
    set.assignments.map Assignment.binding =
      set.principals.flatMap set.bindingsOf := by
  rw [assignments, List.map_flatMap]
  refine List.flatMap_congr ?_
  intro holder _
  rw [List.map_map]
  rfl

/-- A principal of a permission set has a binding as often as it lists the account. -/
theorem count_bindingsOf
    (set : PermissionSet)
    (holder : PrincipalKind × String)
    (binding : DirectAssignment) :
    (set.bindingsOf holder).count binding =
      if set.name = binding.permissionSet ∧
          holder = (binding.principalKind, binding.principal) then
        set.accounts.count binding.account
      else 0 := by
  split
  · rename_i same
    obtain ⟨sameSet, rfl⟩ := same
    have isBinding :
        binding =
          ⟨binding.principal, binding.principalKind, set.name,
            binding.account⟩ := by
      rw [sameSet]
    rw [isBinding]
    exact List.count_map_of_injective set.accounts _
      (fun _ _ same => (DirectAssignment.mk.inj same).2.2.2)
      binding.account
  · rename_i differs
    refine List.count_eq_zero.mpr ?_
    intro listed
    obtain ⟨account, _, rfl⟩ := List.mem_map.mp listed
    exact differs ⟨rfl, rfl⟩

/-- A permission set asks for bindings of its own name, as often as it lists them. -/
theorem count_assignments
    (set : PermissionSet)
    (binding : DirectAssignment) :
    (set.assignments.map Assignment.binding).count binding =
      if set.name = binding.permissionSet then set.timesListed binding
      else 0 := by
  have counted :
      ∀ principals : List (PrincipalKind × String),
        (principals.flatMap set.bindingsOf).count binding =
          if set.name = binding.permissionSet then
            principals.count (binding.principalKind, binding.principal) *
              set.accounts.count binding.account
          else 0 := by
    intro principals
    induction principals with
    | nil =>
        simp
    | cons first rest inductionHypothesis =>
        rw [List.flatMap_cons, List.count_append, inductionHypothesis,
          count_bindingsOf]
        by_cases sameSet : set.name = binding.permissionSet
        · by_cases samePrincipal :
              first = (binding.principalKind, binding.principal)
          · simp [sameSet, samePrincipal, Nat.add_mul, Nat.add_comm]
          · simp [sameSet, samePrincipal]
        · simp [sameSet]
  rw [map_binding_assignments, counted, count_principals, timesListed,
    Nat.mul_comm]

end PermissionSet

namespace Spec

/-- How often the permission sets of a binding's name list it. -/
def timesListed
    (spec : Spec)
    (binding : DirectAssignment) :
    Nat :=
  ((spec.permissionSets.filter (·.name = binding.permissionSet)).map
    (fun set => set.timesListed binding)).sum

/-- The permission sets of a topology ask for a binding as often as they list it. -/
theorem count_permissionSets
    (spec : Spec)
    (binding : DirectAssignment) :
    ((spec.permissionSets.flatMap PermissionSet.assignments).map
        Assignment.binding).count binding =
      spec.timesListed binding := by
  rw [timesListed]
  induction spec.permissionSets with
  | nil =>
      rfl
  | cons set rest inductionHypothesis =>
      rw [List.flatMap_cons, List.map_append, List.count_append,
        inductionHypothesis, PermissionSet.count_assignments]
      by_cases named : set.name = binding.permissionSet
      · simp [named]
      · simp [named]

/-- An assignment has the tags of the declared permission set that it names, or none. -/
structure TagsFollow (spec : Spec) (assignment : Assignment) : Prop where
  declared :
    ∀ set ∈ spec.permissionSets,
      set.name = assignment.permissionSet → assignment.tags = set.tags
  undeclared :
    ¬spec.DeclaresPermissionSet assignment.permissionSet →
      assignment.tags = .empty

variable {spec : Spec}

theorem tagsFollow_of_mem_expandAssignments
    (distinct : spec.DistinctNames)
    {assignment : Assignment}
    (asked : assignment ∈ spec.expandAssignments) :
    spec.TagsFollow assignment := by
  have given := tags_of_mem_expandAssignments distinct asked
  constructor
  · intro set declared named
    rw [given, ← named, distinct.permissionSet?_eq declared]
    rfl
  · intro undeclared
    rw [given, permissionSet?_eq_none undeclared]
    rfl

/-- Assignments of a topology that bind the same are the same, tags included. -/
theorem eq_of_binding_eq
    (distinct : spec.DistinctNames)
    {left right : Assignment}
    (leftAsked : left ∈ spec.expandAssignments)
    (rightAsked : right ∈ spec.expandAssignments)
    (same : left.binding = right.binding) :
    left = right := by
  have sameIdentity :
      (Declaration.assignment left).identity =
        (Declaration.assignment right).identity :=
    Assignment.sameBinding_iff.mp
      (Assignment.sameBinding_iff_binding_eq.mpr same)
  exact Declaration.assignment.inj
    (eq_of_identity_eq distinct leftAsked rightAsked sameIdentity)

/-- Assignments that bind the same are alike, so the first of them stands for all. -/
structure FirstStandsForAll (spec : Spec) : Prop where
  tagged :
    ∀ assignment ∈ spec.expandAssignments, spec.TagsFollow assignment
  alike :
    ∀ left ∈ spec.expandAssignments,
      ∀ right ∈ spec.expandAssignments,
        left.binding = right.binding → left.tags = right.tags
  nothingLost :
    ∀ assignment,
      assignment ∈ dropRepeats Assignment.binding spec.expandAssignments ↔
        assignment ∈ spec.expandAssignments

theorem firstStandsForAll_of_distinctNames
    (distinct : spec.DistinctNames) :
    spec.FirstStandsForAll := by
  have same :
      ∀ left ∈ spec.expandAssignments,
        ∀ right ∈ spec.expandAssignments,
          left.binding = right.binding → left = right :=
    fun _ leftAsked _ rightAsked sameBinding =>
      eq_of_binding_eq distinct leftAsked rightAsked sameBinding
  refine
    { tagged := fun _ asked =>
        tagsFollow_of_mem_expandAssignments distinct asked
      alike := ?_
      nothingLost := fun _ => mem_dropRepeats same }
  intro left leftAsked right rightAsked sameBinding
  rw [same left leftAsked right rightAsked sameBinding]

end Spec

namespace Stage

/--
The stage of assignments takes the steps that it takes without repeats: keys
are never met twice, so the one that is met with a key is the one that binds
the same, if any does.
-/
theorem assignmentStepsAfter_dropRepeatsAfter
    (scope : Scope)
    (observations : Observations)
    (instanceArn : String)
    {met : List Assignment}
    (keysDiffer : (met.map Assignment.key).Nodup)
    (rest : List Assignment) :
    assignmentStepsAfter scope observations instanceArn met
        (dropRepeatsAfter Assignment.binding (met.map Assignment.binding)
          rest) =
      assignmentStepsAfter scope observations instanceArn met rest := by
  induction rest generalizing met with
  | nil =>
      rfl
  | cons assignment rest inductionHypothesis =>
      by_cases alreadyMet :
          assignment.binding ∈ met.map Assignment.binding
      · obtain ⟨earlier, earlierMet, sameBinding⟩ :=
          List.mem_map.mp alreadyMet
        have bindsSame : earlier.sameBinding assignment = true :=
          Assignment.sameBinding_iff_binding_eq.mpr sameBinding
        have sameKey : earlier.key = assignment.key :=
          Assignment.key_eq_of_identity_eq
            (Assignment.sameBinding_iff.mp bindsSame)
        have found :
            met.find? (fun other => other.key = assignment.key) =
              some earlier := by
          rw [← sameKey]
          exact find?_eq_some_of_nodup keysDiffer earlierMet
        rw [dropRepeatsAfter_cons_of_met alreadyMet,
          inductionHypothesis keysDiffer, assignmentStepsAfter, found]
        simp [bindsSame]
      · rw [dropRepeatsAfter_cons_of_new alreadyMet, assignmentStepsAfter,
          assignmentStepsAfter]
        cases outcome :
            met.find? (fun other => other.key = assignment.key) with
        | none =>
            have keyNew : assignment.key ∉ met.map Assignment.key := by
              intro listed
              obtain ⟨other, otherMet, sameKey⟩ := List.mem_map.mp listed
              have differs := List.find?_eq_none.mp outcome other otherMet
              simp [sameKey] at differs
            have keysStillDiffer :
                ((met ++ [assignment]).map Assignment.key).Nodup := by
              rw [List.map_append, List.map_singleton,
                ← List.concat_eq_append]
              exact keysDiffer.concat keyNew
            have later := inductionHypothesis keysStillDiffer
            rw [List.map_append, List.map_singleton] at later
            rw [later]
        | some earlier =>
            have differs : ¬earlier.sameBinding assignment = true := by
              intro same
              apply alreadyMet
              rw [← Assignment.sameBinding_iff_binding_eq.mp same]
              exact List.mem_map_of_mem (List.mem_of_find?_eq_some outcome)
            simp [differs]

end Stage

namespace Spec

/-- How a topology's assignments are listed, and which of them are drafted. -/
structure ExpandsAsDeclared (spec : Spec) : Prop where
  counted :
    ∀ binding,
      (spec.expandAssignments.map Assignment.binding).count binding =
        spec.timesListed binding + spec.assignments.count binding
  ordered :
    ∃ expanded direct,
      spec.expandAssignments = expanded ++ direct ∧
        (∀ binding,
          (expanded.map Assignment.binding).count binding =
            spec.timesListed binding) ∧
          direct.map Assignment.binding = spec.assignments
  keptOnce :
    ∀ scope observations instanceArn,
      Stage.assignmentStepsAfter scope observations instanceArn []
          (dropRepeats Assignment.binding spec.expandAssignments) =
        Stage.assignmentStepsAfter scope observations instanceArn []
          spec.expandAssignments
  collapsible :
    Rule.uniqueNames.violations spec = [] → spec.FirstStandsForAll

/--
A topology asks for a binding once for every time that a permission set of its
name lists both its account and its principal, and then once for every time
that it is declared on its own.  Where no name is taken twice, all assignments
that bind the same have the tags of the permission set that they name, and the
first of each, which is the one that is drafted, stands for all.
-/
theorem expansion_is_declared_product (spec : Spec) :
    spec.ExpandsAsDeclared := by
  have ordered :
      ∃ expanded direct,
        spec.expandAssignments = expanded ++ direct ∧
          (∀ binding,
            (expanded.map Assignment.binding).count binding =
              spec.timesListed binding) ∧
            direct.map Assignment.binding = spec.assignments := by
    refine ⟨_, _, rfl, spec.count_permissionSets, ?_⟩
    rw [List.map_map]
    exact List.map_id' spec.assignments
  refine
    { counted := ?_
      ordered := ordered
      keptOnce := ?_
      collapsible := ?_ }
  · obtain ⟨expanded, direct, shape, expandedCount, directBindings⟩ := ordered
    intro binding
    rw [shape, List.map_append, List.count_append, expandedCount,
      directBindings]
  · intro scope observations instanceArn
    have nothingMet : (([] : List Assignment).map Assignment.key).Nodup :=
      List.nodup_nil
    rw [← dropRepeatsAfter_nil]
    exact Stage.assignmentStepsAfter_dropRepeatsAfter scope observations
      instanceArn nothingMet spec.expandAssignments
  · intro noneTaken
    exact firstStandsForAll_of_distinctNames (distinctNames_iff.mp noneTaken)

/-- A topology that asks for one binding three times, in all. -/
def repetitive : Spec :=
  { groups := [{ name := "Ops" }]
    permissionSets :=
      [{ name := "Admin"
         tags := .ofList [("team", "security")]
         accounts := ["111111111111", "222222222222"]
         groups := ["Ops", "Ops"]
         users := ["Ops"] }]
    assignments :=
      [⟨"Ops", .group, "Admin", "111111111111"⟩,
        ⟨"Ops", .group, "Auditor", "111111111111"⟩] }

theorem expansion_is_declared_product_sample :
    (repetitive.expandAssignments.map Assignment.binding).count
          ⟨"Ops", .group, "Admin", "111111111111"⟩ =
        3 ∧
      ∀ assignment ∈ repetitive.expandAssignments,
        repetitive.TagsFollow assignment := by
  refine ⟨?_, ?_⟩
  · rw [(expansion_is_declared_product repetitive).counted]
    decide
  · exact
      ((expansion_is_declared_product repetitive).collapsible
        (by decide +kernel)).tagged

end Spec

end AccessTopology
