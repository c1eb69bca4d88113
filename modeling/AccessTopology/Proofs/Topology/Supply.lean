import AccessTopology.Proofs.SupplyOrder
import AccessTopology.Proofs.Topology.Pass

namespace AccessTopology

/-!
# What references demand

The name of a reference tells what it may hold: a literal of the right form, or
the identifier of a draft of the right kind.  A topology writes its
declarations in an order in which whatever a declaration refers to was declared
before it.
-/

/-- The values that a reference of some name may hold on its own. -/
inductive Reference.LiteralFor : (name value : String) → Prop
  | group {value : String} :
      isPrincipalId value = true → LiteralFor "groupId" value
  | principal {value : String} :
      isPrincipalId value = true → LiteralFor "principalId" value
  | permissionSet {value : String} :
      isPermissionSetArn value = true →
        LiteralFor "permissionSetArn" value

/-- The kinds of draft that a reference of some name may point at. -/
inductive Draft.Demands
    (draft : Draft) :
    (name : String) → ResourceKind → Prop
  | group : Demands draft "groupId" .group
  | member : Demands draft "memberId" .user
  | principal (kind : PrincipalKind) :
      draft.forProvider.get? "principalType" = some (.string kind.name) →
        Demands draft "principalId" kind.resourceKind
  | permissionSet : Demands draft "permissionSetArn" .permissionSet

namespace Declaration

/--
A reference of a declaration's draft holds a literal, or points at an
identifier of a declaration among some others.
-/
inductive Supplies
    (others : List Declaration)
    (draft : Draft)
    (name : String) :
    Reference → Prop
  | literal {value : String} :
      Reference.LiteralFor name value →
        Supplies others draft name (.external value)
  | declared (target : Declaration) (field : String) :
      target ∈ others →
      draft.Demands name target.kind →
      target.kind.identifierField? = some field →
        Supplies others draft name (.draft target.key field)

theorem Supplies.mono
    {smaller larger : List Declaration}
    {draft : Draft}
    {name : String}
    {reference : Reference}
    (supplies : Supplies smaller draft name reference)
    (subset : smaller ⊆ larger) :
    Supplies larger draft name reference := by
  cases supplies with
  | literal isLiteral =>
      exact .literal isLiteral
  | declared target field listed demands identifies =>
      exact .declared target field (subset listed) demands identifies

/-- Every reference of a declaration's draft is supplied by some others. -/
def SuppliedBy
    (scope : Scope)
    (observations : Observations)
    (others : List Declaration)
    (declaration : Declaration) :
    Prop :=
  ∀ references,
    declaration.HasReferences scope references →
      ∀ reference ∈ references,
        Supplies others (declaration.compiled scope observations)
          reference.1 reference.2

variable {scope : Scope} {observations : Observations}
  {others : List Declaration}

theorem suppliedBy_of_no_references
    {declaration : Declaration}
    (noReferences :
      ∀ references,
        declaration.HasReferences scope references → references = []) :
    declaration.SuppliedBy scope observations others := by
  intro references needed reference listed
  rw [noReferences references needed] at listed
  cases listed

theorem suppliedBy_of_attachment
    {declaration : Declaration}
    {set : PermissionSet}
    (attached :
      ∀ references,
        declaration.HasReferences scope references →
          references = attachmentReferences set)
    (setDeclared : .permissionSet set ∈ others) :
    declaration.SuppliedBy scope observations others := by
  intro references needed reference listed
  rw [attached references needed] at listed
  rw [List.mem_singleton.mp listed]
  exact .declared (.permissionSet set) "arn" setDeclared .permissionSet rfl

theorem suppliedBy_of_membership
    {user : User}
    {container : String}
    (userDeclared : .user user ∈ others)
    (groupsDeclared :
      ∀ group ∈ scope.spec.groups, .group group ∈ others) :
    (membership user.name container).SuppliedBy scope observations
      others := by
  rintro _ ⟨containerReference, stands, rfl⟩ reference listed
  rcases List.mem_cons.mp listed with isContainer | isMember
  · rw [isContainer]
    cases stands with
    | drafted drafted =>
        obtain ⟨group, declared, named⟩ := drafted.1
        subst named
        exact .declared (.group group) "groupId"
          (groupsDeclared group declared) .group rfl
    | literal _ isId =>
        exact .literal (.group isId)
  · rw [List.mem_singleton.mp isMember]
    exact .declared (.user user) "userId" userDeclared .member rfl

/-- A declared principal is the declaration of a group or of a user. -/
theorem exists_of_declares
    {spec : Spec}
    {kind : PrincipalKind}
    {name : String}
    (declared : spec.Declares kind name) :
    ∃ declaration : Declaration,
      spec.Asks declaration ∧
        declaration.kind.service = .identityStore ∧
          declaration.key = .principal kind name ∧
            declaration.kind = kind.resourceKind := by
  cases kind with
  | group =>
      obtain ⟨group, listed, rfl⟩ := declared
      exact ⟨.group group, listed, rfl, rfl, rfl⟩
  | user =>
      obtain ⟨user, listed, rfl⟩ := declared
      exact ⟨.user user, listed, rfl, rfl, rfl⟩

theorem suppliedBy_of_assignment
    {binding : Assignment}
    (principalsDeclared :
      ∀ declaration : Declaration,
        declaration.kind.service = .identityStore →
        scope.managesPrincipals = true →
        scope.spec.Asks declaration →
          declaration ∈ others)
    (setsDeclared :
      ∀ set ∈ scope.spec.permissionSets,
        .permissionSet set ∈ others) :
    (assignment binding).SuppliedBy scope observations others := by
  intro references needed
  have carried : (assignment binding).CarriedBy scope
      ((assignment binding).compiled scope observations) :=
    carriedBy_compiled ⟨references, needed⟩
  have demands :
      ((assignment binding).compiled scope observations).Demands
        "principalId" binding.principalKind.resourceKind :=
    .principal binding.principalKind
      (carried.fields
        ("principalType", .string binding.principalKind.name)
        List.mem_cons_self)
  obtain ⟨principal, set, principalStands, setStands, rfl⟩ := needed
  intro reference listed
  rcases List.mem_cons.mp listed with isPrincipal | isSet
  · rw [isPrincipal]
    cases principalStands with
    | drafted drafted =>
        obtain ⟨principal, asked, inStore, isKey, isKind⟩ :=
          exists_of_declares drafted.1
        rw [← isKey]
        exact .declared principal binding.principalKind.identifierField
          (principalsDeclared principal inStore drafted.2 asked)
          (isKind ▸ demands)
          (isKind ▸ binding.principalKind.identifierField?_resourceKind)
    | literal _ isId =>
        exact .literal (.principal isId)
  · rw [List.mem_singleton.mp isSet]
    cases setStands with
    | drafted declared =>
        obtain ⟨set, setDeclared, named⟩ := declared
        rw [← named]
        exact .declared (.permissionSet set) "arn"
          (setsDeclared set setDeclared) .permissionSet rfl
    | literal _ isArn =>
        exact .literal (.permissionSet isArn)

end Declaration

namespace Spec

variable {scope : Scope} {observations : Observations}

/-- Groups come before users, and each user before the user's memberships. -/
theorem principalDeclarations_ordered :
    InSupplyOrder (Declaration.SuppliedBy scope observations) []
      scope.spec.principalDeclarations := by
  refine .append (.of_met ?_) (.flatMap ?_)
  · intro declaration member more
    obtain ⟨group, _, rfl⟩ := List.mem_map.mp member
    exact Declaration.suppliedBy_of_no_references fun _ needed => needed
  · intro user _ more
    refine ⟨?_, .of_met ?_⟩
    · exact Declaration.suppliedBy_of_no_references fun _ needed => needed
    · intro declaration member later
      obtain ⟨container, _, rfl⟩ := List.mem_map.mp member
      refine Declaration.suppliedBy_of_membership (by simp) ?_
      intro group declared
      simp [declared]

/-- Each permission set comes before its policies. -/
theorem permissionSetDeclarations_ordered
    (met : List Declaration) :
    InSupplyOrder (Declaration.SuppliedBy scope observations) met
      scope.spec.permissionSetDeclarations := by
  refine .flatMap ?_
  intro set _ more
  rw [PermissionSet.declarations, List.cons_append, List.cons_append]
  refine ⟨?_, .of_met ?_⟩
  · exact Declaration.suppliedBy_of_no_references fun _ needed => needed
  · intro declaration member later
    have setDeclared :
        Declaration.permissionSet set ∈
          met ++ more ++ [.permissionSet set] ++ later := by
      simp
    rw [List.mem_append, List.mem_append] at member
    rcases member with (isInline | isManaged) | isCustomer
    · obtain ⟨document, _, rfl⟩ :=
        List.mem_map.mp (Option.toList_map .. ▸ isInline)
      exact Declaration.suppliedBy_of_attachment
        (fun _ needed => needed) setDeclared
    · obtain ⟨arn, _, rfl⟩ := List.mem_map.mp isManaged
      exact Declaration.suppliedBy_of_attachment
        (fun _ needed => needed) setDeclared
    · obtain ⟨policy, _, rfl⟩ := List.mem_map.mp isCustomer
      exact Declaration.suppliedBy_of_attachment
        (fun _ needed => needed) setDeclared

/-- Whatever a declaration refers to is declared before it. -/
theorem declarations_ordered
    (faithful : scope.Faithful) :
    InSupplyOrder (Declaration.SuppliedBy scope observations) []
      scope.spec.declarations := by
  refine .append (.append ?_ ?_) (.of_met ?_)
  · split
    · exact principalDeclarations_ordered
    · trivial
  · exact permissionSetDeclarations_ordered _
  · intro declaration member more
    obtain ⟨binding, _, rfl⟩ := List.mem_map.mp member
    refine Declaration.suppliedBy_of_assignment ?_ ?_
    · intro principal inStore managed asked
      rw [Scope.managesPrincipals, faithful.identityStoreId] at managed
      rw [List.nil_append, if_pos managed]
      refine List.mem_append_left _ (List.mem_append_left _ ?_)
      exact mem_principalDeclarations_iff.mpr ⟨inStore, asked⟩
    · intro set declared
      have notAssignment :
          (Declaration.permissionSet set).kind ≠ .accountAssignment := by
        simp [Declaration.kind]
      have setListed :
          Declaration.permissionSet set ∈
            scope.spec.permissionSetDeclarations :=
        mem_permissionSetDeclarations_iff.mpr
          ⟨rfl, notAssignment, declared⟩
      rw [List.nil_append]
      exact List.mem_append_left _ (List.mem_append_right _ setListed)

/-- Leaving out repeats leaves out nothing that a later declaration refers to. -/
theorem suppliedBy_of_split
    (faithful : scope.Faithful)
    (distinct : scope.spec.DistinctNames)
    {kept later : List Declaration}
    {declaration : Declaration}
    (split :
      dropRepeats Declaration.identity scope.spec.declarations =
        kept ++ declaration :: later) :
    declaration.SuppliedBy scope observations kept := by
  obtain ⟨before, after, listed, keptBefore⟩ :=
    exists_split_of_dropRepeats split
  have ordered :
      InSupplyOrder (Declaration.SuppliedBy scope observations) []
        (before ++ declaration :: after) :=
    listed ▸ declarations_ordered faithful
  have asked : ∀ earlier ∈ before, scope.spec.Asks earlier := by
    intro earlier member
    refine (mem_declarations_iff.mp ?_).2
    rw [listed]
    exact List.mem_append_left _ member
  have nothingLost : before ⊆ kept := by
    rw [← keptBefore]
    exact fun earlier =>
      (mem_dropRepeats_declarations_iff distinct asked).mpr
  intro references needed reference held
  exact (ordered.supplied_of_split references needed reference held).mono
    nothingLost

end Spec

end AccessTopology
