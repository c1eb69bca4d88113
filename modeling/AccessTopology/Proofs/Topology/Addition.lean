import AccessTopology.Proofs.Enlargement
import AccessTopology.Proofs.Topology.Pass

namespace AccessTopology

/-!
# Adding a declaration

A group, a user or a permission set may be added anywhere in the list of its
kind.  Every resource belongs to one declared name, and the resources that come
with an addition are those that belong to its name.  Unless the new name is an
identifier that references may give literally, no reference of the topology
could mean it before, and every reference means what it meant.
-/

/-- A name under which a principal or a permission set is declared. -/
inductive DeclaredName
  | principal (kind : PrincipalKind) (name : String)
  | permissionSet (name : String)
  deriving Repr, DecidableEq

/-- Whether a reference that gives the name could mean an identifier. -/
def DeclaredName.isLiteral : DeclaredName → Bool
  | principal _ name => isPrincipalId name
  | permissionSet name => isPermissionSetArn name

/-- The declared name that a resource belongs to. -/
def ResourceIdentity.owner : ResourceIdentity → DeclaredName
  | group name => .principal .group name
  | user name => .principal .user name
  | membership member _ => .principal .user member
  | permissionSet name => .permissionSet name
  | inlinePolicy set => .permissionSet set
  | managedPolicy set _ => .permissionSet set
  | customerPolicy set _ _ => .permissionSet set
  | assignment set _ _ _ => .permissionSet set

/-- What may be added to a topology. -/
inductive Addition
  | group (added : Group)
  | user (added : User)
  | permissionSet (added : PermissionSet)

namespace Addition

/-- The name that an addition declares. -/
def name : Addition → DeclaredName
  | group added => .principal .group added.name
  | user added => .principal .user added.name
  | permissionSet added => .permissionSet added.name

/--
What comes with an addition: a group; a user and its memberships; a permission
set, its policies and its assignments.
-/
def declarations : Addition → List Declaration
  | group added => [.group added]
  | user added => added.declarations
  | permissionSet added =>
      added.declarations ++ added.assignments.map .assignment

/-- What comes with an addition belongs to its name. -/
theorem owner_of_mem_declarations
    {addition : Addition}
    {declaration : Declaration}
    (listed : declaration ∈ addition.declarations) :
    declaration.identity.owner = addition.name := by
  cases addition with
  | group added =>
      rw [List.mem_singleton.mp listed]
      rfl
  | user added =>
      rw [declarations, User.declarations, List.mem_cons,
        List.mem_map] at listed
      rcases listed with rfl | ⟨container, _, rfl⟩ <;> rfl
  | permissionSet added =>
      rw [declarations, List.mem_append] at listed
      rcases listed with ofSet | isAssignment
      · simp only [PermissionSet.declarations, List.mem_append,
          List.mem_cons, List.mem_map] at ofSet
        rcases ofSet with
          ((rfl | inlined) | ⟨arn, _, rfl⟩) | ⟨policy, _, rfl⟩
        · rfl
        · rw [Option.mem_toList, Option.map_eq_some_iff] at inlined
          obtain ⟨document, _, rfl⟩ := inlined
          rfl
        · rfl
        · rfl
      · obtain ⟨binding, expanded, rfl⟩ := List.mem_map.mp isAssignment
        rw [PermissionSet.assignments, List.mem_flatMap] at expanded
        obtain ⟨principal, _, onAccount⟩ := expanded
        obtain ⟨account, _, rfl⟩ := List.mem_map.mp onAccount
        rfl

end Addition

/-- A topology declares a name. -/
def Spec.DeclaresName
    (spec : Spec) :
    DeclaredName → Prop
  | .principal kind name => spec.Declares kind name
  | .permissionSet name => spec.DeclaresPermissionSet name

/--
What a topology asks for under resolving references belongs to a name that is
declared, or that is an identifier.
-/
theorem Spec.declaresName_owner
    {scope : Scope}
    {declaration : Declaration}
    (asked : scope.spec.Asks declaration)
    (resolves : declaration.Resolves scope) :
    scope.spec.DeclaresName declaration.identity.owner ∨
      declaration.identity.owner.isLiteral = true := by
  cases declaration with
  | group declared =>
      exact .inl ⟨declared, asked, rfl⟩
  | user declared =>
      exact .inl ⟨declared, asked, rfl⟩
  | membership member container =>
      obtain ⟨user, declared, named, _⟩ := asked
      exact .inl ⟨user, declared, named⟩
  | permissionSet set =>
      exact .inl ⟨set, asked, rfl⟩
  | inlinePolicy set _ | managedPolicy set _ | customerPolicy set _ =>
      exact .inl ⟨set, asked.1, rfl⟩
  | assignment binding =>
      obtain ⟨_, _, set, _, stands, _⟩ := resolves
      exact Scope.exists_permissionSetReference_iff.mp ⟨set, stands⟩

/-- The second topology is the first with an addition in the list of its kind. -/
inductive Spec.Adds (spec : Spec) : Addition → Spec → Prop
  | group {before after : List Group} (added : Group) :
      spec.groups = before ++ after →
        Adds spec (.group added)
          { spec with groups := before ++ added :: after }
  | user {before after : List User} (added : User) :
      spec.users = before ++ after →
        Adds spec (.user added)
          { spec with users := before ++ added :: after }
  | permissionSet
      {before after : List PermissionSet}
      (added : PermissionSet) :
      spec.permissionSets = before ++ after →
        Adds spec (.permissionSet added)
          { spec with permissionSets := before ++ added :: after }

namespace Spec.Adds

variable {spec larger : Spec} {addition : Addition}

private theorem exists_named_iff
    {before after : List α}
    {added : α}
    {name : α → String}
    {wanted : String} :
    (∃ value ∈ before ++ added :: after, name value = wanted) ↔
      (∃ value ∈ before ++ after, name value = wanted) ∨
        name added = wanted := by
  simp only [List.perm_middle.mem_iff, List.exists_mem_cons_iff, or_comm]

/-- An addition declares its name and no other. -/
theorem declaresName_iff
    (adds : spec.Adds addition larger)
    (name : DeclaredName) :
    larger.DeclaresName name ↔
      spec.DeclaresName name ∨ addition.name = name := by
  cases adds with
  | group added split =>
      rcases name with ⟨_ | _, name⟩ | name
      · simp only [DeclaresName, Declares, Addition.name, split,
          exists_named_iff, DeclaredName.principal.injEq, true_and]
      · simp [DeclaresName, Declares, Addition.name]
      · simp [DeclaresName, DeclaresPermissionSet, Addition.name]
  | user added split =>
      rcases name with ⟨_ | _, name⟩ | name
      · simp [DeclaresName, Declares, Addition.name]
      · simp only [DeclaresName, Declares, Addition.name, split,
          exists_named_iff, DeclaredName.principal.injEq, true_and]
      · simp [DeclaresName, DeclaresPermissionSet, Addition.name]
  | permissionSet added split =>
      rcases name with ⟨_ | _, name⟩ | name
      · simp [DeclaresName, Declares, Addition.name]
      · simp [DeclaresName, Declares, Addition.name]
      · simp only [DeclaresName, DeclaresPermissionSet, Addition.name, split,
          exists_named_iff, DeclaredName.permissionSet.injEq]

private theorem not_exists_named
    {before after : List α}
    {added : α}
    {name : α → String}
    {key : String → LogicalKey}
    (distinct :
      ((before ++ added :: after).map (fun value => key (name value))).Nodup) :
    ¬∃ value ∈ before ++ after, name value = name added := by
  rintro ⟨value, listed, sameName⟩
  rw [List.map_append, List.map_cons, List.nodup_middle,
    List.nodup_cons, ← List.map_append] at distinct
  exact distinct.1 (List.mem_map.mpr ⟨value, listed, by rw [sameName]⟩)

/-- Where declared names are distinct, the name of an addition is new. -/
theorem not_declaresName
    (adds : spec.Adds addition larger)
    (distinct : larger.DistinctNames) :
    ¬spec.DeclaresName addition.name := by
  cases adds with
  | group added split =>
      have groups := distinct.groups
      simpa only [DeclaresName, Declares, Addition.name, split] using
        not_exists_named groups
  | user added split =>
      have users := distinct.users
      simpa only [DeclaresName, Declares, Addition.name, split] using
        not_exists_named users
  | permissionSet added split =>
      have permissionSets := distinct.permissionSets
      simpa only [DeclaresName, DeclaresPermissionSet, Addition.name,
        split] using not_exists_named permissionSets

/-- An addition leaves the tags of other names as they are. -/
theorem permissionSet?_eq
    (adds : spec.Adds addition larger)
    {name : String}
    (other : addition.name ≠ .permissionSet name) :
    larger.permissionSet? name = spec.permissionSet? name := by
  cases adds with
  | group | user =>
      rfl
  | permissionSet added split =>
      have notNamed : added.name ≠ name :=
        fun same => other (congrArg DeclaredName.permissionSet same)
      simp [permissionSet?, split, List.find?_append, notNamed]

theorem principalDeclarations_enlarged
    (adds : spec.Adds addition larger) :
    Enlarged addition.declarations spec.principalDeclarations
      larger.principalDeclarations := by
  cases adds with
  | @group before after added split =>
      simp only [principalDeclarations, split, List.map_append,
        List.map_cons]
      refine .append ?_ (.refl _ _)
      exact .insert (List.Subset.refl [_]) _ _
  | user added split =>
      simp only [principalDeclarations, split, List.flatMap_append,
        List.flatMap_cons]
      refine .append (.refl _ _) ?_
      exact .insert (List.Subset.refl _) _ _
  | permissionSet =>
      exact .refl _ _

theorem permissionSetDeclarations_enlarged
    (adds : spec.Adds addition larger) :
    Enlarged addition.declarations spec.permissionSetDeclarations
      larger.permissionSetDeclarations := by
  cases adds with
  | group | user =>
      exact .refl _ _
  | permissionSet added split =>
      simp only [permissionSetDeclarations, split, List.flatMap_append,
        List.flatMap_cons]
      exact .insert (List.subset_append_left _ _) _ _

/-- An addition comes with its own assignments, if no others name it. -/
theorem expandAssignments_enlarged
    (adds : spec.Adds addition larger)
    (unnamed :
      ∀ direct ∈ spec.assignments,
        addition.name ≠ .permissionSet direct.permissionSet) :
    Enlarged addition.declarations
      (spec.expandAssignments.map .assignment)
      (larger.expandAssignments.map .assignment) := by
  have sameDirect :
      larger.assignments.map (DirectAssignment.toAssignment larger) =
        spec.assignments.map (DirectAssignment.toAssignment spec) := by
    have sameAssignments : larger.assignments = spec.assignments := by
      cases adds <;> rfl
    rw [sameAssignments]
    refine List.map_congr_left ?_
    intro direct listed
    rw [DirectAssignment.toAssignment, DirectAssignment.toAssignment,
      adds.permissionSet?_eq (unnamed direct listed)]
  rw [expandAssignments, expandAssignments, sameDirect, List.map_append,
    List.map_append]
  refine .append ?_ (.refl _ _)
  cases adds with
  | group | user =>
      exact .refl _ _
  | permissionSet added split =>
      simp only [split, List.flatMap_append, List.flatMap_cons,
        List.map_append]
      exact .insert (List.subset_append_right _ _) _ _

/--
An addition puts what comes with it among the declarations, if none of them
belongs to its name.
-/
theorem declarations_enlarged
    (adds : spec.Adds addition larger)
    (others :
      ∀ declaration ∈ spec.declarations,
        declaration.identity.owner ≠ addition.name) :
    Enlarged addition.declarations spec.declarations
      larger.declarations := by
  have unnamed :
      ∀ direct ∈ spec.assignments,
        addition.name ≠ .permissionSet direct.permissionSet := by
    -- An assignment declared on its own belongs to the set that it names.
    intro direct listed isAdded
    refine others (.assignment (direct.toAssignment spec)) ?_ isAdded.symm
    rw [declarations, List.mem_append]
    exact .inr (List.mem_map_of_mem
      (List.mem_append_right _ (List.mem_map_of_mem listed)))
  have sameStore : larger.identityStoreId? = spec.identityStoreId? := by
    cases adds <;> rfl
  rw [declarations, declarations, sameStore]
  refine .append (.append ?_ adds.permissionSetDeclarations_enlarged)
    (adds.expandAssignments_enlarged unnamed)
  split
  · exact adds.principalDeclarations_enlarged
  · exact .refl _ _

/-- What a pass kept before an addition is what it keeps that is not added. -/
theorem dropRepeats_declarations
    (adds : spec.Adds addition larger)
    (others :
      ∀ declaration ∈ spec.declarations,
        declaration.identity.owner ≠ addition.name) :
    dropRepeats Declaration.identity spec.declarations =
      (dropRepeats Declaration.identity larger.declarations).filter
        (fun declaration =>
          declaration.identity.owner ≠ addition.name) := by
  have notAdded :
      larger.declarations.filter
          (fun declaration =>
            declaration.identity.owner ≠ addition.name) =
        spec.declarations := by
    refine (adds.declarations_enlarged others).filter_eq ?_ ?_
    · exact fun declaration listed =>
        decide_eq_true (others declaration listed)
    · intro declaration listed
      simp [Addition.owner_of_mem_declarations listed]
  rw [← notAdded]
  exact dropRepeats_filter Declaration.identity
    (fun identity => decide (identity.owner ≠ addition.name)) _

end Spec.Adds

namespace Scope

variable {scope : Scope} {larger : Spec} {addition : Addition}

/-- Where a pass completes, nothing belongs to a name that is added later. -/
theorem Completes.owner_ne
    (completes : scope.Completes Stage.all)
    (adds : scope.spec.Adds addition larger)
    (notLiteral : addition.name.isLiteral = false)
    (distinct : larger.DistinctNames)
    {declaration : Declaration}
    (listed : declaration ∈ scope.spec.declarations) :
    declaration.identity.owner ≠ addition.name := by
  intro isAdded
  have resolves : declaration.Resolves scope := by
    refine completes.resolves declaration ?_
    rw [Spec.declarationsIn_all]
    exact listed
  have asked := (Spec.mem_declarations_iff.mp listed).2
  rcases Spec.declaresName_owner asked resolves with declared | isLiteral
  · exact adds.not_declaresName distinct (isAdded ▸ declared)
  · simp [isAdded, notLiteral] at isLiteral

/-- A principal's name stands for what it did before an addition. -/
theorem PrincipalReference.added
    (adds : scope.spec.Adds addition larger)
    (notLiteral : addition.name.isLiteral = false)
    {kind : PrincipalKind}
    {name : String}
    {reference : Reference}
    (stands : scope.PrincipalReference kind name reference) :
    PrincipalReference { scope with spec := larger } kind name reference := by
  have declaresIff := adds.declaresName_iff (.principal kind name)
  cases stands with
  | drafted drafted =>
      exact .drafted ⟨declaresIff.mpr (.inl drafted.1), drafted.2⟩
  | literal notDrafted isId =>
      refine .literal ?_ isId
      rintro ⟨declares, manages⟩
      rcases declaresIff.mp declares with before | isAdded
      · exact notDrafted ⟨before, manages⟩
      · simp [isAdded, DeclaredName.isLiteral, isId] at notLiteral

/-- A permission set's name stands for what it did before an addition. -/
theorem PermissionSetReference.added
    (adds : scope.spec.Adds addition larger)
    (notLiteral : addition.name.isLiteral = false)
    {name : String}
    {reference : Reference}
    (stands : scope.PermissionSetReference name reference) :
    PermissionSetReference { scope with spec := larger } name reference := by
  have declaresIff := adds.declaresName_iff (.permissionSet name)
  cases stands with
  | drafted declared =>
      exact .drafted (declaresIff.mpr (.inl declared))
  | literal undeclared isArn =>
      refine .literal ?_ isArn
      intro declares
      rcases declaresIff.mp declares with before | isAdded
      · exact undeclared before
      · simp [isAdded, DeclaredName.isLiteral, isArn] at notLiteral

end Scope

namespace Declaration

variable {scope : Scope} {larger : Spec} {addition : Addition}
  {declaration : Declaration}

/-- The references of a draft are what they were before an addition. -/
theorem HasReferences.added
    (adds : scope.spec.Adds addition larger)
    (notLiteral : addition.name.isLiteral = false)
    {references : List (String × Reference)}
    (needed : declaration.HasReferences scope references) :
    declaration.HasReferences { scope with spec := larger } references := by
  cases declaration with
  | membership member container =>
      obtain ⟨reference, stands, isReferences⟩ := needed
      exact ⟨reference, stands.added adds notLiteral, isReferences⟩
  | assignment binding =>
      obtain ⟨principal, set, stands, setStands, isReferences⟩ := needed
      exact ⟨principal, set, stands.added adds notLiteral,
        setStands.added adds notLiteral, isReferences⟩
  | group | user | permissionSet | inlinePolicy | managedPolicy |
      customerPolicy =>
      exact needed

/-- A declaration becomes the draft that it became before an addition. -/
theorem compiled_added
    (adds : scope.spec.Adds addition larger)
    (notLiteral : addition.name.isLiteral = false)
    (resolves : declaration.Resolves scope)
    (observations : Observations) :
    declaration.compiled { scope with spec := larger } observations =
      declaration.compiled scope observations := by
  obtain ⟨references, needed⟩ := resolves
  have before := references_eq_ok_iff.mpr needed
  have after := references_eq_ok_iff.mpr (needed.added adds notLiteral)
  rw [compiled, compiled, before, after]
  cases declaration <;> rfl

end Declaration

end AccessTopology
