import AccessTopology.Proofs.Topology.Content

namespace AccessTopology

/-!
# What a stage walks over

A stage takes one step per declaration, where its service lives.  Only the
stage of assignments looks back: it leaves out what binds the same as an
earlier assignment and stops at one that merely shares a key.  Unless it stops,
it takes one step for each assignment that binds something new.
-/

/-- A scope takes its identifiers from its topology. -/
structure Scope.Faithful (scope : Scope) : Prop where
  identityStoreId :
    scope.identityStoreId = scope.spec.identityStoreId?
  instanceArn :
    scope.instanceArn = scope.spec.instanceArn?

namespace Declaration

/-- The step that drafts a declaration where its service lives. -/
def stepAtHome
    (scope : Scope)
    (observations : Observations)
    (declaration : Declaration) :
    Step :=
  declaration.step scope observations
    (scope.home declaration.kind.service)

end Declaration

namespace Stage

/-- The declarations that a stage walks over. -/
def declarations (spec : Spec) : Stage → List Declaration
  | principals =>
      if spec.identityStoreId?.isSome then spec.principalDeclarations else []
  | permissionSets => spec.permissionSetDeclarations
  | assignments => spec.expandAssignments.map .assignment
  | federation => []

/-- The declarations that a stage takes a step for. -/
def taken (spec : Spec) : Stage → List Declaration
  | assignments =>
      dropRepeats Declaration.identity
        (spec.expandAssignments.map .assignment)
  | stage => stage.declarations spec

/-- A stage leaves out nothing but repeats. -/
theorem dropRepeats_taken
    (spec : Spec)
    (stage : Stage) :
    dropRepeats Declaration.identity (stage.taken spec) =
      dropRepeats Declaration.identity (stage.declarations spec) := by
  cases stage with
  | assignments =>
      exact dropRepeats_eq_self (nodup_map_dropRepeats _ _)
  | principals | permissionSets | federation =>
      rfl

/-- With distinct names a stage leaves out no declaration altogether. -/
theorem mem_taken_iff
    {spec : Spec}
    (distinct : spec.DistinctNames)
    {stage : Stage}
    {declaration : Declaration} :
    declaration ∈ stage.taken spec ↔
      declaration ∈ stage.declarations spec := by
  cases stage with
  | assignments =>
      refine Spec.mem_dropRepeats_declarations_iff distinct ?_
      intro declaration member
      obtain ⟨binding, asked, rfl⟩ := List.mem_map.mp member
      exact asked
  | principals | permissionSets | federation =>
      rfl

theorem declarations_subset
    (spec : Spec)
    (stage : Stage) :
    stage.declarations spec ⊆ spec.declarations := by
  intro declaration member
  cases stage with
  | principals =>
      exact List.mem_append_left _ (List.mem_append_left _ member)
  | permissionSets =>
      exact List.mem_append_left _ (List.mem_append_right _ member)
  | assignments =>
      exact List.mem_append_right _ member
  | federation =>
      cases member

variable {scope : Scope}

theorem principalSteps_eq
    (faithful : scope.Faithful)
    (observations : Observations) :
    principalSteps scope observations =
      (principals.declarations scope.spec).map
        (Declaration.stepAtHome scope observations) := by
  rw [principalSteps, declarations, ← faithful.identityStoreId]
  cases stored : scope.identityStoreId with
  | none =>
      rfl
  | some store =>
      refine List.map_congr_left ?_
      intro declaration member
      have inStore := (Spec.mem_principalDeclarations_iff.mp member).1
      simp [Declaration.stepAtHome, Scope.home, inStore, stored]

theorem permissionSetSteps_eq
    (instancePresent :
      scope.spec.permissionSets ≠ [] → scope.instanceArn.isSome = true)
    (observations : Observations) :
    permissionSetSteps scope observations =
      (permissionSets.declarations scope.spec).map
        (Declaration.stepAtHome scope observations) := by
  rw [permissionSetSteps, declarations]
  by_cases noSets : scope.spec.permissionSets = []
  · simp [noSets, Spec.permissionSetDeclarations]
  · obtain ⟨arn, held⟩ :=
      Option.isSome_iff_exists.mp (instancePresent noSets)
    rw [if_neg (by simpa using noSets), held]
    refine List.map_congr_left ?_
    intro declaration member
    have inInstance := (Spec.mem_permissionSetDeclarations_iff.mp member).1
    simp [Declaration.stepAtHome, Scope.home, inInstance, held]

/--
The walk over assignments after those in `met`: each is drafted when its key is
new, left out when it binds the same as an earlier one, and a fault when it
only shares the key of an earlier one.
-/
inductive AssignmentWalk
    (scope : Scope)
    (observations : Observations)
    (instanceArn : String) :
    (met rest : List Assignment) → List Step → Prop
  | done {met : List Assignment} :
      AssignmentWalk scope observations instanceArn met [] []
  | drafts
      {met rest : List Assignment}
      {binding : Assignment}
      {steps : List Step}
      (new : ∀ earlier ∈ met, earlier.key ≠ binding.key)
      (walk :
        AssignmentWalk scope observations instanceArn (met ++ [binding])
          rest steps) :
      AssignmentWalk scope observations instanceArn met (binding :: rest)
        (Declaration.step scope observations instanceArn
          (.assignment binding) :: steps)
  | leavesOut
      {met rest : List Assignment}
      {earlier binding : Assignment}
      {steps : List Step}
      (earlierMet : earlier ∈ met)
      (same :
        (Declaration.assignment earlier).identity =
          (Declaration.assignment binding).identity)
      (walk :
        AssignmentWalk scope observations instanceArn met rest steps) :
      AssignmentWalk scope observations instanceArn met (binding :: rest)
        steps
  | stops
      {met rest : List Assignment}
      {earlier binding : Assignment}
      (earlierMet : earlier ∈ met)
      (sameKey : earlier.key = binding.key)
      (differs :
        (Declaration.assignment earlier).identity ≠
          (Declaration.assignment binding).identity) :
      AssignmentWalk scope observations instanceArn met (binding :: rest)
        [.fault
          (.configuration
            (.keyConflict earlier.describe binding.describe binding.key))]

theorem assignmentWalk
    (scope : Scope)
    (observations : Observations)
    (instanceArn : String)
    (met rest : List Assignment) :
    AssignmentWalk scope observations instanceArn met rest
      (assignmentStepsAfter scope observations instanceArn met rest) := by
  induction rest generalizing met with
  | nil =>
      exact .done
  | cons binding rest inductionHypothesis =>
      rw [assignmentStepsAfter]
      cases found :
          met.find? (fun earlier => earlier.key = binding.key) with
      | none =>
          exact .drafts (by simpa using found)
            (inductionHypothesis (met ++ [binding]))
      | some earlier =>
          have earlierMet := List.mem_of_find?_eq_some found
          have sameKey : earlier.key = binding.key := by
            simpa using List.find?_some found
          by_cases bindsSame : earlier.sameBinding binding = true
          · simp only [bindsSame, ↓reduceIte]
            exact .leavesOut earlierMet
              (Assignment.sameBinding_iff.mp bindsSame)
              (inductionHypothesis met)
          · simp only [if_neg bindsSame]
            exact .stops earlierMet sameKey
              (Assignment.sameBinding_iff.not.mp bindsSame)

namespace AssignmentWalk

variable {observations : Observations} {instanceArn : String}
  {met rest : List Assignment} {steps : List Step}

/--
While assignments that share a key bind the same, a walk takes one step for
each that binds something new.
-/
theorem steps_eq
    (walk :
      AssignmentWalk scope observations instanceArn met rest steps)
    (held : scope.instanceArn = some instanceArn)
    (apart :
      Declaration.KeysApart ((met ++ rest).map .assignment)) :
    steps =
      (dropRepeatsAfter Declaration.identity
        ((met.map .assignment).map Declaration.identity)
        (rest.map .assignment)).map
          (Declaration.stepAtHome scope observations) := by
  induction walk with
  | done =>
      rfl
  | @drafts met rest binding steps new walk inductionHypothesis =>
      have newIdentity :
          (Declaration.assignment binding).identity ∉
            (met.map Declaration.assignment).map
              Declaration.identity := by
        simp only [List.map_map, List.mem_map, Function.comp_apply]
        rintro ⟨earlier, earlierMet, sameIdentity⟩
        exact new earlier earlierMet
          (Assignment.key_eq_of_identity_eq sameIdentity)
      rw [← List.append_cons] at inductionHypothesis
      rw [inductionHypothesis apart, List.map_cons,
        dropRepeatsAfter_cons_of_new newIdentity, List.map_cons]
      simp [Declaration.stepAtHome, Scope.home, Declaration.kind,
        ResourceKind.service, held]
  | leavesOut earlierMet same walk inductionHypothesis =>
      have alreadyMet :=
        List.mem_map_of_mem (f := Declaration.identity)
          (List.mem_map_of_mem (f := Declaration.assignment) earlierMet)
      rw [same] at alreadyMet
      rw [List.map_cons, dropRepeatsAfter_cons_of_met alreadyMet]
      refine inductionHypothesis (apart.mono (List.map_subset _ ?_))
      exact ((List.sublist_cons_self _ _).append_left _).subset
  | @stops met rest earlier binding earlierMet sameKey differs =>
      refine absurd
        (apart (.assignment earlier) ?_ (.assignment binding) ?_ sameKey)
        differs
      · exact List.mem_map_of_mem (List.mem_append_left _ earlierMet)
      · simp

/-- Where a walk meets no fault, assignments that share a key bind the same. -/
theorem keysApart
    (walk :
      AssignmentWalk scope observations instanceArn met rest steps)
    (metApart : Declaration.KeysApart (met.map .assignment))
    (noFault : ∀ error, Step.fault error ∉ steps) :
    Declaration.KeysApart ((met ++ rest).map .assignment) := by
  induction walk with
  | done =>
      simpa using metApart
  | drafts new walk inductionHypothesis =>
      rw [List.append_cons]
      refine inductionHypothesis ?_ ?_
      · rw [List.map_append]
        refine metApart.concat ?_
        simpa [Declaration.key] using new
      · exact fun error raised =>
          noFault error (List.mem_cons_of_mem _ raised)
  | @leavesOut met rest earlier binding steps earlierMet same walk
      inductionHypothesis =>
      refine (inductionHypothesis metApart noFault).of_same ?_
      have standsIn :
          ∀ later ∈ met ++ binding :: rest,
            ∃ other ∈ met ++ rest,
              (Declaration.assignment other).identity =
                (Declaration.assignment later).identity := by
        intro later member
        rcases List.mem_append.mp member with inMet | inRest
        · exact ⟨later, List.mem_append_left _ inMet, rfl⟩
        · rcases List.mem_cons.mp inRest with isBinding | inRest
          · exact ⟨earlier, List.mem_append_left _ earlierMet,
              isBinding ▸ same⟩
          · exact ⟨later, List.mem_append_right _ inRest, rfl⟩
      intro declaration member
      obtain ⟨later, laterMember, rfl⟩ := List.mem_map.mp member
      obtain ⟨other, otherMember, sameIdentity⟩ :=
        standsIn later laterMember
      exact ⟨.assignment other, List.mem_map_of_mem otherMember,
        Assignment.key_eq_of_identity_eq sameIdentity, sameIdentity⟩
  | stops earlierMet sameKey differs =>
      exact absurd List.mem_cons_self (noFault _)

theorem configuration_of_fault
    (walk :
      AssignmentWalk scope observations instanceArn met rest steps)
    {error : RenderError}
    (raised : Step.fault error ∈ steps) :
    ∃ fault, error = .configuration fault := by
  induction walk with
  | done =>
      cases raised
  | drafts new walk inductionHypothesis =>
      rcases List.mem_cons.mp raised with isStep | later
      · exact Declaration.error_of_step isStep.symm
      · exact inductionHypothesis later
  | leavesOut earlierMet same walk inductionHypothesis =>
      exact inductionHypothesis raised
  | stops earlierMet sameKey differs =>
      rw [List.mem_singleton, Step.fault.injEq] at raised
      exact ⟨_, raised⟩

end AssignmentWalk

/-- Assignments come from permission sets or are declared on their own. -/
private theorem declared_of_expandAssignments_ne_nil
    {spec : Spec}
    (someAssignment : spec.expandAssignments ≠ []) :
    spec.permissionSets ≠ [] ∨ spec.assignments ≠ [] := by
  by_contra nothing
  simp only [ne_eq, not_or, Decidable.not_not] at nothing
  exact someAssignment (by simp [Spec.expandAssignments, nothing])

/--
Where the assignments' stage raises no fault, assignments that share a key bind
the same.
-/
theorem keysApart_of_assignmentSteps
    (observations : Observations)
    (noFault :
      ∀ error,
        Step.fault error ∉ assignmentSteps scope observations) :
    Declaration.KeysApart (assignments.declarations scope.spec) := by
  rw [assignmentSteps] at noFault
  by_cases noAssignments : scope.spec.expandAssignments = []
  · intro left leftMember
    simp [declarations, noAssignments] at leftMember
  · rw [if_neg (by simpa using noAssignments)] at noFault
    cases held : scope.instanceArn with
    | none =>
        simp [held] at noFault
    | some instanceArn =>
        simp only [held] at noFault
        refine (assignmentWalk scope observations instanceArn []
          scope.spec.expandAssignments).keysApart ?_ noFault
        intro left leftMember
        cases leftMember

/--
While assignments that share a key bind the same, each stage takes its steps.
-/
theorem steps_eq
    (faithful : scope.Faithful)
    (valid : scope.spec.report.hasErrors = false)
    {stage : Stage}
    (apart :
      stage = assignments →
        Declaration.KeysApart (assignments.declarations scope.spec))
    (observations : Observations) :
    stage.steps scope observations =
      (stage.taken scope.spec).map
        (Declaration.stepAtHome scope observations) := by
  have instancePresent :
      scope.spec.permissionSets ≠ [] ∨ scope.spec.assignments ≠ [] →
        scope.instanceArn.isSome = true := by
    intro needed
    rw [faithful.instanceArn]
    exact Spec.instance_of_valid valid needed
  cases stage with
  | principals =>
      exact principalSteps_eq faithful observations
  | permissionSets =>
      exact permissionSetSteps_eq
        (fun someSet => instancePresent (.inl someSet)) observations
  | assignments =>
      rw [steps, assignmentSteps, taken]
      by_cases noAssignments : scope.spec.expandAssignments = []
      · simp [noAssignments, dropRepeats]
      · obtain ⟨arn, held⟩ :=
          Option.isSome_iff_exists.mp
            (instancePresent (declared_of_expandAssignments_ne_nil noAssignments))
        rw [if_neg (by simpa using noAssignments), held]
        have walked :=
          (assignmentWalk scope observations arn []
            scope.spec.expandAssignments).steps_eq held (apart rfl)
        rw [List.map_nil, List.map_nil, dropRepeatsAfter_nil] at walked
        exact walked
  | federation =>
      rfl

/-- A stage raises no faults but those of the topology. -/
theorem configuration_of_fault
    {observations : Observations}
    {stage : Stage}
    {error : RenderError}
    (raised : Step.fault error ∈ stage.steps scope observations) :
    ∃ fault, error = .configuration fault := by
  cases stage with
  | principals =>
      rw [steps, principalSteps] at raised
      split at raised
      · cases raised
      · obtain ⟨declaration, _, isFault⟩ := List.mem_map.mp raised
        exact Declaration.error_of_step isFault
  | permissionSets =>
      rw [steps, permissionSetSteps] at raised
      split at raised
      · cases raised
      · split at raised
        · rw [List.mem_singleton, Step.fault.injEq] at raised
          exact ⟨_, raised⟩
        · obtain ⟨declaration, _, isFault⟩ := List.mem_map.mp raised
          exact Declaration.error_of_step isFault
  | assignments =>
      simp only [steps, assignmentSteps] at raised
      split at raised
      · cases raised
      · split at raised
        · rw [List.mem_singleton, Step.fault.injEq] at raised
          exact ⟨_, raised⟩
        · exact (assignmentWalk _ _ _ _ _).configuration_of_fault raised
  | federation =>
      cases raised

end Stage

end AccessTopology
