import AccessTopology.Proofs.Ledger.Run
import AccessTopology.Proofs.Topology.Walk

namespace AccessTopology

/-!
# What a pass drafts

A pass over a topology without errors completes exactly when every name that it
meets resolves and no two declarations of different identity share a key.  It
then drafts every declaration once, in order.  Whatever else makes it fail is a
fault of the topology.
-/

/-- The entry of a declaration whose names resolve. -/
def Declaration.entry
    (scope : Scope)
    (observations : Observations)
    (declaration : Declaration) :
    LedgerEntry :=
  ⟨declaration.compiled scope observations, declaration.describe⟩

/-- The declarations that some stages walk over. -/
def Spec.declarationsIn
    (spec : Spec)
    (stages : List Stage) :
    List Declaration :=
  stages.flatMap (Stage.declarations spec)

/-- The usual stages walk over all declarations of a topology. -/
theorem Spec.declarationsIn_all (spec : Spec) :
    spec.declarationsIn Stage.all = spec.declarations := by
  simp [declarationsIn, Stage.all, Stage.declarations, declarations]

theorem Spec.asks_of_mem_declarationsIn
    {spec : Spec}
    {stages : List Stage}
    {declaration : Declaration}
    (member : declaration ∈ spec.declarationsIn stages) :
    spec.Asks declaration := by
  obtain ⟨stage, _, walked⟩ := List.mem_flatMap.mp member
  exact (mem_declarations_iff.mp
    (Stage.declarations_subset spec stage walked)).2

/-- A pass over some stages meets no name and no key that stops it. -/
structure Scope.Completes
    (scope : Scope)
    (stages : List Stage) :
    Prop where
  resolves :
    ∀ declaration ∈ scope.spec.declarationsIn stages,
      declaration.Resolves scope
  keysApart :
    Declaration.KeysApart (scope.spec.declarationsIn stages)

namespace Stage

variable {scope : Scope} {observations : Observations}
  {stages : List Stage}

theorem mem_flatMap_taken_iff
    {spec : Spec}
    (distinct : spec.DistinctNames)
    {declaration : Declaration} :
    declaration ∈ stages.flatMap (taken spec) ↔
      declaration ∈ spec.declarationsIn stages := by
  simp only [Spec.declarationsIn, List.mem_flatMap, mem_taken_iff distinct]

theorem flatMap_steps_eq
    (faithful : scope.Faithful)
    (valid : scope.spec.report.hasErrors = false)
    (apart :
      assignments ∈ stages →
        Declaration.KeysApart (assignments.declarations scope.spec))
    (observations : Observations) :
    stages.flatMap (fun stage => stage.steps scope observations) =
      (stages.flatMap (taken scope.spec)).map
        (Declaration.stepAtHome scope observations) := by
  rw [List.map_flatMap]
  refine List.flatMap_congr ?_
  intro stage member
  exact steps_eq faithful valid
    (fun isAssignments => apart (isAssignments ▸ member)) observations

/-- Where every name resolves, every step makes the entry of its declaration. -/
theorem map_stepAtHome_eq
    {walked : List Declaration}
    (resolves : ∀ declaration ∈ walked, declaration.Resolves scope) :
    walked.map (Declaration.stepAtHome scope observations) =
      (walked.map (Declaration.entry scope observations)).map
        LedgerEntry.step := by
  rw [List.map_map]
  refine List.map_congr_left ?_
  intro declaration member
  exact Declaration.step_of_resolves (resolves declaration member)

end Stage

namespace Ledger

variable {scope : Scope} {observations : Observations}
  {stages : List Stage} {ledger : Ledger} {walked : List Declaration}

/-- A run that completes adds one entry for each key. -/
theorem entries_of_run
    (completed :
      Ledger.empty.run
        ((walked.map (Declaration.entry scope observations)).map
          LedgerEntry.step) = (ledger, none)) :
    ledger.entries =
      (dropRepeats Declaration.key walked).map
        (Declaration.entry scope observations) := by
  rw [entries_of_run_eq_ok completed, empty, List.nil_append, List.map_nil,
    dropRepeatsAfter_nil, dropRepeats_map]
  rfl

/--
A run that completes met no two declarations of different identity with one
key.
-/
theorem keysApart_of_run
    (distinct : scope.spec.DistinctNames)
    (asked : ∀ declaration ∈ walked, scope.spec.Asks declaration)
    (resolves : ∀ declaration ∈ walked, declaration.Resolves scope)
    (completed :
      Ledger.empty.run
        ((walked.map (Declaration.entry scope observations)).map
          LedgerEntry.step) = (ledger, none)) :
    Declaration.KeysApart walked := by
  have holds :
      ∀ declaration ∈ walked,
        ∃ holder ∈ dropRepeats Declaration.key walked,
          holder.key = declaration.key ∧
            holder.identity = declaration.identity := by
    intro declaration member
    obtain ⟨entry, held, sameKey, sameDraft⟩ :=
      same_of_run_eq_ok completed (List.mem_map_of_mem member)
    rw [entries_of_run completed] at held
    obtain ⟨holder, kept, rfl⟩ := List.mem_map.mp held
    have holderWalked : holder ∈ walked :=
      (dropRepeats_sublist Declaration.key walked).subset kept
    refine ⟨holder, kept, sameKey, ?_⟩
    exact Declaration.identity_eq_of_same_compiled distinct
      (asked holder holderWalked) (asked declaration member)
      (resolves holder holderWalked) (resolves declaration member)
      sameDraft
  intro left leftMember right rightMember sameKey
  obtain ⟨leftHolder, leftKept, leftKey, leftIdentity⟩ :=
    holds left leftMember
  obtain ⟨rightHolder, rightKept, rightKey, rightIdentity⟩ :=
    holds right rightMember
  have oneHolder : leftHolder = rightHolder :=
    List.inj_on_of_nodup_map (nodup_map_dropRepeats Declaration.key walked)
      leftKept rightKept (leftKey.trans (sameKey.trans rightKey.symm))
  rw [← leftIdentity, oneHolder, rightIdentity]

/-- While keys keep identities apart, a run completes. -/
theorem run_of_keysApart
    (distinct : scope.spec.DistinctNames)
    (asked : ∀ declaration ∈ walked, scope.spec.Asks declaration)
    (apart : Declaration.KeysApart walked)
    (observations : Observations) :
    ∃ ledger,
      Ledger.empty.run
        ((walked.map (Declaration.entry scope observations)).map
          LedgerEntry.step) = (ledger, none) := by
  refine run_eq_ok_of_same ?_
  rw [empty, List.nil_append]
  intro earlier earlierMember later laterMember sameKey
  obtain ⟨left, leftMember, rfl⟩ := List.mem_map.mp earlierMember
  obtain ⟨right, rightMember, rfl⟩ := List.mem_map.mp laterMember
  have sameIdentity := apart left leftMember right rightMember sameKey
  rw [Spec.eq_of_identity_eq distinct (asked left leftMember)
    (asked right rightMember) sameIdentity]
  exact Draft.same_refl _

/-- The stages of a pass that completes raise no fault. -/
theorem noFault_of_runStages
    (completed :
      runStages scope observations .empty stages = (ledger, none))
    (error : RenderError) :
    Step.fault error ∉
      stages.flatMap (fun stage => stage.steps scope observations) := by
  rw [runStages_eq_run] at completed
  obtain ⟨entries, steps⟩ := steps_of_run_eq_ok completed
  intro raised
  rw [steps] at raised
  obtain ⟨entry, _, isFault⟩ := List.mem_map.mp raised
  cases isFault

theorem steps_of_runStages
    (faithful : scope.Faithful)
    (valid : scope.spec.report.hasErrors = false)
    (completed :
      runStages scope observations .empty stages = (ledger, none)) :
    stages.flatMap (fun stage => stage.steps scope observations) =
      (stages.flatMap (Stage.taken scope.spec)).map
        (Declaration.stepAtHome scope observations) := by
  refine Stage.flatMap_steps_eq faithful valid ?_ observations
  intro member
  refine Stage.keysApart_of_assignmentSteps observations ?_
  intro error raised
  exact noFault_of_runStages completed error
    (List.mem_flatMap.mpr ⟨_, member, raised⟩)

/-- Every name that a pass met resolves if the pass completes. -/
theorem resolves_of_runStages
    (faithful : scope.Faithful)
    (valid : scope.spec.report.hasErrors = false)
    (completed :
      runStages scope observations .empty stages = (ledger, none))
    {declaration : Declaration}
    (taken : declaration ∈ stages.flatMap (Stage.taken scope.spec)) :
    declaration.Resolves scope := by
  by_contra unresolved
  obtain ⟨fault, isFault⟩ :=
    Declaration.step_of_not_resolves unresolved observations
      (scope.home declaration.kind.service)
  refine noFault_of_runStages completed (.configuration fault) ?_
  rw [steps_of_runStages faithful valid completed, ← isFault]
  exact List.mem_map_of_mem taken

/--
A pass that completes met nothing that could stop it, and drafted every
declaration once.
-/
theorem completes_of_runStages
    (faithful : scope.Faithful)
    (valid : scope.spec.report.hasErrors = false)
    (completed :
      runStages scope observations .empty stages = (ledger, none)) :
    scope.Completes stages ∧
      ledger.entries =
        (dropRepeats Declaration.identity
          (scope.spec.declarationsIn stages)).map
            (Declaration.entry scope observations) := by
  have distinct := Spec.distinctNames_of_valid valid
  have takenIff :
      ∀ declaration,
        declaration ∈ stages.flatMap (Stage.taken scope.spec) ↔
          declaration ∈ scope.spec.declarationsIn stages :=
    fun _ => Stage.mem_flatMap_taken_iff distinct
  have asked :
      ∀ declaration ∈ stages.flatMap (Stage.taken scope.spec),
        scope.spec.Asks declaration :=
    fun declaration taken =>
      Spec.asks_of_mem_declarationsIn ((takenIff declaration).mp taken)
  have resolves :
      ∀ declaration ∈ stages.flatMap (Stage.taken scope.spec),
        declaration.Resolves scope :=
    fun _ => resolves_of_runStages faithful valid completed
  have ran := completed
  rw [runStages_eq_run, steps_of_runStages faithful valid completed,
    Stage.map_stepAtHome_eq resolves] at ran
  have apart := keysApart_of_run distinct asked resolves ran
  refine ⟨⟨?_, ?_⟩, ?_⟩
  · exact fun declaration walked =>
      resolves declaration ((takenIff declaration).mpr walked)
  · exact apart.mono fun declaration => (takenIff declaration).mpr
  · rw [entries_of_run ran,
      Declaration.dropRepeats_key_eq distinct asked apart]
    exact congrArg _
      (dropRepeats_flatMap_congr (Stage.dropRepeats_taken scope.spec))

/-- A pass that meets nothing that could stop it completes. -/
theorem runStages_of_completes
    (faithful : scope.Faithful)
    (valid : scope.spec.report.hasErrors = false)
    (completes : scope.Completes stages)
    (observations : Observations) :
    ∃ ledger,
      runStages scope observations .empty stages = (ledger, none) := by
  have distinct := Spec.distinctNames_of_valid valid
  have takenWalked :
      ∀ declaration ∈ stages.flatMap (Stage.taken scope.spec),
        declaration ∈ scope.spec.declarationsIn stages :=
    fun declaration => (Stage.mem_flatMap_taken_iff distinct).mp
  have assignmentsApart :
      Stage.assignments ∈ stages →
        Declaration.KeysApart
          (Stage.assignments.declarations scope.spec) :=
    fun member =>
      completes.keysApart.mono
        (fun declaration walked =>
          List.mem_flatMap.mpr ⟨_, member, walked⟩)
  rw [runStages_eq_run,
    Stage.flatMap_steps_eq faithful valid assignmentsApart observations,
    Stage.map_stepAtHome_eq
      (fun declaration member =>
        completes.resolves declaration (takenWalked declaration member))]
  exact run_of_keysApart distinct
    (fun declaration member =>
      Spec.asks_of_mem_declarationsIn (takenWalked declaration member))
    (completes.keysApart.mono takenWalked) observations

/-- A pass fails because of the topology only. -/
theorem configuration_of_runStages
    {stopped : Ledger}
    {error : RenderError}
    (failed :
      runStages scope observations .empty stages =
        (stopped, some error)) :
    ∃ fault, error = .configuration fault := by
  rw [runStages_eq_run] at failed
  rcases error_of_run failed with raised | isConfiguration
  · obtain ⟨stage, _, raisedInStage⟩ := List.mem_flatMap.mp raised
    exact Stage.configuration_of_fault raisedInStage
  · exact isConfiguration

end Ledger

end AccessTopology
