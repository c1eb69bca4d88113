import AccessTopology.Proofs.Ledger.Run
import AccessTopology.Proofs.Outcomes
import AccessTopology.Proofs.Rendering.Outcome

namespace AccessTopology

/-!
# What an identity provider can change

A topology may name an external identity provider.  Nothing is drafted for it:
with any provider and without one, a composite renders to the same result or
fails with the same error, and its status is the same.  Its report ends with one
warning where a provider is named, and is the same otherwise.
-/

/-- The topology with another identity provider, or none. -/
def Spec.federatedWith
    (spec : Spec)
    (provider : Option Json) :
    Spec :=
  { spec with externalIdentityProvider := provider }

/-- The scope of the topology with another identity provider, or none. -/
def Scope.federatedWith
    (scope : Scope)
    (provider : Option Json) :
    Scope :=
  { scope with spec := scope.spec.federatedWith provider }

/-- The composite with another identity provider, or none. -/
def Composite.federatedWith
    (composite : Composite)
    (provider : Option Json) :
    Composite :=
  { composite with spec := composite.spec.federatedWith provider }

/-- What the rules say about an identity provider: a warning if there is one. -/
def Rule.federationWarnings : Option Json → List Violation
  | none => []
  | some _ =>
      [{ rule := externalIdentityProvider.name
         severity := .warning
         message := "externalIdentityProvider is accepted but not rendered"
         subject := some "externalIdentityProvider"
         remediation := [] }]

/--
Two reports on a topology under different identity providers: the same errors,
and what else is said is the same but for a last warning of each.
-/
structure Report.SameButFederation
    (leftProvider rightProvider : Option Json)
    (left right : Report) :
    Prop where
  valid :
    left.valid = right.valid
  errors :
    left.errors = right.errors
  violations :
    ∃ shared : List Violation,
      (∀ violation ∈ shared,
        violation.rule ≠ Rule.externalIdentityProvider.name) ∧
        left.violations = shared ++ Rule.federationWarnings leftProvider ∧
          right.violations = shared ++ Rule.federationWarnings rightProvider

namespace Declaration

variable (scope : Scope) (observations : Observations)
  (provider : Option Json)

/-- References resolve to the same whatever the identity provider. -/
theorem references_federatedWith (declaration : Declaration) :
    declaration.references (scope.federatedWith provider) =
      declaration.references scope := by
  cases declaration <;> rfl

/-- A declaration has the same fields whatever the identity provider. -/
theorem fields_federatedWith (declaration : Declaration) :
    declaration.fields (scope.federatedWith provider) =
      declaration.fields scope := by
  cases declaration <;> rfl

/-- A declaration is drafted alike whatever the identity provider. -/
theorem step_federatedWith
    (home : String)
    (declaration : Declaration) :
    declaration.step (scope.federatedWith provider) observations home =
      declaration.step scope observations home := by
  have sameDraft :
      declaration.draftWith (scope.federatedWith provider) observations
          home =
        declaration.draftWith scope observations home := by
    funext references
    simp only [draftWith, fields_federatedWith]
    rfl
  simp only [step, draft, references_federatedWith, sameDraft]

end Declaration

namespace Stage

variable (scope : Scope) (observations : Observations)
  (provider : Option Json)

theorem assignmentStepsAfter_federatedWith
    (instanceArn : String)
    (met assignments : List Assignment) :
    assignmentStepsAfter (scope.federatedWith provider) observations
        instanceArn met assignments =
      assignmentStepsAfter scope observations instanceArn met
        assignments := by
  induction assignments generalizing met with
  | nil =>
      rfl
  | cons assignment rest inductionHypothesis =>
      simp only [assignmentStepsAfter, inductionHypothesis,
        Declaration.step_federatedWith]

/-- Every stage takes the same steps whatever the identity provider. -/
theorem steps_federatedWith (stage : Stage) :
    stage.steps (scope.federatedWith provider) observations =
      stage.steps scope observations := by
  have sameStep (home : String) :
      Declaration.step (scope.federatedWith provider) observations home =
        Declaration.step scope observations home :=
    funext (Declaration.step_federatedWith scope observations provider home)
  cases stage with
  | principals =>
      simp only [steps, principalSteps, sameStep]
      rfl
  | permissionSets =>
      simp only [steps, permissionSetSteps, sameStep]
      rfl
  | assignments =>
      simp only [steps, assignmentSteps, assignmentStepsAfter_federatedWith]
      rfl
  | federation =>
      rfl

end Stage

/-- A run enters the same whatever the identity provider. -/
theorem Ledger.runStages_federatedWith
    (scope : Scope)
    (observations : Observations)
    (provider : Option Json)
    (ledger : Ledger)
    (stages : List Stage) :
    runStages (scope.federatedWith provider) observations ledger stages =
      runStages scope observations ledger stages := by
  simp only [runStages_eq_run, Stage.steps_federatedWith]

namespace Spec

/-- What the rules say about a topology apart from its identity provider. -/
def localViolations (spec : Spec) : List Violation :=
  [Rule.names, .uniqueNames, .accountId, .instanceArn].flatMap
    (fun rule => rule.violations spec)

/-- A violation bears the name of its rule. -/
theorem rule_of_mem_violations
    {spec : Spec}
    {rule : Rule}
    {violation : Violation}
    (listed : violation ∈ rule.violations spec) :
    violation.rule = rule.name := by
  cases rule with
  | names | uniqueNames | accountId =>
      obtain ⟨_, _, rfl⟩ := List.mem_map.mp listed
      rfl
  | instanceArn =>
      simp only [Rule.violations, Rule.instanceViolations] at listed
      split at listed
      · rw [List.mem_singleton.mp listed]
        rfl
      · cases listed
  | externalIdentityProvider =>
      simp only [Rule.violations, Rule.federationViolations] at listed
      split at listed
      · rw [List.mem_singleton.mp listed]
      · cases listed

theorem rule_ne_of_mem_localViolations
    {spec : Spec}
    {violation : Violation}
    (listed : violation ∈ spec.localViolations) :
    violation.rule ≠ Rule.externalIdentityProvider.name := by
  obtain ⟨rule, isLocal, found⟩ := List.mem_flatMap.mp listed
  have namesDiffer :
      ∀ rule ∈ [Rule.names, .uniqueNames, .accountId, .instanceArn],
        rule.name ≠ Rule.externalIdentityProvider.name := by
    decide
  rw [rule_of_mem_violations found]
  exact namesDiffer rule isLocal

/-- A report ends with what is said about the identity provider. -/
theorem violations_report (spec : Spec) :
    spec.report.violations =
      spec.localViolations ++
        Rule.federationWarnings spec.externalIdentityProvider := by
  have last :
      Rule.externalIdentityProvider.violations spec =
        Rule.federationWarnings spec.externalIdentityProvider := by
    rw [Rule.violations, Rule.federationViolations]
    cases spec.externalIdentityProvider <;> rfl
  rw [← last]
  simp [report, Report.ofViolations, Rule.all, localViolations]

/-- What is said about an identity provider is no error. -/
theorem errors_report (spec : Spec) :
    spec.report.errors =
      spec.localViolations.filter (·.severity = .error) := by
  rw [Report.errors, violations_report, List.filter_append]
  cases spec.externalIdentityProvider with
  | none =>
      simp [Rule.federationWarnings]
  | some provider =>
      simp [Rule.federationWarnings]

theorem valid_report (spec : Spec) :
    spec.report.valid = !spec.localViolations.any (·.severity = .error) := by
  have ofViolations :
      spec.report.valid =
        !spec.report.violations.any (·.severity = .error) :=
    rfl
  rw [ofViolations, violations_report, List.any_append]
  cases spec.externalIdentityProvider with
  | none =>
      simp [Rule.federationWarnings]
  | some provider =>
      simp [Rule.federationWarnings]

theorem hasErrors_report (spec : Spec) :
    spec.report.hasErrors =
      spec.localViolations.any (·.severity = .error) := by
  have opposite : spec.report.hasErrors = !spec.report.valid :=
    (Bool.not_not _).symm
  rw [opposite, valid_report, Bool.not_not]

/-- Reports under two identity providers differ in the warning only. -/
theorem sameButFederation
    (spec : Spec)
    (left right : Option Json) :
    Report.SameButFederation left right
      (spec.federatedWith left).report (spec.federatedWith right).report where
  valid := by
    rw [valid_report, valid_report]
    rfl
  errors := by
    rw [errors_report, errors_report]
    rfl
  violations :=
    ⟨spec.localViolations, fun _ => rule_ne_of_mem_localViolations,
      violations_report _, violations_report _⟩

end Spec

namespace Composite

variable (composite : Composite) (settings : Settings)

theorem ledger_federatedWith
    (stages : List Stage)
    (provider : Option Json) :
    (composite.federatedWith provider).ledger settings stages =
      composite.ledger settings stages := by
  have inScope :
      (composite.federatedWith provider).scope settings =
        (composite.scope settings).federatedWith provider :=
    rfl
  simp only [ledger, inScope, Ledger.runStages_federatedWith]
  rfl

/-- A composite has the same status whatever the identity provider. -/
theorem status_federatedWith (provider : Option Json) :
    (composite.federatedWith provider).status settings =
      composite.status settings :=
  rfl

/-- A composite renders alike whatever the identity provider. -/
theorem renderIn_federatedWith
    (stages : List Stage)
    (provider : Option Json) :
    (composite.federatedWith provider).renderIn settings stages =
      composite.renderIn settings stages := by
  have sameEngine :
      (composite.federatedWith provider).checkEngine =
        composite.checkEngine :=
    rfl
  have sameVerdict :
      (composite.federatedWith provider).spec.report.hasErrors =
        composite.spec.report.hasErrors := by
    rw [Spec.hasErrors_report, Spec.hasErrors_report]
    rfl
  have sameErrors :
      (composite.federatedWith provider).spec.report.errors =
        composite.spec.report.errors := by
    rw [Spec.errors_report, Spec.errors_report]
    rfl
  cases engine : composite.checkEngine with
  | error error =>
      rw [renderIn_of_refused (sameEngine.trans engine),
        renderIn_of_refused engine]
  | ok _ =>
      cases verdict : composite.spec.report.hasErrors with
      | true =>
          rw [renderIn_of_invalid (sameEngine.trans engine)
              (sameVerdict.trans verdict),
            renderIn_of_invalid engine verdict, sameErrors]
      | false =>
          rw [renderIn_of_valid (sameEngine.trans engine)
              (sameVerdict.trans verdict),
            renderIn_of_valid engine verdict, ledger_federatedWith,
            status_federatedWith]

/--
Two composites that differ in the identity provider only render to the same
result or fail with the same error, whatever the stages, and have the same
status.  Validation fails for both with the same error, or reports the same but
for one warning that comes last where there is a provider.
-/
theorem federation_is_inert (left right : Option Json) :
    (∀ stages,
        (composite.federatedWith left).renderIn settings stages =
          (composite.federatedWith right).renderIn settings stages) ∧
      (composite.federatedWith left).status settings =
          (composite.federatedWith right).status settings ∧
        OutcomesAgree (Report.SameButFederation left right)
          (composite.federatedWith left).validate
          (composite.federatedWith right).validate := by
  refine ⟨?_, ?_, ?_⟩
  · intro stages
    simp only [renderIn_federatedWith]
  · simp only [status_federatedWith]
  · have sameEngine :
        (composite.federatedWith left).checkEngine =
          (composite.federatedWith right).checkEngine :=
      rfl
    simp only [validate, sameEngine]
    cases (composite.federatedWith right).checkEngine with
    | error error =>
        exact .failed error
    | ok _ =>
        exact .succeeded (composite.spec.sameButFederation left right)

end Composite

end AccessTopology
