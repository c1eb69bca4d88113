import AccessTopology.CommandLine.Run
import AccessTopology.Proofs.Rendering.Outcome

namespace AccessTopology.CommandLine

/-!
# What exit codes tell

Where the settings or the document cannot be read, every command exits with 1.
A document that is read has a status, so `status` exits with 0; `render` exits
with 0 where there is a rendering and with 2 where there is none.  `validate`
exits with 0 or 2 as the topology has no errors or some, but with 1 where this
engine is too old for the composite: there it does not tell a document that is
refused from one that cannot be read, although `render` does.
-/

/-- The settings and the composite of an invocation, if both can be read. -/
def Invocation.found?
    (invocation : Invocation)
    (surroundings : Surroundings) :
    Option (Settings × Composite) :=
  match
    readSettings invocation.configPath
      (surroundings.files invocation.configPath),
    readComposite invocation.inputPath
      (surroundings.input invocation.inputPath) with
  | .ok settings, .ok composite => some (settings, composite)
  | _, _ => none

/--
What the exit codes of the commands tell about a composite under some settings.
-/
structure ToldByExitCodes
    (settings : Settings)
    (composite : Composite)
    (exitCode : Command → Nat) :
    Prop where
  hasStatus :
    exitCode .status = 0
  renders :
    exitCode .render = 0 ↔
      ∃ rendering, composite.render settings = .ok rendering
  doesNotRender :
    exitCode .render = 2 ↔
      ∃ error, composite.render settings = .error error
  accepted :
    exitCode .validate = 0 ↔
      composite.checkEngine = .ok () ∧ composite.spec.report.errors = []
  rejected :
    exitCode .validate = 2 ↔
      composite.checkEngine = .ok () ∧ composite.spec.report.errors ≠ []
  refused :
    exitCode .validate = 1 ↔
      ∃ error, composite.checkEngine = .error error
  acceptedIfRendered :
    exitCode .render = 0 → exitCode .validate = 0
  notRenderedIfRejected :
    exitCode .validate ≠ 0 → exitCode .render = 2

/-- What the exit codes of the commands tell about what was found. -/
def ExitCodesTell
    (exitCode : Command → Nat) :
    Option (Settings × Composite) → Prop
  | none => ∀ command, exitCode command = 1
  | some (settings, composite) =>
      ToldByExitCodes settings composite exitCode

namespace Command

variable (format : OutputFormat) {settings : Settings}
  {composite : Composite}

/-- The exit code of a command on a composite that was read. -/
def exitCode
    (format : OutputFormat)
    (settings : Settings)
    (composite : Composite)
    (command : Command) :
    Nat :=
  (command.run format settings composite).exitCode

/-- Rendering exits with 0 or 2, as there is a rendering or none. -/
theorem exitCode_render :
    exitCode format settings composite .render =
      match composite.render settings with
      | .ok _ => 0
      | .error _ => 2 := by
  simp only [exitCode, run]
  cases composite.render settings with
  | ok rendering =>
      rfl
  | error error =>
      rfl

/--
On a composite for this engine validation exits with 0 or 2, as there are no
errors or some, and else with 1.
-/
theorem exitCode_validate :
    exitCode format settings composite .validate =
      match composite.checkEngine with
      | .ok _ => if composite.spec.report.errors = [] then 0 else 2
      | .error _ => 1 := by
  have verdict :
      composite.spec.report.valid = true ↔
        composite.spec.report.errors = [] := by
    have opposite :
        composite.spec.report.valid = !composite.spec.report.hasErrors :=
      rfl
    simp [opposite, Report.hasErrors, Report.errors]
  simp only [exitCode, run, Composite.validate]
  cases composite.checkEngine with
  | ok _ =>
      simp only [bind, Except.bind, pure, Except.pure, verdict]
  | error error =>
      rfl

/-- A composite that renders is one for this engine, without errors. -/
theorem engine_of_render
    {rendering : Rendering}
    (rendered : composite.render settings = .ok rendering) :
    composite.checkEngine = .ok () ∧ composite.spec.report.errors = [] := by
  cases engine : composite.checkEngine with
  | error error =>
      rw [Composite.render, Composite.renderIn_of_refused engine] at rendered
      cases rendered
  | ok _ =>
      refine ⟨rfl, ?_⟩
      by_contra hasError
      have invalid : composite.spec.report.hasErrors = true := by
        simpa [Report.errors, Report.hasErrors] using hasError
      rw [Composite.render,
        Composite.renderIn_of_invalid engine invalid] at rendered
      cases rendered

/-- What the commands' exit codes tell about a composite that was read. -/
theorem toldByExitCodes
    (format : OutputFormat)
    (settings : Settings)
    (composite : Composite) :
    ToldByExitCodes settings composite
      (exitCode format settings composite) := by
  have acceptedIfRendered :
      exitCode format settings composite .render = 0 →
        exitCode format settings composite .validate = 0 := by
    rw [exitCode_render, exitCode_validate]
    cases rendered : composite.render settings with
    | ok rendering =>
        obtain ⟨engine, noErrors⟩ := engine_of_render rendered
        simp [engine, noErrors]
    | error error =>
        nofun
  refine
    { hasStatus := rfl
      renders := ?_
      doesNotRender := ?_
      accepted := ?_
      rejected := ?_
      refused := ?_
      acceptedIfRendered := acceptedIfRendered
      notRenderedIfRejected := ?_ }
  · rw [exitCode_render]
    cases composite.render settings <;> simp
  · rw [exitCode_render]
    cases composite.render settings <;> simp
  · rw [exitCode_validate]
    cases composite.checkEngine <;> simp
  · rw [exitCode_validate]
    cases composite.checkEngine <;> simp
  · rw [exitCode_validate]
    cases composite.checkEngine with
    | ok _ =>
        by_cases noErrors : composite.spec.report.errors = []
        · simp [noErrors]
        · simp [noErrors]
    | error error =>
        simp
  · intro nonzero
    have notZero := mt acceptedIfRendered nonzero
    rw [exitCode_render] at notZero ⊢
    cases outcome : composite.render settings with
    | ok rendering =>
        simp [outcome] at notZero
    | error error =>
        rfl

end Command

/-- An invocation that finds what it needs carries out its command on it. -/
theorem Invocation.run_of_found
    {describe : ReadError → String}
    {surroundings : Surroundings}
    {invocation : Invocation}
    {settings : Settings}
    {composite : Composite}
    (found : invocation.found? surroundings = some (settings, composite)) :
    (Request.invoke invocation).run describe surroundings =
      invocation.command.run invocation.format settings composite := by
  rw [found?] at found
  split at found
  · rename_i settingsRead compositeRead
    cases found
    simp only [Request.run, run, settingsRead, compositeRead]
  · cases found

theorem Invocation.exitCode_of_not_found
    {describe : ReadError → String}
    {surroundings : Surroundings}
    {invocation : Invocation}
    (notFound : invocation.found? surroundings = none) :
    ((Request.invoke invocation).run describe surroundings).exitCode = 1 := by
  simp only [Request.run, run]
  split
  · rfl
  · rename_i settings settingsRead
    split
    · rfl
    · rename_i composite compositeRead
      simp [found?, settingsRead, compositeRead] at notFound

/-- What an invocation exits with if it asks for a command instead of its own. -/
def Invocation.exitCodes
    (describe : ReadError → String)
    (surroundings : Surroundings)
    (invocation : Invocation)
    (command : Command) :
    Nat :=
  ((Request.invoke { invocation with command := command }).run describe
    surroundings).exitCode

/--
Arguments that make up an invocation exit with the code of its command.  The
codes of the three commands tell whether the settings and the document can be
read, and what becomes of the document.
-/
theorem exit_codes_tell
    (describe : ReadError → String)
    (surroundings : Surroundings)
    {environment : Option String}
    {arguments : List String}
    {invocation : Invocation}
    (asked : Request.ofArguments environment arguments = .invoke invocation) :
    ((Request.ofArguments environment arguments).run describe
        surroundings).exitCode =
        invocation.exitCodes describe surroundings invocation.command ∧
      ExitCodesTell (invocation.exitCodes describe surroundings)
        (invocation.found? surroundings) := by
  refine ⟨by rw [asked]; rfl, ?_⟩
  cases found : invocation.found? surroundings with
  | none =>
      intro command
      have notFound :
          { invocation with command := command }.found? surroundings = none :=
        found
      exact Invocation.exitCode_of_not_found notFound
  | some read =>
      obtain ⟨settings, composite⟩ := read
      have sameCodes :
          invocation.exitCodes describe surroundings =
            Command.exitCode invocation.format settings composite := by
        funext command
        have foundAlike :
            { invocation with command := command }.found? surroundings =
              some (settings, composite) :=
          found
        rw [Invocation.exitCodes, Invocation.run_of_found foundAlike]
        rfl
      rw [sameCodes]
      exact Command.toldByExitCodes invocation.format settings composite

/-- Surroundings without files, where a composite asks for a later engine. -/
def Surroundings.laterEngineAsked : Surroundings where
  files := fun _ => .absent .missing
  standardInput := "engineMinVersion: 99.0.0\n".toUTF8

theorem exit_codes_tell_sample :
    Request.ofArguments none ["-c", "settings.yaml", "validate"] =
        .invoke ⟨"settings.yaml", .json, .validate, "-"⟩ ∧
      ((Request.ofArguments none ["-c", "settings.yaml", "validate"]).run
          ReadError.message .laterEngineAsked).exitCode =
        Invocation.exitCodes ReadError.message .laterEngineAsked
          ⟨"settings.yaml", .json, .validate, "-"⟩ .validate ∧
      ExitCodesTell
        (Invocation.exitCodes ReadError.message .laterEngineAsked
          ⟨"settings.yaml", .json, .validate, "-"⟩)
        (Invocation.found? ⟨"settings.yaml", .json, .validate, "-"⟩
          .laterEngineAsked) := by
  have asked :
      Request.ofArguments none ["-c", "settings.yaml", "validate"] =
        .invoke ⟨"settings.yaml", .json, .validate, "-"⟩ := by
    decide +kernel
  exact ⟨asked, exit_codes_tell ReadError.message .laterEngineAsked asked⟩

/--
A composite that is read and asks for a later engine fails to render with a
code of its own, but fails validation with the code of a document that cannot
be read.
-/
theorem later_engine_exits_as_unreadable :
    (readComposite "-" (Surroundings.laterEngineAsked.input "-")).isOk = true ∧
      ((Request.ofArguments none ["render"]).run ReadError.message
          .laterEngineAsked).exitCode = 2 ∧
        ((Request.ofArguments none ["validate"]).run ReadError.message
            .laterEngineAsked).exitCode = 1 := by
  decide +kernel

end AccessTopology.CommandLine
