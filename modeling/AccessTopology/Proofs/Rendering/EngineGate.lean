import AccessTopology.Proofs.Rendering.Outcome
import AccessTopology.Proofs.Version.Precedence

namespace AccessTopology

/-!
# Which engine a composite asks for

A composite may ask for a version of the engine.  It is refused, validated or
rendered, whatever it declares, if the version is above this engine's, and if
its text is not a version's.  The full order of versions decides, so that a
version of this engine's precedence is refused too if it has a build.
-/

theorem parse?_engineVersionText :
    Version.parse? engineVersionText = some engineVersion := by
  decide +kernel

theorem engineVersion_wellFormed : engineVersion.WellFormed :=
  (Version.parse?_eq_some_iff.mp parse?_engineVersionText).1

/-- A build of this engine's version. -/
def engineBuild : Version :=
  { engineVersion with build := ["build".toList] }

namespace Composite

/-- Every pass over a composite is refused with one error. -/
structure RefusedWith (composite : Composite) (error : RenderError) : Prop where
  validate :
    composite.validate = .error error
  render :
    ∀ settings stages, composite.renderIn settings stages = .error error

/-- No pass over a composite is refused for the version that it asks for. -/
structure Admitted (composite : Composite) : Prop where
  validate :
    composite.validate = .ok composite.spec.report
  render :
    ∀ settings stages required engine,
      composite.renderIn settings stages ≠
        .error (.engineTooOld required engine)

variable {composite : Composite} {settings : Settings}
  {stages : List Stage}

theorem refusedWith_of_checkEngine
    {error : RenderError}
    (refused : composite.checkEngine = .error error) :
    composite.RefusedWith error := by
  refine ⟨?_, fun _ _ => renderIn_of_refused refused⟩
  rw [Composite.validate, refused]
  rfl

/-- Stages do not fail for the engine's version. -/
theorem ledger_ne_engineTooOld (required engine : String) :
    composite.ledger settings stages ≠
      .error (.engineTooOld required engine) := by
  intro failed
  rw [ledger] at failed
  split at failed
  · rename_i stopped raised outcome
    cases failed
    obtain ⟨fault, isFault⟩ := Ledger.configuration_of_runStages outcome
    cases isFault
  · split at failed
    · cases failed
    · cases failed

theorem admitted_of_checkEngine
    (engine : composite.checkEngine = .ok ()) :
    composite.Admitted := by
  constructor
  · rw [Composite.validate, engine]
    rfl
  · intro settings stages required version failed
    cases valid : composite.spec.report.hasErrors with
    | true =>
        rw [renderIn_of_invalid engine valid] at failed
        cases failed
    | false =>
        rw [renderIn_of_valid engine valid] at failed
        cases made : composite.ledger settings stages with
        | ok ledger =>
            rw [made] at failed
            cases failed
        | error raised =>
            rw [made] at failed
            cases failed
            exact ledger_ne_engineTooOld required version made

/-- What becomes of a composite that asks for a version of the engine. -/
structure GatedBy (composite : Composite) (required : String) : Prop where
  later :
    ∀ version : Version,
      version.WellFormed →
        version.text = required →
          engineVersion.Precedes version →
            composite.RefusedWith (.engineTooOld required engineVersionText)
  built :
    ∀ version : Version,
      version.WellFormed →
        version.text = required →
          engineVersion.SamePrecedence version →
            version.build ≠ [] →
              composite.RefusedWith (.engineTooOld required engineVersionText)
  admitted :
    ∀ version : Version,
      version.WellFormed →
        version.text = required →
          ¬engineVersion.Precedes version →
            (engineVersion.SamePrecedence version → version.build = []) →
              composite.Admitted
  malformed :
    (∀ version : Version, version.WellFormed → version.text ≠ required) →
      composite.RefusedWith (.invalidVersion required)

/--
A composite that asks for a version of higher precedence than this engine's is
refused as asking for a later engine, and so is one that asks for a build of
this very version.  No pass over any other composite that asks for a version
fails so, and one that asks for what is no version is refused for that.
-/
theorem engine_gate
    {required : String}
    (asks : composite.engineMinVersion = some required) :
    composite.GatedBy required := by
  have asked :
      ∀ version : Version,
        version.WellFormed →
          version.text = required →
            composite.checkEngine =
              if engineVersion.order version = .lt then
                .error (.engineTooOld required engineVersionText)
              else
                .ok () := by
    intro version wellFormed written
    have read : Version.parse? required = some version :=
      Version.parse?_eq_some_iff.mpr ⟨wellFormed, written⟩
    simp only [checkEngine, asks, read]
  have below :
      ∀ version : Version,
        version.WellFormed →
          (engineVersion.order version = .lt ↔
            engineVersion.Precedes version ∨
              engineVersion.SamePrecedence version ∧ version.build ≠ []) :=
    fun version wellFormed =>
      Version.order_eq_lt_iff engineVersion_wellFormed wellFormed rfl
  constructor
  · intro version wellFormed written precedes
    refine refusedWith_of_checkEngine ?_
    rw [asked version wellFormed written,
      if_pos ((below version wellFormed).mpr (.inl precedes))]
  · intro version wellFormed written same built
    refine refusedWith_of_checkEngine ?_
    rw [asked version wellFormed written,
      if_pos ((below version wellFormed).mpr (.inr ⟨same, built⟩))]
  · intro version wellFormed written notLater unbuilt
    refine admitted_of_checkEngine ?_
    rw [asked version wellFormed written, if_neg]
    rw [below version wellFormed]
    rintro (precedes | ⟨same, built⟩)
    · exact notLater precedes
    · exact built (unbuilt same)
  · intro noVersion
    have notRead : Version.parse? required = none := by
      cases read : Version.parse? required with
      | none =>
          rfl
      | some version =>
          obtain ⟨wellFormed, written⟩ := Version.parse?_eq_some_iff.mp read
          exact absurd written (noVersion version wellFormed)
    refine refusedWith_of_checkEngine ?_
    simp only [checkEngine, asks, notRead]

/-- A composite that asks for a pre-release of the next patch. -/
def asksForNextPatch : Composite :=
  { engineMinVersion := some "1.0.1-rc.1" }

theorem engine_gate_sample :
    asksForNextPatch.engineMinVersion = some "1.0.1-rc.1" ∧
      asksForNextPatch.RefusedWith
        (.engineTooOld "1.0.1-rc.1" engineVersionText) := by
  have read :
      Version.parse? "1.0.1-rc.1" =
        some ⟨1, 0, 1, [['r', 'c'], ['1']], []⟩ := by
    decide +kernel
  obtain ⟨wellFormed, written⟩ := Version.parse?_eq_some_iff.mp read
  exact ⟨rfl, (engine_gate rfl).later _ wellFormed written
    (.patch rfl rfl (by decide))⟩

/-- A build of this engine's version has its precedence, and is refused all the same. -/
theorem build_of_engine_refused :
    engineBuild.WellFormed ∧ engineBuild.text = "1.0.0+build" ∧
      ¬engineVersion.Precedes engineBuild ∧
        ({ engineMinVersion := some "1.0.0+build" } :
            Composite).RefusedWith
          (.engineTooOld "1.0.0+build" engineVersionText) := by
  have read : Version.parse? "1.0.0+build" = some engineBuild := by
    decide +kernel
  obtain ⟨wellFormed, written⟩ := Version.parse?_eq_some_iff.mp read
  refine ⟨wellFormed, written, ?_, ?_⟩
  · rw [← Version.precedence_eq_lt_iff engineVersion_wellFormed wellFormed]
    decide
  · exact refusedWith_of_checkEngine (by decide +kernel)

end Composite

end AccessTopology
