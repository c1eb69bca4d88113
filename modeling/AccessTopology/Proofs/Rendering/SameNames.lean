import AccessTopology.Proofs.Rendering.StageOrder
import AccessTopology.Proofs.Topology.Identities

namespace AccessTopology.Composite

/-!
# Renderings of topologies with the same names

A composite renders when this engine may render it, its topology has no errors
and a pass over it completes.  All of this is decided by the engine asked for,
the names that are declared and the identities of the declarations, so it holds
of any other composite that shares these.
-/

variable {composite : Composite} {settings : Settings}

/-- Nothing but errors and a pass that stops keeps a composite from rendering. -/
theorem exists_rendering_iff :
    (∃ rendering, composite.render settings = .ok rendering) ↔
      composite.checkEngine = .ok () ∧
        composite.spec.report.hasErrors = false ∧
          (composite.scope settings).Completes Stage.all :=
  exists_renderingIn_iff Stage.cover_all

variable {left right : Composite} {leftSettings rightSettings : Settings}

theorem sameNames_scope
    (same : left.spec.SameNames right.spec)
    (leftSettings rightSettings : Settings) :
    (left.scope leftSettings).SameNames (right.scope rightSettings) where
  leftFaithful := left.faithful_scope leftSettings
  rightFaithful := right.faithful_scope rightSettings
  spec := same

/-- Composites that ask for the same engine are refused alike. -/
theorem checkEngine_eq
    (sameEngine : left.engineMinVersion = right.engineMinVersion) :
    left.checkEngine = right.checkEngine := by
  rw [checkEngine, checkEngine, sameEngine]

/--
A composite renders where one with the same names and all of its identities
does.
-/
theorem renders_of_sameNames
    (sameEngine : left.engineMinVersion = right.engineMinVersion)
    (same : left.spec.SameNames right.spec)
    (subset :
      left.spec.DistinctNames →
        right.spec.identities ⊆ left.spec.identities)
    (renders : ∃ rendering, left.render leftSettings = .ok rendering) :
    ∃ rendering, right.render rightSettings = .ok rendering := by
  obtain ⟨engine, valid, completes⟩ := exists_rendering_iff.mp renders
  have distinct := Spec.distinctNames_of_valid valid
  refine exists_rendering_iff.mpr ⟨?_, ?_, ?_⟩
  · rw [← checkEngine_eq sameEngine, engine]
  · exact same.valid_of_valid valid
  · exact completes.of_sameNames
      (sameNames_scope same leftSettings rightSettings) (subset distinct)

end AccessTopology.Composite
