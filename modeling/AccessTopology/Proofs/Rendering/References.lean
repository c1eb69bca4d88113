import AccessTopology.Proofs.Rendering.Outcome

namespace AccessTopology

/-!
# References of a rendering

No reference of a rendering dangles.  Each holds a literal of the form that its
name asks for, or points at the identifier of an earlier draft of the kind that
its name asks for, and no other draft has that draft's key.
-/

/--
A reference of the draft at some position is grounded: it holds a literal, or
it points at the one draft of its key, which comes earlier and is of a kind that
the reference demands.
-/
inductive Draft.Grounded
    (drafts : List Draft)
    (position : Nat)
    (draft : Draft)
    (name : String) :
    Reference → Prop
  | literal {value : String} :
      Reference.LiteralFor name value →
        Grounded drafts position draft name (.external value)
  | drafted (target : Draft) (field : String) :
      target ∈ drafts.take position →
      drafts.filter (fun other => other.key = target.key) = [target] →
      draft.Demands name target.kind →
      target.kind.identifierField? = some field →
        Grounded drafts position draft name (.draft target.key field)

/-- Every reference of every draft of a list is grounded. -/
def Draft.AllGrounded (drafts : List Draft) : Prop :=
  ∀ (position : Nat) (draft : Draft),
    drafts[position]? = some draft →
      ∀ (name : String) (reference : Reference),
        draft.references.get? name = some reference →
          draft.Grounded drafts position name reference

/-- Nothing dangles when every key that a draft points at was drafted. -/
theorem Ledger.dangling?_eq_none_iff
    {ledger : Ledger} :
    ledger.dangling? = none ↔
      ∀ draft ∈ ledger.drafts,
        ∀ target ∈ draft.targets,
          ∃ other ∈ ledger.drafts, other.key = target := by
  have containsIff (key : LogicalKey) :
      ledger.contains key = true ↔
        ∃ other ∈ ledger.drafts, other.key = key := by
    simp [contains_iff, drafts, LedgerEntry.key]
  simp only [dangling?, List.findSome?_eq_none_iff, Option.map_eq_none_iff,
    List.find?_eq_none, Bool.not_eq_true', Bool.not_eq_false, containsIff]

/-- Where every reference is grounded, none dangles. -/
theorem Ledger.dangling?_eq_none
    {ledger : Ledger}
    (grounded : Draft.AllGrounded ledger.drafts) :
    ledger.dangling? = none := by
  rw [dangling?_eq_none_iff]
  intro draft member target targeted
  obtain ⟨position, placed⟩ := List.getElem?_of_mem member
  obtain ⟨reference, held, pointsAt⟩ := List.mem_filterMap.mp targeted
  obtain ⟨⟨name, _⟩, listed, rfl⟩ := List.mem_map.mp held
  cases grounded position draft placed name _
      (KeyMap.get?_eq_some_iff.mpr listed) with
  | literal _ =>
      cases pointsAt
  | drafted other field earlier =>
      cases pointsAt
      exact ⟨other, (List.take_sublist position ledger.drafts).subset earlier,
        rfl⟩

namespace Scope.Completes

variable {scope : Scope}

/-- The drafts of a pass that completes have distinct keys. -/
theorem nodup_keys
    {stages : List Stage}
    (completes : scope.Completes stages)
    (distinct : scope.spec.DistinctNames)
    (observations : Observations) :
    (((dropRepeats Declaration.identity
        (scope.spec.declarationsIn stages)).map
          (Declaration.compiled scope observations)).map
            Draft.key).Nodup := by
  have asked :
      ∀ declaration ∈ scope.spec.declarationsIn stages,
        scope.spec.Asks declaration :=
    fun _ => Spec.asks_of_mem_declarationsIn
  rw [← Declaration.dropRepeats_key_eq distinct asked completes.keysApart,
    List.map_map]
  exact nodup_map_dropRepeats Declaration.key _

/-- Every reference of a pass that completes is grounded. -/
theorem grounded
    (completes : scope.Completes Stage.all)
    (faithful : scope.Faithful)
    (distinct : scope.spec.DistinctNames)
    (observations : Observations)
    {drafts : List Draft}
    (compiled :
      drafts =
        (dropRepeats Declaration.identity scope.spec.declarations).map
          (Declaration.compiled scope observations)) :
    Draft.AllGrounded drafts := by
  intro position draft placed name reference held
  have keysOnce : (drafts.map Draft.key).Nodup := by
    rw [compiled, ← Spec.declarationsIn_all]
    exact completes.nodup_keys distinct observations
  rw [compiled, List.getElem?_map, Option.map_eq_some_iff] at placed
  obtain ⟨declaration, keptAt, rfl⟩ := placed
  obtain ⟨inBounds, isDeclaration⟩ := List.getElem?_eq_some_iff.mp keptAt
  have split :
      dropRepeats Declaration.identity scope.spec.declarations =
        (dropRepeats Declaration.identity
            scope.spec.declarations).take position ++
          declaration ::
            (dropRepeats Declaration.identity
              scope.spec.declarations).drop (position + 1) := by
    rw [← isDeclaration, List.getElem_cons_drop, List.take_append_drop]
  have listed : declaration ∈ scope.spec.declarationsIn Stage.all := by
    rw [Spec.declarationsIn_all]
    exact (dropRepeats_sublist _ _).subset
      (List.mem_of_getElem? keptAt)
  have carried :
      declaration.CarriedBy scope
        (declaration.compiled scope observations) :=
    Declaration.carriedBy_compiled (completes.resolves declaration listed)
  obtain ⟨references, needed, holds⟩ := carried.references
  rw [holds] at held
  have supply :
      Declaration.Supplies _ (declaration.compiled scope observations)
        name reference :=
    Spec.suppliedBy_of_split faithful distinct split references needed
      (name, reference) (KeyMap.mem_of_get?_ofList held)
  cases supply with
  | literal isLiteral =>
      exact .literal isLiteral
  | declared target field kept demands identifies =>
      have earlier :
          target.compiled scope observations ∈ drafts.take position := by
        rw [compiled, ← List.map_take]
        exact List.mem_map_of_mem kept
      have only :
          drafts.filter (fun other => other.key = target.key) =
            [target.compiled scope observations] :=
        filter_eq_singleton_of_nodup keysOnce
          ((List.take_sublist position drafts).subset earlier)
      exact .drafted (target.compiled scope observations) field earlier
        only demands identifies

end Scope.Completes

namespace Composite

variable {composite : Composite} {settings : Settings}

theorem grounded_of_runStages
    (valid : composite.spec.report.hasErrors = false)
    {ledger : Ledger}
    (completed :
      Ledger.runStages (composite.scope settings)
        (composite.observations settings) .empty Stage.all =
          (ledger, none)) :
    Draft.AllGrounded ledger.drafts := by
  obtain ⟨completes, drafts⟩ := drafts_of_runStages valid completed
  exact completes.grounded (composite.faithful_scope settings)
    (Spec.distinctNames_of_valid valid) (composite.observations settings)
    drafts

/-- The drafts of a rendering have distinct keys. -/
theorem nodup_keys_of_render
    {rendering : Rendering}
    (rendered : composite.render settings = .ok rendering) :
    (rendering.drafts.map Draft.key).Nodup := by
  obtain ⟨valid, completes, drafts, _⟩ := compiled_of_render rendered
  rw [drafts, ← Spec.declarationsIn_all]
  exact completes.nodup_keys (Spec.distinctNames_of_valid valid)
    (composite.observations settings)

/--
No rendering fails for a dangling reference, and every reference of a rendering
is a literal of the right form or points at the identifier of the one draft of
its key, which comes earlier and is of the right kind.
-/
theorem render_references_grounded
    (composite : Composite)
    (settings : Settings) :
    (∀ source target,
      composite.render settings ≠
        .error (.danglingReference source target)) ∧
      ∀ rendering,
        composite.render settings = .ok rendering →
          Draft.AllGrounded rendering.drafts := by
  constructor
  · intro source target failed
    rcases error_of_renderIn failed with
      refused | ⟨fault, isFault⟩ | ⟨valid, ledger, completed, dangling⟩
    · rcases error_of_checkEngine refused with
        ⟨_, isInvalid⟩ | ⟨_, _, isTooOld⟩
      · cases isInvalid
      · cases isTooOld
    · cases isFault
    · exact dangling
        (Ledger.dangling?_eq_none (grounded_of_runStages valid completed))
  · intro rendering rendered
    obtain ⟨_, valid, ledger, made, rfl⟩ := renderIn_eq_ok_iff.mp rendered
    exact grounded_of_runStages valid (ledger_eq_ok_iff.mp made).1

theorem render_references_grounded_sample :
    ∃ rendering,
      sample.render {} = .ok rendering ∧
        Draft.AllGrounded rendering.drafts := by
  obtain ⟨rendering, rendered⟩ := sample_renders
  exact ⟨rendering, rendered,
    (render_references_grounded sample {}).2 rendering rendered⟩

end Composite

end AccessTopology
