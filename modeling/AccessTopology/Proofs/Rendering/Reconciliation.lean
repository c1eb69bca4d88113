import AccessTopology.Proofs.Observation
import AccessTopology.Proofs.Rendering.Observed
import AccessTopology.Proofs.Rendering.Status
import Mathlib.Data.Multiset.MapFold

namespace AccessTopology

/-!
# Observing what was drafted

When every draft of a rendering is reported as a ready resource with an
external name, the composite renders to the same drafts under these names, and
every entry of its status is ready.  The next pass thus finds each resource
under the key that this pass gave it.
-/

/-- Every entry of a status is ready. -/
structure StatusSummary.Settled (summary : StatusSummary) : Prop where
  states :
    ∀ entry ∈ summary.entries, entry.2.state = .ready
  pending :
    summary.counts.pending = 0
  provisioning :
    summary.counts.provisioning = 0
  ready :
    summary.ready = true ↔ summary.entries ≠ []

namespace StatusSummary

theorem settled_ofScope
    {scope : Scope}
    {observations : Observations}
    (allReady :
      ∀ entry ∈ (ofScope scope observations).entries,
        entry.2.state = .ready) :
    (ofScope scope observations).Settled := by
  have statesReady :
      ∀ status ∈ (ofScope scope observations).entries.map Prod.snd,
        status.state = .ready :=
    List.forall_mem_map.mpr allReady
  refine ⟨allReady, ?_, ?_, ?_⟩
  · rw [counts_ofScope, ReadinessCounts.ofStatuses, List.countP_eq_zero]
    intro status member
    simp [statesReady status member]
  · rw [counts_ofScope, ReadinessCounts.ofStatuses, List.countP_eq_zero]
    intro status member
    simp [statesReady status member]
  · rw [ready_ofScope_iff, List.length_pos_iff]
    exact and_iff_left allReady

/-- The entries of a status are about resources that were drafted. -/
theorem AgreesWith.exists_draft
    {summary : StatusSummary}
    {drafts : List Draft}
    (agrees : summary.AgreesWith drafts)
    {entry : String × ResourceStatus}
    (listed : entry ∈ summary.entries) :
    ∃ draft ∈ drafts, draft.key.text = entry.1 := by
  rw [entries, List.mem_append, List.mem_append] at listed
  rcases listed with (inPrincipals | inSets) | inAssignments
  · obtain ⟨draft, drafted, _, sameKey⟩ :=
      (agrees.principals entry.1).mp (List.mem_map_of_mem inPrincipals)
    exact ⟨draft, drafted, sameKey⟩
  · obtain ⟨draft, drafted, _, sameKey⟩ :=
      (agrees.permissionSets entry.1).mp (List.mem_map_of_mem inSets)
    exact ⟨draft, drafted, sameKey⟩
  · obtain ⟨draft, drafted, _, sameKey⟩ :=
      (agrees.assignments entry.1).mp (List.mem_map_of_mem inAssignments)
    exact ⟨draft, drafted, sameKey⟩

/-- A status is settled when every draft is observed to be ready. -/
theorem settled_of_observed
    {scope : Scope}
    {observations : Observations}
    {drafts : List Draft}
    (agrees : (ofScope scope observations).AgreesWith drafts)
    (observed :
      ∀ draft ∈ drafts,
        ∃ observation,
          observations.get? draft.key = some observation ∧
            observation.ready = true) :
    (ofScope scope observations).Settled := by
  refine settled_ofScope ?_
  intro entry listed
  obtain ⟨draft, drafted, named⟩ := agrees.exists_draft listed
  obtain ⟨kind, key, _, rfl⟩ := exists_key_of_mem_entries listed
  have isKey : draft.key = key := congrArg LogicalKey.mk named
  obtain ⟨observation, found, isReady⟩ := observed draft drafted
  rw [isKey] at found
  simp [ResourceStatus.ofObservations, found, isReady]

end StatusSummary

/--
Each object of a list reports one draft, each draft is reported once, and each
is given an external name.
-/
def Draft.AllReported
    (settings : Settings)
    (nameOf : Draft → String)
    (drafts : List Draft)
    (observed : List Json) :
    Prop :=
  Multiset.Rel
    (fun draft object =>
      object.Reports settings draft.key (nameOf draft))
    (drafts : Multiset Draft) (observed : Multiset Json)

namespace Draft.AllReported

variable {settings : Settings} {nameOf : Draft → String}
  {drafts : List Draft} {observed : List Json}

theorem exists_object
    (reported : AllReported settings nameOf drafts observed)
    {draft : Draft}
    (drafted : draft ∈ drafts) :
    ∃ object ∈ observed,
      object.Reports settings draft.key (nameOf draft) :=
  Multiset.exists_mem_of_rel_of_mem reported drafted

theorem exists_draft
    (reported : AllReported settings nameOf drafts observed)
    {object : Json}
    (listed : object ∈ observed) :
    ∃ draft ∈ drafts,
      object.Reports settings draft.key (nameOf draft) :=
  Multiset.exists_mem_of_rel_of_mem (Multiset.rel_flip.mpr reported) listed

/-- What is observed under the key of a draft is what its report says. -/
theorem get?_ofObjects
    (reported : AllReported settings nameOf drafts observed)
    (keysOnce : (drafts.map Draft.key).Nodup)
    (composed :
      ∀ draft ∈ drafts, ∃ kind names, draft.key = .compose kind names)
    (written : ∀ draft ∈ drafts, nameOf draft ≠ "")
    {draft : Draft}
    (drafted : draft ∈ drafts) :
    ∃ observation,
      (Observations.ofObjects settings observed).get? draft.key =
          some observation ∧
        observation.externalName = some (nameOf draft) ∧
          observation.ready = true := by
  have tellsKey :
      ∀ other ∈ drafts,
        ∀ object : Json,
          object.Reports settings other.key (nameOf other) →
            Observation.key? settings object = some other.key := by
    intro other otherDrafted object reports
    obtain ⟨kind, names, isComposed⟩ := composed other otherDrafted
    rw [isComposed] at reports ⊢
    exact reports.key?_eq
  rw [Observations.get?_ofObjects]
  cases found :
      observed.reverse.find?
        (fun object => Observation.key? settings object = some draft.key) with
  | none =>
      obtain ⟨object, listed, reports⟩ := reported.exists_object drafted
      have absent :=
        List.find?_eq_none.mp found object (List.mem_reverse.mpr listed)
      simp [tellsKey draft drafted object reports] at absent
  | some object =>
      -- The object reports some draft, and no other draft has its key.
      have listed : object ∈ observed :=
        List.mem_reverse.mp (List.mem_of_find?_eq_some found)
      have tellsDraft :
          Observation.key? settings object = some draft.key := by
        simpa using List.find?_some found
      obtain ⟨other, otherDrafted, reports⟩ := reported.exists_draft listed
      have sameKey : other.key = draft.key :=
        Option.some.inj
          ((tellsKey other otherDrafted object reports).symm.trans tellsDraft)
      have isDraft : other = draft :=
        List.inj_on_of_nodup_map keysOnce otherDrafted drafted sameKey
      subst isDraft
      exact ⟨_, rfl, reports.externalName_eq (written other otherDrafted),
        reports.ready_eq⟩

end Draft.AllReported

namespace Composite

variable {composite : Composite} {settings : Settings}
  {rendering : Rendering}

/-- Other observed objects rename the drafts of a rendering. -/
theorem renderIn_observing
    {stages : List Stage}
    (rendered : composite.renderIn settings stages = .ok rendering)
    (observed : List Json) :
    ∃ again,
      (composite.observing observed).renderIn settings stages = .ok again ∧
        again.drafts =
            rendering.drafts.map
              (Draft.named (.ofObjects settings observed)) ∧
          again.status =
            .ofScope (composite.scope settings)
              (.ofObjects settings observed) := by
  obtain ⟨engine, valid, ledger, made, rfl⟩ := renderIn_eq_ok_iff.mp rendered
  have madeAgain :
      (composite.observing observed).ledger settings stages =
        .ok (ledger.named (.ofObjects settings observed)) := by
    rw [ledger_observing, made]
    rfl
  refine ⟨_, renderIn_eq_ok_iff.mpr
    ⟨engine, valid, _, madeAgain, rfl⟩, ?_, rfl⟩
  exact Ledger.drafts_named _ ledger

/-- The keys of a rendering's drafts are composed of kinds and names. -/
theorem composed_of_render
    (rendered : composite.render settings = .ok rendering)
    {draft : Draft}
    (drafted : draft ∈ rendering.drafts) :
    ∃ kind names, draft.key = .compose kind names := by
  obtain ⟨declaration, _, rfl⟩ := (mem_drafts_iff rendered).mp drafted
  obtain ⟨names, isKey⟩ := declaration.exists_compose_eq_key
  exact ⟨declaration.kind, names, isKey⟩

/--
A composite whose drafts are all reported renders to the same drafts under the
reported names, and its status is settled.
-/
theorem render_settles_of_reported
    (rendered : composite.render settings = .ok rendering)
    {nameOf : Draft → String}
    (written : ∀ draft ∈ rendering.drafts, nameOf draft ≠ "")
    {observed : List Json}
    (reported :
      Draft.AllReported settings nameOf rendering.drafts observed) :
    ∃ again,
      (composite.observing observed).render settings = .ok again ∧
        again.drafts =
            rendering.drafts.map
              (fun draft =>
                { draft with externalName := some (nameOf draft) }) ∧
          again.status.Settled := by
  obtain ⟨again, renderedAgain, renamed, status⟩ :=
    renderIn_observing rendered observed
  have observedUnder :
      ∀ draft ∈ rendering.drafts,
        ∃ observation,
          (Observations.ofObjects settings observed).get? draft.key =
              some observation ∧
            observation.externalName = some (nameOf draft) ∧
              observation.ready = true :=
    fun _ =>
      reported.get?_ofObjects (nodup_keys_of_render rendered)
        (fun _ => composed_of_render rendered) written
  refine ⟨again, renderedAgain, ?_, ?_⟩
  · rw [renamed]
    refine List.map_congr_left ?_
    intro draft drafted
    obtain ⟨observation, found, named, _⟩ := observedUnder draft drafted
    simp [Draft.named, Observations.externalName?, found, named]
  · obtain ⟨valid, completes, compiled, _⟩ :=
      compiled_of_render renderedAgain
    have agrees :
        (StatusSummary.ofScope (composite.scope settings)
          (.ofObjects settings observed)).AgreesWith again.drafts :=
      StatusSummary.agreesWith_of_completes
        (composite.faithful_scope settings)
        (Spec.distinctNames_of_valid valid) completes compiled
    rw [status]
    refine StatusSummary.settled_of_observed agrees ?_
    rw [renamed, List.forall_mem_map]
    intro draft drafted
    obtain ⟨observation, found, _, isReady⟩ := observedUnder draft drafted
    exact ⟨observation, found, isReady⟩

theorem render_settles_of_reported_sample :
    ∃ rendering again,
      sample.render {} = .ok rendering ∧
        (sample.observing
          (rendering.drafts.reverse.map
            (fun draft =>
              Json.annotatedReady {} (" " ++ draft.key.text ++ "\n")
                "name"))).render {} = .ok again ∧
          again.drafts =
              rendering.drafts.map
                (fun draft => { draft with externalName := some "name" }) ∧
            again.status.Settled := by
  obtain ⟨rendering, rendered⟩ := sample_renders
  have reported :
      Draft.AllReported {} (fun _ => "name") rendering.drafts
        (rendering.drafts.reverse.map
          (fun draft =>
            Json.annotatedReady {} (" " ++ draft.key.text ++ "\n")
              "name")) := by
    rw [Draft.AllReported, ← Multiset.map_coe, Multiset.coe_reverse,
      Multiset.rel_map_right]
    refine Multiset.rel_refl_of_refl_on ?_
    intro draft _
    exact Json.reports_annotatedReady (by decide) (by decide) (by decide)
      draft.key "name"
  obtain ⟨again, renderedAgain, renamed, settled⟩ :=
    render_settles_of_reported rendered (fun _ _ => by decide) reported
  exact ⟨rendering, again, rendered, renderedAgain, renamed, settled⟩

end Composite

end AccessTopology
